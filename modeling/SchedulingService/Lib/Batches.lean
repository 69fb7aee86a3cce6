import Mathlib.Algebra.Order.BigOperators.Group.Finset
import Mathlib.Data.Finset.Card
import Mathlib.Algebra.Group.Action.Defs

/-!
# Work done in batches

A set of items each with some work left. A round takes `b` of the items with
work left, or all of them if there are fewer, and does at least one unit for
each it takes; for no item does work come back.

* `done_of_rounds` — after `W / b + m` rounds nothing is left, where `W` is the
  work left in all and `m` bounds the work left of one item, in whatever order
  the items are taken.
-/

namespace SchedulingService.Batches

variable {ι : Type*} {b m k : ℕ} {items : Finset ι} {work work' : ι → ℕ}

/-- The items with work left. -/
def left (items : Finset ι) (work : ι → ℕ) : Finset ι := items.filter fun i => 0 < work i

/-- A round that takes `taken`. -/
structure Takes (b : ℕ) (items : Finset ι) (work work' : ι → ℕ) (taken : Finset ι) : Prop where
  subset : taken ⊆ left items work
  mono : ∀ i ∈ items, work' i ≤ work i
  progress : ∀ i ∈ taken, work' i < work i
  full : taken.card = b ∨ taken = left items work

/-- One round. -/
def Round (b : ℕ) (items : Finset ι) (work work' : ι → ℕ) : Prop :=
  ∃ taken, Takes b items work work' taken

/-- A number of rounds. -/
inductive Rounds (b : ℕ) (items : Finset ι) : ℕ → (ι → ℕ) → (ι → ℕ) → Prop
  | zero {work : ι → ℕ} : Rounds b items 0 work work
  | succ {k : ℕ} {work work₁ work' : ι → ℕ} :
      Round b items work work₁ → Rounds b items k work₁ work' →
      Rounds b items (k + 1) work work'

theorem Takes.mem_items {taken : Finset ι} (h : Takes b items work work' taken) {i : ι}
    (hi : i ∈ taken) : i ∈ items :=
  (Finset.mem_filter.mp (h.subset hi)).1

/-- A full batch does `b` units of work. -/
theorem Takes.sum_le {taken : Finset ι} (h : Takes b items work work' taken)
    (hfull : taken.card = b) : ∑ i ∈ items, work' i + b ≤ ∑ i ∈ items, work i := by
  classical
  have hsub : taken ⊆ items := fun i hi => h.mem_items hi
  rw [← Finset.sum_sdiff hsub, ← Finset.sum_sdiff hsub (f := work), ← hfull, add_assoc]
  have hrest : ∑ i ∈ items \ taken, work' i ≤ ∑ i ∈ items \ taken, work i :=
    Finset.sum_le_sum fun i hi => h.mono i (Finset.mem_sdiff.mp hi).1
  have htaken : ∑ i ∈ taken, work' i + taken.card ≤ ∑ i ∈ taken, work i := by
    rw [Finset.card_eq_sum_ones, ← Finset.sum_add_distrib]
    exact Finset.sum_le_sum fun i hi => h.progress i hi
  omega

/-- A batch of all items lowers the bound. -/
theorem Takes.bound {taken : Finset ι} (h : Takes b items work work' taken)
    (hall : taken = left items work) (hm : ∀ i ∈ items, work i ≤ m + 1) :
    ∀ i ∈ items, work' i ≤ m := by
  intro i hi
  by_cases hpos : 0 < work i
  · have htaken : i ∈ taken := by
      rw [hall]
      exact Finset.mem_filter.mpr ⟨hi, hpos⟩
    have hless := h.progress i htaken
    have hbound := hm i hi
    omega
  · have hmono := h.mono i hi
    omega

/-- A bound for one item bounds the work of all. -/
theorem sum_le_mul_card (hm : ∀ i ∈ items, work i ≤ m) :
    ∑ i ∈ items, work i ≤ m * items.card := by
  rw [mul_comm, ← smul_eq_mul]
  exact Finset.sum_le_card_nsmul items work m hm

theorem Rounds.mono (h : Rounds b items k work work') : ∀ i ∈ items, work' i ≤ work i := by
  induction h with
  | zero => exact fun _ _ => le_rfl
  | succ hround _ ih =>
    obtain ⟨taken, htakes⟩ := hround
    exact fun i hi => (ih i hi).trans (htakes.mono i hi)

/-- **Draining.** A round is full, and the work left in all drops by `b`, or takes
every item, and the work left of each drops by one. -/
theorem done_of_rounds (hb : 0 < b) (h : Rounds b items k work work')
    (hm : ∀ i ∈ items, work i ≤ m) (hk : (∑ i ∈ items, work i) / b + m ≤ k) :
    ∀ i ∈ items, work' i = 0 := by
  induction h generalizing m with
  | zero =>
    obtain rfl : m = 0 := Nat.le_zero.mp ((Nat.le_add_left m _).trans hk)
    exact fun i hi => Nat.le_zero.mp (hm i hi)
  | @succ k work work₁ work' hround hrest ih =>
    obtain ⟨taken, htakes⟩ := hround
    rcases htakes.full with hfull | hall
    · refine ih (fun i hi => (htakes.mono i hi).trans (hm i hi)) ?_
      have hsum := htakes.sum_le hfull
      have hdiv : (∑ i ∈ items, work₁ i) / b + 1 ≤ (∑ i ∈ items, work i) / b := by
        rw [← Nat.add_div_right _ hb]
        exact Nat.div_le_div_right hsum
      omega
    · cases m with
      | zero =>
        -- nothing was left to begin with
        intro i hi
        have hmono := hrest.mono i hi
        have hfirst := htakes.mono i hi
        have hzero := hm i hi
        omega
      | succ m =>
        refine ih (htakes.bound hall hm) ?_
        have hsum : ∑ i ∈ items, work₁ i ≤ ∑ i ∈ items, work i :=
          Finset.sum_le_sum fun i hi => htakes.mono i hi
        have hdiv : (∑ i ∈ items, work₁ i) / b ≤ (∑ i ∈ items, work i) / b :=
          Nat.div_le_div_right hsum
        omega

end SchedulingService.Batches
