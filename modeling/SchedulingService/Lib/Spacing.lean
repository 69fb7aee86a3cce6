import Mathlib.Data.List.Basic
import Mathlib.Data.Nat.Basic

/-!
# Instants that keep a distance

* `Spaced` — a list of instants, newest first, each at least `d` after all
  before it;
* `Spaced.length_filter_le` — how many of them an interval can hold.
-/

namespace SchedulingService

/-- Every instant is at least `d` after those behind it in the list. -/
def Spaced (d : Nat) (times : List Int) : Prop :=
  times.Pairwise fun later earlier : Int => earlier + d ≤ later

namespace Spaced

variable {d : Nat} {times : List Int} {x a : Int}

theorem nil : Spaced d [] := List.Pairwise.nil

/-- A new instant at the distance from all others. -/
theorem cons (h : Spaced d times) (hx : ∀ t ∈ times, t + d ≤ x) : Spaced d (x :: times) :=
  List.pairwise_cons.mpr ⟨hx, h⟩

theorem filter (h : Spaced d times) (p : Int → Bool) : Spaced d (times.filter p) :=
  List.Pairwise.filter p h

/-- From the first instant after `a` on, each takes a distance. -/
theorem le_head (h : Spaced d (x :: times)) (ha : ∀ t ∈ x :: times, a ≤ t) :
    a + (times.length * d : Nat) ≤ x := by
  induction times generalizing x with
  | nil =>
    have hx : a ≤ x := ha x List.mem_cons_self
    simpa using hx
  | cons y times ih =>
    obtain ⟨hbehind, hrest⟩ := List.pairwise_cons.mp h
    have hy : a + (times.length * d : Nat) ≤ y :=
      ih hrest fun t ht => ha t (List.mem_cons_of_mem _ ht)
    have hxy : y + d ≤ x := hbehind y List.mem_cons_self
    have hlength : (y :: times).length * d = times.length * d + d := by
      rw [List.length_cons, Nat.succ_mul]
    omega

/-- **The count.** A closed interval of length `L` holds at most `L / d + 1` of
them. -/
theorem length_filter_le (hd : 0 < d) (h : Spaced d times) (a : Int) (L : Nat) :
    (times.filter fun t => a ≤ t ∧ t ≤ a + L).length ≤ L / d + 1 := by
  have hspaced := h.filter fun t => a ≤ t ∧ t ≤ a + L
  have hmem : ∀ t ∈ times.filter fun t => a ≤ t ∧ t ≤ a + L, a ≤ t ∧ t ≤ a + L := fun t ht => by
    simpa using (List.mem_filter.mp ht).2
  cases hinside : times.filter fun t => a ≤ t ∧ t ≤ a + L with
  | nil => simp
  | cons x xs =>
    rw [hinside] at hspaced hmem
    have hfirst := hspaced.le_head fun t ht => (hmem t ht).1
    have hlast := (hmem x List.mem_cons_self).2
    have hfit : xs.length * d ≤ L := by omega
    rw [List.length_cons]
    exact Nat.succ_le_succ ((Nat.le_div_iff_mul_le hd).mpr hfit)

end Spaced

end SchedulingService
