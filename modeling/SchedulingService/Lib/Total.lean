import Mathlib.Data.List.Nodup
import Mathlib.Data.List.Basic
import Mathlib.Logic.Function.Basic

/-!
# Adding up over a list

`total f l` adds `f a` over the members of `l`, with what the operations of an
event do to it: a member is appended, replaced or taken out.
-/

namespace SchedulingService

variable {α : Type*}

def total (f : α → Nat) : List α → Nat
  | [] => 0
  | a :: l => f a + total f l

@[simp] theorem total_nil (f : α → Nat) : total f [] = 0 := rfl

@[simp] theorem total_cons (f : α → Nat) (a : α) (l : List α) :
    total f (a :: l) = f a + total f l := rfl

@[simp] theorem total_append (f : α → Nat) (l l' : List α) :
    total f (l ++ l') = total f l + total f l' := by
  induction l with
  | nil => simp
  | cons a l ih =>
    simp only [List.cons_append, total_cons, ih]
    omega

theorem total_sublist (f : α → Nat) {l l' : List α} (h : l.Sublist l') :
    total f l ≤ total f l' := by
  induction h with
  | slnil => exact Nat.le_refl _
  | cons a _ ih =>
    rw [total_cons]
    omega
  | cons_cons a _ ih =>
    rw [total_cons, total_cons]
    omega

theorem total_congr {f g : α → Nat} {l : List α} (h : ∀ a ∈ l, f a = g a) :
    total f l = total g l := by
  induction l with
  | nil => rfl
  | cons a l ih =>
    rw [total_cons, total_cons, h a List.mem_cons_self,
      ih fun b hb => h b (List.mem_cons_of_mem a hb)]

/-- One member gives way to another. -/
theorem total_replace [DecidableEq α] (f : α → Nat) {l : List α} (hnodup : l.Nodup) {a : α}
    (ha : a ∈ l) (b : α) :
    total f (l.map fun x => if x = a then b else x) + f a = total f l + f b := by
  induction l with
  | nil => cases ha
  | cons x l ih =>
    obtain ⟨hx, hl⟩ := List.nodup_cons.mp hnodup
    rw [List.map_cons, total_cons, total_cons]
    by_cases hxa : x = a
    · -- there is no other
      have hrest : l.map (fun y => if y = a then b else y) = l := by
        refine (List.map_congr_left fun y hy => if_neg ?_).trans (List.map_id _)
        rintro rfl
        exact hx (hxa ▸ hy)
      rw [hrest, if_pos hxa, hxa]
      omega
    · have hmem : a ∈ l := by
        rcases List.mem_cons.mp ha with h | h
        · exact absurd h.symm hxa
        · exact h
      have hih := ih hl hmem
      rw [if_neg hxa]
      omega

/-- One member is given another value. -/
theorem total_update {β : Type*} [DecidableEq α] (g : β → Nat) (f : α → β) {l : List α}
    (hnodup : l.Nodup) {a : α} (ha : a ∈ l) (b : β) :
    total (fun x => g (Function.update f a b x)) l + g (f a) =
      total (fun x => g (f x)) l + g b := by
  induction l with
  | nil => cases ha
  | cons x l ih =>
    obtain ⟨hx, hl⟩ := List.nodup_cons.mp hnodup
    rw [total_cons, total_cons]
    by_cases hxa : x = a
    · -- the others keep theirs
      subst hxa
      have hrest : total (fun y => g (Function.update f x b y)) l = total (fun y => g (f y)) l := by
        refine total_congr fun y hy => ?_
        have hne : y ≠ x := fun h => hx (h ▸ hy)
        rw [Function.update_of_ne hne]
      rw [hrest, Function.update_self]
      omega
    · have hmem : a ∈ l := by
        rcases List.mem_cons.mp ha with h | h
        · exact absurd h.symm hxa
        · exact h
      have hih := ih hl hmem
      rw [Function.update_of_ne hxa]
      omega

/-- One member is taken out. -/
theorem total_eraseIdx (f : α → Nat) {l : List α} {n : Nat} {a : α} (h : l[n]? = some a) :
    total f (l.eraseIdx n) + f a = total f l := by
  induction l generalizing n with
  | nil => cases h
  | cons x l ih =>
    cases n with
    | zero =>
      obtain rfl := Option.some.inj h
      rw [List.eraseIdx_cons_zero, total_cons]
      omega
    | succ n =>
      have hih := ih (List.getElem?_cons_succ ▸ h)
      rw [List.eraseIdx_cons_succ, total_cons, total_cons]
      omega

theorem total_eq_zero {f : α → Nat} {l : List α} (h : ∀ a ∈ l, f a = 0) : total f l = 0 := by
  induction l with
  | nil => rfl
  | cons a l ih =>
    rw [total_cons, h a List.mem_cons_self, ih fun b hb => h b (List.mem_cons_of_mem a hb)]

/-- One member counts alone. -/
theorem total_single (f : α → Nat) {l : List α} (hnodup : l.Nodup) {a : α} (ha : a ∈ l)
    (h : ∀ b ∈ l, b ≠ a → f b = 0) : total f l = f a := by
  obtain ⟨before, after, rfl⟩ := List.append_of_mem ha
  rw [List.nodup_middle, List.nodup_cons, List.mem_append, not_or] at hnodup
  obtain ⟨⟨hbefore, hafter⟩, -⟩ := hnodup
  have hl := total_eq_zero (l := before)
    fun b hb => h b (by simp [hb]) fun hba => hbefore (hba ▸ hb)
  have hr := total_eq_zero (l := after) fun b hb => h b (by simp [hb]) fun hba => hafter (hba ▸ hb)
  rw [total_append, total_cons, hl, hr]
  omega

/-- One member at least is left out. -/
theorem total_filter_add (f : α → Nat) {p : α → Bool} {l : List α} {a : α} (ha : a ∈ l)
    (hp : p a = false) : total f (l.filter p) + f a ≤ total f l := by
  obtain ⟨before, after, rfl⟩ := List.append_of_mem ha
  have hbefore := total_sublist f (List.filter_sublist (p := p) (l := before))
  have hafter := total_sublist f (List.filter_sublist (p := p) (l := after))
  rw [List.filter_append, List.filter_cons_of_neg (by simp [hp]), total_append, total_append,
    total_cons]
  omega

/-- Where `f` says only whether `p`, it counts. -/
theorem total_countP (p : α → Bool) (k : Nat) (l : List α) :
    total (fun a => if p a then k else 0) l = k * l.countP p := by
  induction l with
  | nil => rfl
  | cons a l ih =>
    rw [total_cons, ih, List.countP_cons]
    cases p a with
    | true =>
      simp only [if_true, Nat.mul_add]
      omega
    | false => simp

theorem total_add (f g : α → Nat) (l : List α) :
    total (fun a => f a + g a) l = total f l + total g l := by
  induction l with
  | nil => rfl
  | cons a l ih =>
    rw [total_cons, total_cons, total_cons, ih]
    omega

theorem total_le {f g : α → Nat} {l : List α} (h : ∀ a ∈ l, f a ≤ g a) :
    total f l ≤ total g l := by
  induction l with
  | nil => exact Nat.le_refl _
  | cons a l ih =>
    have ha := h a List.mem_cons_self
    have hl := ih fun b hb => h b (List.mem_cons_of_mem a hb)
    rw [total_cons, total_cons]
    omega

theorem total_map {β : Type*} (f : β → Nat) (g : α → β) (l : List α) :
    total f (l.map g) = total (fun a => f (g a)) l := by
  induction l with
  | nil => rfl
  | cons a l ih => rw [List.map_cons, total_cons, total_cons, ih]

/-- Counted by the keys that its members have, a list is counted once. -/
theorem total_countP_keys {κ : Type*} [DecidableEq κ] (f : α → Option κ) {keys : List κ}
    (hnodup : keys.Nodup) {l : List α} (hkeys : ∀ a ∈ l, ∀ k, f a = some k → k ∈ keys) :
    total (fun k => l.countP fun a => f a = some k) keys + (l.countP fun a => f a = none) =
      l.length := by
  induction l with
  | nil => simp [total_eq_zero]
  | cons a l ih =>
    have hl := ih fun b hb => hkeys b (List.mem_cons_of_mem a hb)
    simp only [List.countP_cons, decide_eq_true_eq, total_add, List.length_cons]
    cases hf : f a with
    | none =>
      have hzero : total (fun k => if (none : Option κ) = some k then 1 else 0) keys = 0 :=
        total_eq_zero fun k _ => if_neg (by simp)
      rw [hzero, if_pos rfl]
      omega
    | some k =>
      have hone : total (fun k' => if some k = some k' then 1 else 0) keys = 1 := by
        rw [total_single _ hnodup (hkeys a List.mem_cons_self k hf), if_pos rfl]
        intro k' _ hne
        exact if_neg fun h => hne (Option.some.inj h).symm
      rw [hone, if_neg (by simp)]
      omega

end SchedulingService
