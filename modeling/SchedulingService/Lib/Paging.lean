import Mathlib.Data.List.Sort
import Mathlib.Logic.Equiv.Basic
import Mathlib.Order.Bounds.Basic

/-!
# Reading a set page by page

The elements of `xs` are read in pages of `L`, each page out of an answer of its
own that is sorted by a key, the largest first. Answers may differ in how they
order elements with the same key.

Main results:

* `map_pages` — the keys read are the same whatever the answers are, and in order;
* `pages_perm_iff` — exactly when the elements read are those of `xs`, whatever the
  answers are.
-/

namespace SchedulingService.Paging

variable {α β : Type*} [LinearOrder β]

/-- The elements sorted by key, the largest first. -/
structure Answer (key : α → β) (xs order : List α) : Prop where
  perm : order.Perm xs
  sorted : order.Pairwise fun a b => key b ≤ key a

/-- Page `i` of an answer. -/
def page (L i : Nat) (order : List α) : List α := (order.drop (i * L)).take L

/-- The first `k` pages, page `i` of answer `i`. -/
def pages (L : Nat) (orders : Nat → List α) (k : Nat) : List α :=
  (List.range k).flatMap fun i => page L i (orders i)

/-- The elements with one key come to stand on both sides of position `m`: fewer
than `m` are before them and more than `m` are not after them. -/
def Straddles (key : α → β) (xs : List α) (m : Nat) : Prop :=
  ∃ e ∈ xs, (xs.countP fun a => key e < key a) < m ∧ m < xs.countP fun a => key e ≤ key a

/-! ## Pages -/

section Pages

variable {L k : Nat} {orders : Nat → List α} {order : List α}

@[simp] theorem pages_zero : pages L orders 0 = [] := rfl

theorem pages_succ : pages L orders (k + 1) = pages L orders k ++ page L k (orders k) := by
  simp [pages, List.range_succ]

/-- One page more. -/
theorem take_append_page (order : List α) :
    order.take (k * L) ++ page L k order = order.take ((k + 1) * L) := by
  rw [page, Nat.succ_mul, List.take_add]

/-- All pages of one answer are its beginning. -/
theorem pages_eq_take (h : ∀ i < k, orders i = order) : pages L orders k = order.take (k * L) := by
  induction k with
  | zero => simp
  | succ k ih =>
    rw [pages_succ, ih fun i hi => h i (by omega), h k (by omega), take_append_page]

theorem page_map {γ : Type*} (f : α → γ) (i : Nat) :
    page L i (order.map f) = (page L i order).map f := by
  simp [page, List.map_take, List.map_drop]

theorem pages_map {γ : Type*} (f : α → γ) :
    (pages L orders k).map f = pages L (fun i => (orders i).map f) k := by
  simp [pages, page_map, List.map_flatMap]

theorem page_eq_nil_iff (hL : 1 ≤ L) {i : Nat} : page L i order = [] ↔ order.length ≤ i * L := by
  rw [page, List.take_eq_nil_iff, List.drop_eq_nil_iff]
  omega

end Pages

section Answers

variable {key : α → β} {xs order : List α} {m : Nat}

/-- What is in front has no smaller key. -/
theorem Answer.le_of_split (h : Answer key xs order) (m : Nat) :
    ∀ a ∈ order.take m, ∀ b ∈ order.drop m, key b ≤ key a := by
  have hsorted := h.sorted
  rw [← List.take_append_drop m order, List.pairwise_append] at hsorted
  exact hsorted.2.2

theorem Answer.countP_eq (h : Answer key xs order) (p : α → Bool) :
    xs.countP p = (order.take m).countP p + (order.drop m).countP p := by
  rw [← List.countP_append, List.take_append_drop, h.perm.countP_eq]

theorem length_take_of_mem_drop {b : α} (hb : b ∈ order.drop m) : (order.take m).length = m := by
  have hlt : 0 < (order.drop m).length := List.length_pos_of_mem hb
  rw [List.length_drop] at hlt
  rw [List.length_take]
  omega

omit [LinearOrder β] in
theorem countP_lt_length {p : α → Bool} {l : List α} {a : α} (ha : a ∈ l) (hp : ¬ p a = true) :
    l.countP p < l.length := by
  have hle : l.countP p ≤ l.length := List.countP_le_length
  have hne : l.countP p ≠ l.length := fun heq => hp (List.countP_eq_length.mp heq a ha)
  omega

/-- Fewer than `m` stand before an element in front of position `m`. -/
theorem Answer.countP_lt (h : Answer key xs order) {a : α} (ha : a ∈ order.take m) :
    (xs.countP fun x => key a < key x) < m := by
  rw [h.countP_eq (m := m)]
  have hzero : (order.drop m).countP (fun x => decide (key a < key x)) = 0 :=
    List.countP_eq_zero.mpr fun x hx => by simpa using h.le_of_split m a ha x hx
  have hless : (order.take m).countP (fun x => decide (key a < key x)) <
      (order.take m).length := countP_lt_length ha (by simp)
  have htake : (order.take m).length ≤ m := List.length_take_le m order
  omega

/-- What holds of everything in front of a position is counted there in full. -/
theorem Answer.countP_eq_add (h : Answer key xs order) {p : α → Bool} {b : α}
    (hb : b ∈ order.drop m) (hall : ∀ a ∈ order.take m, p a = true) :
    xs.countP p = m + (order.drop m).countP p := by
  rw [h.countP_eq (m := m), List.countP_eq_length.mpr hall, length_take_of_mem_drop hb]

/-- **Ties across a position**: what holds of one answer holds of each of them. -/
theorem Answer.straddles_iff (h : Answer key xs order) :
    Straddles key xs m ↔ ∃ a ∈ order.take m, ∃ b ∈ order.drop m, key a = key b := by
  constructor
  · rintro ⟨e, -, hbefore, hnotAfter⟩
    -- more than `m` are not after `e`, so one of them stands behind the position
    obtain ⟨b, hb, hle⟩ : ∃ b ∈ order.drop m, key e ≤ key b := by
      by_contra hnone
      push Not at hnone
      have hzero : (order.drop m).countP (fun a => decide (key e ≤ key a)) = 0 :=
        List.countP_eq_zero.mpr fun b hb => by simpa using hnone b hb
      have hfront := List.countP_le_length (p := fun a => decide (key e ≤ key a))
        (l := order.take m)
      have htake : (order.take m).length ≤ m := List.length_take_le m order
      rw [h.countP_eq (m := m)] at hnotAfter
      omega
    -- fewer than `m` are before `e`, so not all in front of the position are
    obtain ⟨a, ha, hle'⟩ : ∃ a ∈ order.take m, key a ≤ key e := by
      by_contra hnone
      push Not at hnone
      rw [h.countP_eq_add hb fun a ha => decide_eq_true (hnone a ha)] at hbefore
      omega
    have hba : key b ≤ key a := h.le_of_split m a ha b hb
    exact ⟨a, ha, b, hb, le_antisymm (hle'.trans hle) hba⟩
  · rintro ⟨a, ha, b, hb, heq⟩
    refine ⟨a, h.perm.mem_iff.mp (List.mem_of_mem_take ha), h.countP_lt ha, ?_⟩
    have hall : ∀ x ∈ order.take m, decide (key a ≤ key x) = true := by
      intro x hx
      rw [heq]
      simpa using h.le_of_split m x hx b hb
    have hmore : 0 < (order.drop m).countP (fun x => decide (key a ≤ key x)) :=
      List.countP_pos_iff.mpr ⟨b, hb, by simp [heq]⟩
    rw [h.countP_eq_add hb hall]
    omega

/-- Without ties across it, the elements in front of a position are the ones with
fewer than that many before them. -/
theorem Answer.take_eq_filter (h : Answer key xs order) (hm : ¬ Straddles key xs m) :
    order.take m = order.filter fun e => xs.countP (fun a => key e < key a) < m := by
  have hfront : ∀ e ∈ order.take m, decide (xs.countP (fun a => key e < key a) < m) = true :=
    fun e he => decide_eq_true (h.countP_lt he)
  have hback : ∀ e ∈ order.drop m, ¬ decide (xs.countP (fun a => key e < key a) < m) = true := by
    intro e he
    -- everything in front has a larger key
    have hall : ∀ x ∈ order.take m, decide (key e < key x) = true := by
      intro x hx
      have hle : key e ≤ key x := h.le_of_split m x hx e he
      have hne : key x ≠ key e := fun heq => hm (h.straddles_iff.mpr ⟨x, hx, e, he, heq⟩)
      simpa using lt_of_le_of_ne hle hne.symm
    rw [decide_eq_true_eq, h.countP_eq_add he hall]
    omega
  conv_rhs => rw [← List.take_append_drop m order]
  rw [List.filter_append, List.filter_eq_self.mpr hfront, List.filter_eq_nil_iff.mpr hback,
    List.append_nil]

/-- Then all answers have the same elements in front of it. -/
theorem Answer.take_perm {order' : List α} (h : Answer key xs order) (h' : Answer key xs order')
    (hm : ¬ Straddles key xs m) : (order.take m).Perm (order'.take m) := by
  rw [h.take_eq_filter hm, h'.take_eq_filter hm]
  exact (h.perm.trans h'.perm.symm).filter _

/-- All answers have the same keys. -/
theorem Answer.map_eq {order' : List α} (h : Answer key xs order) (h' : Answer key xs order') :
    order.map key = order'.map key := by
  have hperm : (order.map key).Perm (order'.map key) := (h.perm.trans h'.perm.symm).map key
  have hsorted : (order.map key).Pairwise fun a b => b ≤ a := List.pairwise_map.mpr h.sorted
  have hsorted' : (order'.map key).Pairwise fun a b => b ≤ a := List.pairwise_map.mpr h'.sorted
  exact hperm.eq_of_pairwise (fun a b _ _ hba hab => le_antisymm hab hba) hsorted hsorted'

theorem exists_answer (key : α → β) (xs : List α) : ∃ order, Answer key xs order := by
  have htotal : ∀ a b : α, (decide (key b ≤ key a) || decide (key a ≤ key b)) = true := by
    intro a b
    simpa using le_total (key b) (key a)
  have htrans : ∀ a b c : α, decide (key b ≤ key a) = true → decide (key c ≤ key b) = true →
      decide (key c ≤ key a) = true := by
    intro a b c hab hbc
    simp only [decide_eq_true_eq] at hab hbc ⊢
    exact hbc.trans hab
  refine ⟨xs.mergeSort fun a b => decide (key b ≤ key a), List.mergeSort_perm _ _, ?_⟩
  exact (List.pairwise_mergeSort htrans htotal xs).imp fun h => by simpa using h

end Answers

/-! ## Reading to the end -/

section Reading

variable {key : α → β} {xs order : List α} {orders : Nat → List α} {L k : Nat}

/-- **The keys read** do not depend on the answers. -/
theorem map_pages (h : ∀ i, Answer key xs (orders i)) (horder : Answer key xs order) :
    (pages L orders k).map key = (order.map key).take (k * L) := by
  rw [pages_map]
  exact pages_eq_take fun i _ => (h i).map_eq horder

theorem pages_sorted (h : ∀ i, Answer key xs (orders i)) :
    (pages L orders k).Pairwise fun a b => key b ≤ key a := by
  have hkeys := map_pages (L := L) (k := k) h (h 0)
  have hsorted : ((orders 0).map key).Pairwise fun a b => b ≤ a :=
    List.pairwise_map.mpr (h 0).sorted
  have hread : ((pages L orders k).map key).Pairwise fun a b => b ≤ a := by
    rw [hkeys]
    exact hsorted.sublist (List.take_sublist _ _)
  exact List.pairwise_map.mp hread

/-- The first empty page is the first one beyond the end. -/
theorem isLeast_empty_iff (hL : 1 ≤ L) (h : ∀ i, Answer key xs (orders i)) :
    IsLeast {i | page L i (orders i) = []} k ↔ IsLeast {i | xs.length ≤ i * L} k := by
  have hset : {i | page L i (orders i) = []} = {i | xs.length ≤ i * L} := by
    ext i
    exact (page_eq_nil_iff hL).trans (by rw [(h i).perm.length_eq]; rfl)
  rw [hset]

/-- Without ties across page boundaries the pages read are the beginning of an
answer, but for the order of ties. -/
theorem pages_perm_take (h : ∀ i, Answer key xs (orders i)) (horder : Answer key xs order)
    (hties : ∀ i, ¬ Straddles key xs (i * L)) :
    (pages L orders k).Perm (order.take (k * L)) := by
  induction k generalizing order with
  | zero => simp
  | succ k ih =>
    rw [pages_succ]
    have hpages : (pages L orders k ++ page L k (orders k)).Perm
        ((orders k).take (k * L) ++ page L k (orders k)) := (ih (h k)).append_right _
    rw [take_append_page] at hpages
    exact hpages.trans ((h k).take_perm horder (hties (k + 1)))

/-- Two answers, the second one from page `i` on. -/
theorem pages_of_change {order' : List α} {i : Nat} (hi : i * L ≤ order'.length) (hk : i ≤ k)
    (hbefore : ∀ j < i, orders j = order) (hafter : ∀ j, i ≤ j → orders j = order') :
    pages L orders k = order.take (i * L) ++ (order'.take (k * L)).drop (i * L) := by
  induction k, hk using Nat.le_induction with
  | base =>
    rw [pages_eq_take hbefore, List.drop_eq_nil_of_le (List.length_take_le _ _), List.append_nil]
  | succ k hik ih =>
    have hle : i * L ≤ (order'.take (k * L)).length := by
      have hmul : i * L ≤ k * L := Nat.mul_le_mul_right L hik
      rw [List.length_take]
      omega
    rw [pages_succ, ih, hafter k hik, List.append_assoc, ← List.drop_append_of_le_length hle,
      take_append_page]

open Classical in
omit [LinearOrder β] in
theorem key_swap {a b : α} (hkey : key a = key b) (x : α) : key (Equiv.swap a b x) = key x := by
  rw [Equiv.swap_apply_def]
  split
  · rename_i hx
    rw [hx, hkey]
  · split
    · rename_i hx
      rw [hx, hkey]
    · rfl

open Classical in
/-- Two elements with one key may change places. -/
theorem Answer.swap (h : Answer key xs order) (hxs : xs.Nodup) {a b : α} (ha : a ∈ order)
    (hb : b ∈ order) (hkey : key a = key b) : Answer key xs (order.map (Equiv.swap a b)) := by
  have hnodup : order.Nodup := h.perm.nodup_iff.mpr hxs
  have hmem : ∀ x, x ∈ order → Equiv.swap a b x ∈ order := by
    intro x hx
    rw [Equiv.swap_apply_def]
    split
    · exact hb
    · split
      · exact ha
      · exact hx
  have hperm : (order.map (Equiv.swap a b)).Perm order := by
    rw [List.perm_ext_iff_of_nodup (hnodup.map (Equiv.swap a b).injective) hnodup]
    intro x
    rw [List.mem_map]
    constructor
    · rintro ⟨y, hy, rfl⟩
      exact hmem y hy
    · intro hx
      exact ⟨Equiv.swap a b x, hmem x hx, Equiv.swap_apply_self a b x⟩
  -- the keys have stayed where they were
  refine ⟨hperm.trans h.perm, List.pairwise_map.mpr ?_⟩
  exact h.sorted.imp fun hle => by rwa [key_swap hkey, key_swap hkey]

/-- With ties across a page boundary some element may be read twice. -/
theorem exists_pages_not_nodup (hxs : xs.Nodup) {i : Nat} (hstraddles : Straddles key xs (i * L)) :
    ∃ orders : Nat → List α, (∀ j, Answer key xs (orders j)) ∧
      ∀ k, xs.length ≤ k * L → ¬ (pages L orders k).Nodup := by
  classical
  obtain ⟨order, h⟩ := exists_answer key xs
  obtain ⟨a, ha, b, hb, hkey⟩ := h.straddles_iff.mp hstraddles
  have hswap := h.swap hxs (List.mem_of_mem_take ha) (List.mem_of_mem_drop hb) hkey
  have hlength : i * L < order.length := by
    have hpos := List.length_pos_of_mem hb
    rw [List.length_drop] at hpos
    omega
  -- from page `i` on the two have changed places
  refine ⟨fun j => if j < i then order else order.map (Equiv.swap a b), fun j => ?_, fun k hk => ?_⟩
  · show Answer key xs (if j < i then order else order.map (Equiv.swap a b))
    split
    · exact h
    · exact hswap
  · rw [← h.perm.length_eq] at hk
    have hik : i ≤ k := by
      by_contra hlt
      have hmul : k * L ≤ i * L := Nat.mul_le_mul_right L (by omega)
      omega
    have hall : (order.map (Equiv.swap a b)).take (k * L) = order.map (Equiv.swap a b) :=
      List.take_of_length_le (by rwa [List.length_map])
    have hread : pages L (fun j => if j < i then order else order.map (Equiv.swap a b)) k =
        order.take (i * L) ++ (order.map (Equiv.swap a b)).drop (i * L) := by
      rw [pages_of_change (by rw [List.length_map]; exact hlength.le) hik (fun j hj => if_pos hj)
        (fun j hj => if_neg (by omega)), hall]
    rw [hread]
    intro hnodup
    -- `a` is in front of the boundary before the change and behind it after
    have hagain : a ∈ (order.map (Equiv.swap a b)).drop (i * L) := by
      rw [← List.map_drop, List.mem_map]
      exact ⟨b, hb, Equiv.swap_apply_right a b⟩
    exact List.disjoint_of_nodup_append hnodup ha hagain

/-- **Reading to the first empty page** gives every element once, whatever the answers
are, exactly if no ties stand across a page boundary. -/
theorem pages_perm_iff (hL : 1 ≤ L) (hxs : xs.Nodup) :
    (∀ orders : Nat → List α, (∀ i, Answer key xs (orders i)) →
      ∃ k, IsLeast {i | page L i (orders i) = []} k ∧ (pages L orders k).Perm xs) ↔
        ∀ i, ¬ Straddles key xs (i * L) := by
  constructor
  · -- some choice of answers has an element twice
    intro h i hstraddles
    obtain ⟨orders, horders, htwice⟩ := exists_pages_not_nodup hxs hstraddles
    obtain ⟨k, hleast, hperm⟩ := h orders horders
    exact htwice k ((isLeast_empty_iff hL horders).mp hleast).1 (hperm.nodup_iff.mpr hxs)
  · intro hties orders horders
    have hexists : ∃ k, xs.length ≤ k * L := ⟨xs.length, Nat.le_mul_of_pos_right _ hL⟩
    have hleast : IsLeast {i | xs.length ≤ i * L} (Nat.find hexists) :=
      ⟨Nat.find_spec hexists, fun i hi => Nat.find_min' hexists hi⟩
    refine ⟨Nat.find hexists, (isLeast_empty_iff hL horders).mpr hleast, ?_⟩
    have hread := pages_perm_take (k := Nat.find hexists) horders (horders 0) hties
    rw [List.take_of_length_le (by rw [(horders 0).perm.length_eq]; exact hleast.1)] at hread
    exact hread.trans (horders 0).perm

end Reading

/-! ## Pages of a set that grows -/

section Growing

variable {key : α → β} {L k : Nat}

/-- What is not in front of a position has as many of a larger key before it. -/
theorem Answer.le_countP {xs order : List α} (h : Answer key xs order) (hxs : xs.Nodup) {a : α}
    {m : Nat} (halone : ∀ x ∈ xs, key x = key a → x = a) (ha : a ∈ order.drop m) :
    m ≤ xs.countP fun x => key a < key x := by
  have hnodup : (order.take m ++ order.drop m).Nodup := by
    rw [List.take_append_drop]
    exact h.perm.nodup_iff.mpr hxs
  have hlarger : ∀ x ∈ order.take m, decide (key a < key x) = true := by
    intro x hx
    have hle := h.le_of_split m x hx a ha
    have hne : key x ≠ key a := by
      intro hkey
      obtain rfl := halone x (h.perm.mem_iff.mp (List.mem_of_mem_take hx)) hkey
      exact (List.nodup_append.mp hnodup).2.2 x hx x ha rfl
    exact decide_eq_true (lt_of_le_of_ne hle hne.symm)
  rw [h.countP_eq_add ha hlarger]
  omega

/-- Each page is read from an answer of its own, of a set that elements are added to.
What stays in it, under a key of its own, is on some page before the first empty one:
the additions can only push it on to the pages still to be read. -/
theorem mem_page_of_growing (hL : 1 ≤ L) {xs orders : Nat → List α} {v : Nat → α}
    (h : ∀ i, Answer key (xs i) (orders i)) (hxs : ∀ i, (xs i).Nodup) (hv : ∀ i, v i ∈ xs i)
    (halone : ∀ i < k, ∀ x ∈ xs i, key x = key (v i) → x = v i)
    (hgrows : ∀ i, ((xs i).countP fun x => key (v i) < key x) ≤
      (xs (i + 1)).countP fun x => key (v (i + 1)) < key x)
    (hempty : page L k (orders k) = []) : ∃ i < k, v i ∈ page L i (orders i) := by
  by_contra hmissed
  push Not at hmissed
  have horder : ∀ i, v i ∈ orders i := fun i => (h i).perm.mem_iff.mpr (hv i)
  -- on no page so far, it has come to stand behind all of them
  have hbehind : ∀ i ≤ k, i * L ≤ (xs i).countP fun x => key (v i) < key x := by
    intro i
    induction i with
    | zero => intro _; omega
    | succ i ih =>
      intro hi
      have hstands := ih (by omega)
      have hdrop : v i ∈ (orders i).drop (i * L) := by
        have hsplit := horder i
        rw [← List.take_append_drop (i * L) (orders i), List.mem_append] at hsplit
        rcases hsplit with hfront | hback
        · have hlt := (h i).countP_lt hfront
          omega
        · exact hback
      have hnext : v i ∈ (orders i).drop ((i + 1) * L) := by
        rw [← List.take_append_drop L ((orders i).drop (i * L)), List.mem_append,
          List.drop_drop] at hdrop
        rcases hdrop with hpage | hback
        · exact absurd hpage (hmissed i (by omega))
        · rw [Nat.succ_mul]
          exact hback
      exact le_trans ((h i).le_countP (hxs i) (halone i (by omega)) hnext) (hgrows i)
  -- but nothing stands behind the page that came out empty
  have hend : (orders k).length ≤ k * L := (page_eq_nil_iff hL).mp hempty
  have hfront : v k ∈ (orders k).take (k * L) := by
    rw [List.take_of_length_le hend]
    exact horder k
  have hlt := (h k).countP_lt hfront
  have hle := hbehind k le_rfl
  omega

end Growing

end SchedulingService.Paging
