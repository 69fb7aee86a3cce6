import Mathlib.Data.List.Nodup
import Mathlib.Data.List.Perm.Subperm

/-!
# Tables with a primary key

A table is a list of rows no two of which share a key. The order of the list is
the storage order and means nothing; it only decides which row a query without
a key predicate happens to answer.

* `get_eq_some` — reading by key answers the row with that key, if any;
* `get_put`, `get_insert` — what a write by key does to every later read.
-/

namespace SchedulingService

/-- Rows `ρ` keyed by `key`. -/
structure Keyed {ρ κ : Type*} (key : ρ → κ) where
  rows : List ρ
  nodup : (rows.map key).Nodup

namespace Keyed

variable {ρ κ : Type*} {key : ρ → κ} [DecidableEq κ]

omit [DecidableEq κ] in
/-- A key belongs to one row. -/
theorem eq_of_key_eq (t : Keyed key) {q r : ρ} (hq : q ∈ t.rows) (hr : r ∈ t.rows)
    (h : key q = key r) : q = r :=
  List.inj_on_of_nodup_map t.nodup hq hr h

/-! ## Reading -/

/-- The row with key `i`. -/
def get (t : Keyed key) (i : κ) : Option ρ := t.rows.find? fun r => key r = i

theorem get_eq_some {t : Keyed key} {i : κ} {r : ρ} :
    t.get i = some r ↔ r ∈ t.rows ∧ key r = i := by
  constructor
  · intro h
    exact ⟨List.mem_of_find?_eq_some h, by simpa using List.find?_some h⟩
  · rintro ⟨hr, rfl⟩
    cases h : t.get (key r) with
    | none =>
      have := List.find?_eq_none.mp h r hr
      simp at this
    | some q =>
      have hq := List.mem_of_find?_eq_some h
      have hkey : key q = key r := by simpa using List.find?_some h
      rw [t.eq_of_key_eq hq hr hkey]

theorem key_of_get {t : Keyed key} {i : κ} {r : ρ} (h : t.get i = some r) : key r = i :=
  (get_eq_some.mp h).2

theorem get_eq_none {t : Keyed key} {i : κ} :
    t.get i = none ↔ ∀ r ∈ t.rows, key r ≠ i := by
  simp [get]

/-! ## Writing -/

/-- The rows with `r` in place of the row that has its key. -/
def replace (rows : List ρ) (key : ρ → κ) (r : ρ) : List ρ :=
  rows.map fun q => if key q = key r then r else q

theorem map_key_replace (rows : List ρ) (r : ρ) :
    (replace rows key r).map key = rows.map key := by
  rw [replace, List.map_map]
  refine List.map_congr_left fun q _ => ?_
  by_cases h : key q = key r
  · simp [h]
  · simp [h]

/-- Overwrite by primary key. -/
def put (t : Keyed key) (r : ρ) : Keyed key where
  rows := replace t.rows key r
  nodup := by
    rw [map_key_replace]
    exact t.nodup

/-- A new row, if its key is not taken. -/
def insert (t : Keyed key) (r : ρ) : Option (Keyed key) :=
  if h : key r ∉ t.rows.map key then
    some { rows := r :: t.rows, nodup := List.nodup_cons.mpr ⟨h, t.nodup⟩ }
  else none

theorem get_put (t : Keyed key) (r : ρ) (i : κ) :
    (t.put r).get i = (t.get i).map fun q => if i = key r then r else q := by
  unfold get put replace
  rw [List.find?_map]
  -- the replaced row has the same key, so both searches stop at the same place
  have hpred : ((fun q => decide (key q = i)) ∘ fun q => if key q = key r then r else q) =
      fun q => decide (key q = i) := by
    funext q
    by_cases h : key q = key r <;> simp [h]
  rw [hpred]
  cases h : t.rows.find? (fun q => decide (key q = i)) with
  | none => rfl
  | some q =>
    have hkey : key q = i := by simpa using List.find?_some h
    simp [hkey]

theorem get_put_self {t : Keyed key} {r q : ρ} (h : t.get (key r) = some q) :
    (t.put r).get (key r) = some r := by
  simp [get_put, h]

theorem get_put_of_ne (t : Keyed key) {r : ρ} {i : κ} (h : i ≠ key r) :
    (t.put r).get i = t.get i := by
  simp [get_put, h]

theorem rows_insert {t t' : Keyed key} {r : ρ} (h : t.insert r = some t') :
    t'.rows = r :: t.rows := by
  unfold insert at h
  split at h
  · rw [← Option.some.inj h]
  · cases h

/-- A successful insert adds one row and leaves the others. -/
theorem get_insert {t t' : Keyed key} {r : ρ} (h : t.insert r = some t') (i : κ) :
    t.get (key r) = none ∧ t'.get i = if i = key r then some r else t.get i := by
  unfold insert at h
  split at h
  · rename_i hfresh
    obtain rfl := Option.some.inj h
    refine ⟨get_eq_none.mpr fun q hq hkey => hfresh (List.mem_map.mpr ⟨q, hq, hkey⟩), ?_⟩
    by_cases hi : i = key r
    · subst hi
      simp [get]
    · have hi' : key r ≠ i := fun h => hi h.symm
      simp [get, hi, hi']
  · exact absurd h (by simp)

/-! ## Counting -/

omit [DecidableEq κ] in
/-- A table in which every row of another still counts counts no fewer. -/
theorem countP_le {ρ' : Type*} {key' : ρ' → κ} {t : Keyed key} {t' : Keyed key'} {p : ρ → Bool}
    {p' : ρ' → Bool}
    (h : ∀ r ∈ t.rows, p r = true → ∃ r' ∈ t'.rows, key' r' = key r ∧ p' r' = true) :
    t.rows.countP p ≤ t'.rows.countP p' := by
  rw [List.countP_eq_length_filter, List.countP_eq_length_filter,
    ← List.length_map (f := key), ← List.length_map (f := key')]
  have hnodup : ((t.rows.filter p).map key).Nodup :=
    t.nodup.sublist (List.filter_sublist.map key)
  refine (hnodup.subperm fun i hi => ?_).length_le
  obtain ⟨r, hr, rfl⟩ := List.mem_map.mp hi
  obtain ⟨hmem, hp⟩ := List.mem_filter.mp hr
  obtain ⟨r', hr', hkey, hp'⟩ := h r hmem hp
  exact List.mem_map.mpr ⟨r', List.mem_filter.mpr ⟨hr', hp'⟩, hkey⟩

end Keyed

end SchedulingService
