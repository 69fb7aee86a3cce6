import Mathlib.Data.List.Nodup
import Mathlib.Data.Option.Basic
import Mathlib.Logic.Function.Iterate
import SchedulingService.Lib.Transition

/-!
# Relational databases with foreign keys

A database is a list of rows under a schema: which columns are not null and which
refer to other rows, with what becomes of a row when the one it refers to is
deleted. A statement changes the rows or the schema, and the constraints are
checked when it is done; one that they do not allow fails and changes nothing.

Main results:

* `mem_doomed` — the rows a deletion takes with it, computed by rounds, are those
  that a chain of cascades leads to;
* `consistent_survivors_iff` — when the constraints allow a deletion;
* `consistent_afterDelete` — the same where references are set to null.
-/

namespace SchedulingService.Lib.Relational

/-- What a foreign key does to the referring row when the row it refers to is
deleted. -/
inductive Action
  | noAction
  | cascade
  | setNull
  deriving DecidableEq

structure ForeignKey (γ : Type*) where
  name : String
  column : γ
  onDelete : Action
  deriving DecidableEq

/-- How rows hold their keys and those they refer to. A column that a row does not
have is not null in it and refers to nothing. -/
structure Layout (ρ κ γ : Type*) where
  key : ρ → κ
  ref : γ → ρ → Option κ
  isNull : γ → ρ → Bool
  clear : γ → ρ → ρ

structure Schema (γ : Type*) where
  foreignKeys : List (ForeignKey γ)
  notNull : List γ

inductive Statement (ρ γ : Type*)
  | insert (r : ρ)
  | update (p : ρ → Bool) (f : ρ → ρ)
  | delete (p : ρ → Bool)
  | dropConstraint (name : String)
  | addForeignKey (fk : ForeignKey γ)
  | dropNotNull (c : γ)
  | setNotNull (c : γ)

/-- The statement leaves the schema alone. -/
def Statement.isData {ρ γ : Type*} : Statement ρ γ → Bool
  | .insert _ | .update _ _ | .delete _ => true
  | _ => false

/-- Clearing a column takes its reference away and changes nothing else. -/
structure Layout.Lawful {ρ κ γ : Type*} (L : Layout ρ κ γ) : Prop where
  key_clear : ∀ c r, L.key (L.clear c r) = L.key r
  ref_clear_self : ∀ c r, L.ref c (L.clear c r) = none
  ref_clear : ∀ c c' r, c' ≠ c → L.ref c' (L.clear c r) = L.ref c' r
  isNull_clear : ∀ c c' r, c' ≠ c → L.isNull c' (L.clear c r) = L.isNull c' r

section Layout

variable {ρ κ γ : Type*} (L : Layout ρ κ γ) (S : Schema γ) (rows : List ρ)

/-- The constraints hold. -/
structure Consistent : Prop where
  unique : (rows.map L.key).Nodup
  notNull : ∀ c ∈ S.notNull, ∀ r ∈ rows, L.isNull c r = false
  references : ∀ fk ∈ S.foreignKeys, ∀ r ∈ rows, ∀ k, L.ref fk.column r = some k →
    k ∈ rows.map L.key

/-- What a deletion of the rows that satisfy `p` takes away: these rows, and those
that refer by a cascade to what it takes away. -/
inductive Doomed (fks : List (ForeignKey γ)) (p : ρ → Bool) : κ → Prop
  | seed {r : ρ} : r ∈ rows → p r = true → Doomed fks p (L.key r)
  | cascade {r : ρ} {fk : ForeignKey γ} {k : κ} : r ∈ rows → fk ∈ fks →
      fk.onDelete = .cascade → L.ref fk.column r = some k → Doomed fks p k →
      Doomed fks p (L.key r)

variable {L S rows} in
theorem Consistent.eq_of_key (h : Consistent L S rows) {r r' : ρ} (hr : r ∈ rows)
    (hr' : r' ∈ rows) (hkey : L.key r = L.key r') : r = r' :=
  List.inj_on_of_nodup_map h.unique hr hr' hkey

variable [DecidableEq κ]

/-- `Consistent`, as a check. -/
def check : Bool :=
  decide (rows.map L.key).Nodup &&
    (S.notNull.all fun c => rows.all fun r => !L.isNull c r) &&
    S.foreignKeys.all fun fk => rows.all fun r =>
      (L.ref fk.column r).all fun k => decide (k ∈ rows.map L.key)

theorem check_iff : check L S rows = true ↔ Consistent L S rows := by
  simp only [check, Bool.and_eq_true, decide_eq_true_eq, List.all_eq_true,
    Bool.not_eq_true', Option.all_eq_true]
  constructor
  · rintro ⟨⟨hunique, hnotNull⟩, hrefs⟩
    exact ⟨hunique, hnotNull, hrefs⟩
  · rintro ⟨hunique, hnotNull, hrefs⟩
    exact ⟨⟨hunique, hnotNull⟩, hrefs⟩

/-! ## Deletion -/

/-- Some foreign key with the action refers from the row to one of the keys. -/
def refersBy (action : Action) (fks : List (ForeignKey γ)) (keys : List κ) (r : ρ) : Bool :=
  fks.any fun fk => decide (fk.onDelete = action) &&
    (L.ref fk.column r).any fun k => decide (k ∈ keys)

/-- One round of the cascade. -/
def grow (fks : List (ForeignKey γ)) (keys : List κ) : List κ :=
  (rows.filter fun r => decide (L.key r ∈ keys) || refersBy L .cascade fks keys r).map L.key

/-- The keys of the rows that a deletion takes away. Every round but the last adds a
row, so that there are no more than rows. -/
def doomed (fks : List (ForeignKey γ)) (p : ρ → Bool) : List κ :=
  (grow L rows fks)^[rows.length] ((rows.filter p).map L.key)

/-- The rows that are left, as they were. -/
def survivors (fks : List (ForeignKey γ)) (p : ρ → Bool) : List ρ :=
  rows.filter fun r => !decide (L.key r ∈ doomed L rows fks p)

/-- The row without its references to keys that are gone. -/
def release (fks : List (ForeignKey γ)) (keys : List κ) (r : ρ) : ρ :=
  fks.foldl (fun r fk => if refersBy L .setNull [fk] keys r then L.clear fk.column r else r) r

def afterDelete (fks : List (ForeignKey γ)) (p : ρ → Bool) : List ρ :=
  (survivors L rows fks p).map (release L fks (doomed L rows fks p))

/-! ### The rounds reach what cascades reach -/

variable (fks : List (ForeignKey γ)) (p : ρ → Bool)

/-- The keys after some rounds. -/
abbrev rounds (n : Nat) : List κ := (grow L rows fks)^[n] ((rows.filter p).map L.key)

theorem rounds_succ (n : Nat) :
    rounds L rows fks p (n + 1) = grow L rows fks (rounds L rows fks p n) :=
  Function.iterate_succ_apply' ..

/-- The keys of a round are those of some of the rows. -/
theorem rounds_eq_map_filter (n : Nat) :
    ∃ q : ρ → Bool, rounds L rows fks p n = (rows.filter q).map L.key := by
  cases n with
  | zero => exact ⟨p, rfl⟩
  | succ n => exact ⟨_, rounds_succ L rows fks p n⟩

theorem rounds_sublist (n : Nat) :
    (rounds L rows fks p n).Sublist (rounds L rows fks p (n + 1)) := by
  obtain ⟨q, hq⟩ := rounds_eq_map_filter L rows fks p n
  rw [rounds_succ, grow, hq]
  refine List.Sublist.map _ ?_
  have hkept : ∀ r ∈ rows, q r = true → L.key r ∈ (rows.filter q).map L.key := by
    intro r hr hqr
    exact List.mem_map_of_mem (List.mem_filter.mpr ⟨hr, hqr⟩)
  -- the rows of a round are selected once more in the next
  have hagain : rows.filter q = (rows.filter fun r =>
      decide (L.key r ∈ (rows.filter q).map L.key) ||
        refersBy L .cascade fks ((rows.filter q).map L.key) r).filter q := by
    rw [List.filter_filter]
    apply List.filter_congr
    intro r hr
    cases hqr : q r with
    | false => rfl
    | true => rw [decide_eq_true (hkept r hr hqr), Bool.true_or, Bool.and_true]
  have hsub := List.filter_sublist (p := q) (l := rows.filter fun r =>
    decide (L.key r ∈ (rows.filter q).map L.key) ||
      refersBy L .cascade fks ((rows.filter q).map L.key) r)
  rwa [← hagain] at hsub

theorem rounds_length_le (n : Nat) : (rounds L rows fks p n).length ≤ rows.length := by
  obtain ⟨q, hq⟩ := rounds_eq_map_filter L rows fks p n
  rw [hq, List.length_map]
  exact List.length_filter_le _ _

/-- A round that is not the last adds a row. -/
theorem rounds_stable_or_length (n : Nat) :
    grow L rows fks (rounds L rows fks p n) = rounds L rows fks p n ∨
      n ≤ (rounds L rows fks p n).length := by
  induction n with
  | zero => exact .inr (Nat.zero_le _)
  | succ n ih =>
    by_cases hstable : grow L rows fks (rounds L rows fks p n) = rounds L rows fks p n
    · -- what is stable stays so
      left
      rw [rounds_succ, hstable, hstable]
    · -- a sublist that is not the whole is shorter
      right
      have hsub := rounds_sublist L rows fks p n
      have hlt : (rounds L rows fks p n).length < (rounds L rows fks p (n + 1)).length := by
        refine Nat.lt_of_le_of_ne hsub.length_le fun hlength => hstable ?_
        rw [← rounds_succ]
        exact (hsub.eq_of_length hlength).symm
      have hn : n ≤ (rounds L rows fks p n).length := ih.resolve_left hstable
      omega

/-- One more round takes no further row. -/
theorem grow_doomed : grow L rows fks (doomed L rows fks p) = doomed L rows fks p := by
  have hsub := rounds_sublist L rows fks p rows.length
  rcases rounds_stable_or_length L rows fks p rows.length with hstable | hlength
  · exact hstable
  · -- all rows are gone
    have hbound := rounds_length_le L rows fks p (rows.length + 1)
    have heq := hsub.eq_of_length_le (Nat.le_trans hbound hlength)
    rw [rounds_succ] at heq
    exact heq.symm

variable {L S rows fks p} {keys : List κ} {r : ρ}

theorem refersBy_iff {action : Action} :
    refersBy L action fks keys r = true ↔
      ∃ fk ∈ fks, fk.onDelete = action ∧ ∃ k ∈ keys, L.ref fk.column r = some k := by
  simp only [refersBy, List.any_eq_true, Bool.and_eq_true, decide_eq_true_eq,
    Option.any_eq_true]
  constructor
  · rintro ⟨fk, hfk, haction, k, href, hk⟩
    exact ⟨fk, hfk, haction, k, hk, href⟩
  · rintro ⟨fk, hfk, haction, k, hk, href⟩
    exact ⟨fk, hfk, haction, k, href, hk⟩

theorem mem_grow {k : κ} :
    k ∈ grow L rows fks keys ↔
      ∃ r ∈ rows, L.key r = k ∧ (k ∈ keys ∨ refersBy L .cascade fks keys r = true) := by
  simp only [grow, List.mem_map, List.mem_filter, Bool.or_eq_true, decide_eq_true_eq]
  constructor
  · rintro ⟨r, ⟨hr, hgrown⟩, rfl⟩
    exact ⟨r, hr, rfl, hgrown⟩
  · rintro ⟨r, hr, rfl, hgrown⟩
    exact ⟨r, ⟨hr, hgrown⟩, rfl⟩

theorem doomed_of_mem_rounds (n : Nat) {k : κ} (h : k ∈ rounds L rows fks p n) :
    Doomed L rows fks p k := by
  induction n generalizing k with
  | zero =>
    obtain ⟨r, hr, rfl⟩ := List.mem_map.mp h
    obtain ⟨hrow, hp⟩ := List.mem_filter.mp hr
    exact .seed hrow hp
  | succ n ih =>
    rw [rounds_succ, mem_grow] at h
    obtain ⟨r, hr, rfl, hbefore | hrefers⟩ := h
    · exact ih hbefore
    · obtain ⟨fk, hfk, hcascade, k, hk, href⟩ := refersBy_iff.mp hrefers
      exact .cascade hr hfk hcascade href (ih hk)

theorem mem_rounds_of_seed (n : Nat) (hr : r ∈ rows) (hp : p r = true) :
    L.key r ∈ rounds L rows fks p n := by
  induction n with
  | zero => exact List.mem_map_of_mem (List.mem_filter.mpr ⟨hr, hp⟩)
  | succ n ih => exact (rounds_sublist L rows fks p n).subset ih

/-- **The cascade.** The rounds take away what chains of cascades lead to, and only
that. -/
theorem mem_doomed {k : κ} : k ∈ doomed L rows fks p ↔ Doomed L rows fks p k := by
  constructor
  · exact doomed_of_mem_rounds rows.length
  · intro h
    induction h with
    | seed hr hp => exact mem_rounds_of_seed rows.length hr hp
    | @cascade r fk k hr hfk hcascade href _ ih =>
      -- one round more takes the row, and there is nothing more to take
      have hrefers : refersBy L .cascade fks (doomed L rows fks p) r = true :=
        refersBy_iff.mpr ⟨fk, hfk, hcascade, k, ih, href⟩
      rw [← grow_doomed, mem_grow]
      exact ⟨r, hr, rfl, .inr hrefers⟩

/-! ### What is left -/

theorem mem_survivors :
    r ∈ survivors L rows fks p ↔ r ∈ rows ∧ ¬ Doomed L rows fks p (L.key r) := by
  simp only [survivors, List.mem_filter, Bool.not_eq_true', decide_eq_false_iff_not, mem_doomed]

theorem survivors_sublist : (survivors L rows fks p).Sublist rows :=
  List.filter_sublist

theorem survivors_eq_filter {q : ρ → Bool}
    (hq : ∀ r ∈ rows, L.key r ∈ doomed L rows fks p ↔ q r = true) :
    survivors L rows fks p = rows.filter fun r => !q r := by
  apply List.filter_congr
  intro r hr
  by_cases hgoes : q r = true
  · rw [hgoes, decide_eq_true ((hq r hr).mpr hgoes)]
  · rw [decide_eq_false (mt (hq r hr).mp hgoes), Bool.eq_false_iff.mpr hgoes]

theorem key_mem_survivors {k : κ} :
    k ∈ (survivors L rows fks p).map L.key ↔
      k ∈ rows.map L.key ∧ ¬ Doomed L rows fks p k := by
  simp only [List.mem_map, mem_survivors]
  constructor
  · rintro ⟨r, ⟨hr, hspared⟩, rfl⟩
    exact ⟨⟨r, hr, rfl⟩, hspared⟩
  · rintro ⟨⟨r, hr, rfl⟩, hspared⟩
    exact ⟨r, ⟨hr, hspared⟩, rfl⟩

theorem release_of_no_setNull (h : ∀ fk ∈ fks, fk.onDelete ≠ .setNull) :
    release L fks keys r = r := by
  unfold release
  induction fks with
  | nil => rfl
  | cons fk fks ih =>
    have hkept : refersBy L .setNull [fk] keys r ≠ true := by
      rw [Ne, refersBy_iff]
      rintro ⟨fk', hfk', hsetNull, -⟩
      obtain rfl := List.mem_singleton.mp hfk'
      exact h fk' List.mem_cons_self hsetNull
    rw [List.foldl_cons, if_neg hkept]
    exact ih fun fk' hfk' => h fk' (List.mem_cons_of_mem fk hfk')

theorem release_cons (fk : ForeignKey γ) :
    release L (fk :: fks) keys r =
      release L fks keys (if refersBy L .setNull [fk] keys r then L.clear fk.column r else r) :=
  rfl

theorem release_append (fks' : List (ForeignKey γ)) :
    release L (fks ++ fks') keys r = release L fks' keys (release L fks keys r) :=
  List.foldl_append

theorem key_release (hL : L.Lawful) : L.key (release L fks keys r) = L.key r := by
  induction fks generalizing r with
  | nil => rfl
  | cons fk fks ih =>
    rw [release_cons, ih]
    split
    · exact hL.key_clear fk.column r
    · rfl

/-- A reference that is left was there, and no SET NULL applies to it. -/
theorem ref_release (hL : L.Lawful) {c : γ} {k : κ}
    (h : L.ref c (release L fks keys r) = some k) :
    L.ref c r = some k ∧ ∀ fk ∈ fks, fk.onDelete = .setNull → fk.column = c → k ∉ keys := by
  induction fks generalizing r with
  | nil => exact ⟨h, by simp⟩
  | cons fk fks ih =>
    rw [release_cons] at h
    obtain ⟨hafter, hlater⟩ := ih h
    by_cases hreleased : refersBy L .setNull [fk] keys r = true
    · -- another column is cleared, or the reference would be gone
      rw [if_pos hreleased] at hafter
      have hother : c ≠ fk.column := by
        rintro rfl
        rw [hL.ref_clear_self] at hafter
        exact absurd hafter (by simp)
      rw [hL.ref_clear fk.column c r hother] at hafter
      refine ⟨hafter, fun fk' hfk' hsetNull hcolumn => ?_⟩
      rcases List.mem_cons.mp hfk' with rfl | hfk'
      · exact absurd hcolumn.symm hother
      · exact hlater fk' hfk' hsetNull hcolumn
    · rw [if_neg hreleased] at hafter
      refine ⟨hafter, fun fk' hfk' hsetNull hcolumn hk => ?_⟩
      rcases List.mem_cons.mp hfk' with rfl | hfk'
      · subst hcolumn
        refine hreleased (refersBy_iff.mpr ⟨fk', ?_, hsetNull, k, hk, hafter⟩)
        exact List.mem_singleton_self fk'
      · exact hlater fk' hfk' hsetNull hcolumn hk

theorem isNull_release (hL : L.Lawful) {c : γ}
    (hc : ∀ fk ∈ fks, fk.onDelete = .setNull → fk.column ≠ c) :
    L.isNull c (release L fks keys r) = L.isNull c r := by
  induction fks generalizing r with
  | nil => rfl
  | cons fk fks ih =>
    rw [release_cons, ih fun fk' hfk' => hc fk' (List.mem_cons_of_mem fk hfk')]
    split
    case isTrue hreleased =>
      obtain ⟨fk', hfk', hsetNull, -⟩ := refersBy_iff.mp hreleased
      obtain rfl := List.mem_singleton.mp hfk'
      exact hL.isNull_clear _ c r (hc fk' List.mem_cons_self hsetNull).symm
    case isFalse => rfl

/-- Without a SET NULL the rows that are left are as before. -/
theorem afterDelete_of_no_setNull (h : ∀ fk ∈ fks, fk.onDelete ≠ .setNull) :
    afterDelete L rows fks p = survivors L rows fks p := by
  have hrelease : release L fks (doomed L rows fks p) = id :=
    funext fun _ => release_of_no_setNull h
  rw [afterDelete, hrelease, List.map_id]

/-- What a row that is left refers to is left as well, where no NO ACTION is in the way
and no SET NULL has to step in. -/
theorem ref_mem_survivors (h : Consistent L S rows) {fk : ForeignKey γ}
    (hfk : fk ∈ S.foreignKeys) (hr : r ∈ survivors L rows S.foreignKeys p) {k : κ}
    (href : L.ref fk.column r = some k)
    (hnoAction : fk.onDelete = .noAction → ¬ Doomed L rows S.foreignKeys p k)
    (hsetNull : fk.onDelete = .setNull → ¬ Doomed L rows S.foreignKeys p k) :
    k ∈ (survivors L rows S.foreignKeys p).map L.key := by
  obtain ⟨hrow, hspared⟩ := mem_survivors.mp hr
  refine key_mem_survivors.mpr ⟨h.references fk hfk r hrow k href, ?_⟩
  cases haction : fk.onDelete with
  | noAction => exact hnoAction haction
  | cascade => exact fun hdoomed => hspared (.cascade hrow hfk haction href hdoomed)
  | setNull => exact hsetNull haction

/-- **A deletion.** The constraints allow it exactly if no row that is left refers by
a NO ACTION to one that is not. -/
theorem consistent_survivors_iff (h : Consistent L S rows)
    (hnoSetNull : ∀ fk ∈ S.foreignKeys, fk.onDelete ≠ .setNull) :
    Consistent L S (survivors L rows S.foreignKeys p) ↔
      ∀ fk ∈ S.foreignKeys, fk.onDelete = .noAction → ∀ r ∈ rows,
        ¬ Doomed L rows S.foreignKeys p (L.key r) → ∀ k, L.ref fk.column r = some k →
          ¬ Doomed L rows S.foreignKeys p k := by
  constructor
  · intro hafter fk hfk _ r hr hspared k href
    have hmem : k ∈ (survivors L rows S.foreignKeys p).map L.key :=
      hafter.references fk hfk r (mem_survivors.mpr ⟨hr, hspared⟩) k href
    exact (key_mem_survivors.mp hmem).2
  · intro hblocked
    have hsub : (survivors L rows S.foreignKeys p).Sublist rows := survivors_sublist
    refine ⟨h.unique.sublist (hsub.map L.key), fun c hc r hr => ?_, fun fk hfk r hr k href => ?_⟩
    · exact h.notNull c hc r (hsub.subset hr)
    · obtain ⟨hrow, hspared⟩ := mem_survivors.mp hr
      exact ref_mem_survivors h hfk hr href
        (fun haction => hblocked fk hfk haction r hrow hspared k href)
        (fun haction => absurd haction (hnoSetNull fk hfk))

/-- With a SET NULL on columns that may be null, a deletion that no NO ACTION is in the
way of is allowed. -/
theorem consistent_afterDelete (hL : L.Lawful) (h : Consistent L S rows)
    (hnullable : ∀ fk ∈ S.foreignKeys, fk.onDelete = .setNull → fk.column ∉ S.notNull)
    (hblocked : ∀ fk ∈ S.foreignKeys, fk.onDelete = .noAction → ∀ r ∈ rows, ∀ k,
      L.ref fk.column r = some k → ¬ Doomed L rows S.foreignKeys p k) :
    Consistent L S (afterDelete L rows S.foreignKeys p) := by
  have hsub : (survivors L rows S.foreignKeys p).Sublist rows := survivors_sublist
  have hkeys : (afterDelete L rows S.foreignKeys p).map L.key =
      (survivors L rows S.foreignKeys p).map L.key := by
    rw [afterDelete, List.map_map]
    exact List.map_congr_left fun r _ => key_release hL
  refine ⟨?_, fun c hc r' hr' => ?_, fun fk hfk r' hr' k href => ?_⟩
  · rw [hkeys]
    exact h.unique.sublist (hsub.map L.key)
  · obtain ⟨r, hr, rfl⟩ := List.mem_map.mp hr'
    rw [isNull_release hL fun fk hfk hsetNull hcolumn => hnullable fk hfk hsetNull (hcolumn ▸ hc)]
    exact h.notNull c hc r (hsub.subset hr)
  · obtain ⟨r, hr, rfl⟩ := List.mem_map.mp hr'
    obtain ⟨hbefore, hreleased⟩ := ref_release hL href
    rw [hkeys]
    exact ref_mem_survivors h hfk hr hbefore
      (fun haction => hblocked fk hfk haction r (hsub.subset hr) k hbefore)
      (fun haction hdoomed => hreleased fk hfk haction rfl (mem_doomed.mpr hdoomed))

end Layout

/-! ## Statements -/

section Schema

variable {ρ γ : Type*} [DecidableEq γ] (S : Schema γ)

def Schema.has (name : String) : Bool := S.foreignKeys.any fun fk => decide (fk.name = name)

/-- A constraint that is dropped is there, and one that is added is not. -/
def Schema.admits : Statement ρ γ → Bool
  | .dropConstraint name => S.has name
  | .addForeignKey fk => !S.has fk.name
  | _ => true

def Schema.after : Statement ρ γ → Schema γ
  | .dropConstraint name =>
    { S with foreignKeys := S.foreignKeys.filter fun fk => decide (fk.name ≠ name) }
  | .addForeignKey fk => { S with foreignKeys := S.foreignKeys ++ [fk] }
  | .dropNotNull c => { S with notNull := S.notNull.filter fun d => decide (d ≠ c) }
  | .setNotNull c => { S with notNull := S.notNull ++ [c] }
  | _ => S

/-- The rows after a statement, before the constraints are checked. -/
def Schema.rowsAfter {κ : Type*} [DecidableEq κ] (L : Layout ρ κ γ) (rows : List ρ) :
    Statement ρ γ → List ρ
  | .insert r => rows ++ [r]
  | .update p f => rows.map fun r => if p r then f r else r
  | .delete p => afterDelete L rows S.foreignKeys p
  | _ => rows

end Schema

/-- Rows that meet the constraints of their schema. -/
structure Database {ρ κ γ : Type*} (L : Layout ρ κ γ) where
  schema : Schema γ
  rows : List ρ
  consistent : Consistent L schema rows

section Database

variable {ρ κ γ : Type*} {L : Layout ρ κ γ}

/-- No constraints and no rows. -/
def Database.empty (L : Layout ρ κ γ) : Database L where
  schema := ⟨[], []⟩
  rows := []
  consistent := ⟨List.nodup_nil, by simp, by simp⟩

variable [DecidableEq κ]

/-- The constraints are checked when a statement is done, so that NO ACTION looks at what
its cascades have left. -/
def commit (L : Layout ρ κ γ) (S : Schema γ) (rows : List ρ) : Option (Database L) :=
  if h : check L S rows = true then some ⟨S, rows, (check_iff L S rows).mp h⟩ else none

theorem commit_eq_some_iff {S : Schema γ} {rows : List ρ} {db : Database L} :
    commit L S rows = some db ↔ db.schema = S ∧ db.rows = rows := by
  unfold commit
  constructor
  · intro h
    split at h
    · obtain rfl := Option.some.inj h
      exact ⟨rfl, rfl⟩
    · exact absurd h (by simp)
  · rintro ⟨rfl, rfl⟩
    rw [dif_pos ((check_iff L _ _).mpr db.consistent)]

variable [DecidableEq γ]

/-- One statement; `none` is an error. -/
def Database.exec (db : Database L) (s : Statement ρ γ) : Option (Database L) :=
  if db.schema.admits s then
    commit L (db.schema.after s) (db.schema.rowsAfter L db.rows s)
  else none

/-- What a database goes through, from an empty one on. -/
def server (L : Layout ρ κ γ) : Machine (Database L) (Statement ρ γ) where
  Init db := db = Database.empty L
  step := Database.exec

/-- A script is given up at its first error. -/
def Database.run (db : Database L) (script : List (Statement ρ γ)) : Option (Database L) :=
  (server L).exec db script

/-! ### What a statement does -/

variable {db db' : Database L} {s : Statement ρ γ}

theorem exec_eq_some_iff :
    db.exec s = some db' ↔
      db.schema.admits s = true ∧ db'.schema = db.schema.after s ∧
        db'.rows = db.schema.rowsAfter L db.rows s := by
  unfold Database.exec
  split
  case isTrue hadmits => rw [commit_eq_some_iff, and_iff_right hadmits]
  case isFalse hadmits => simp [hadmits]

theorem Schema.after_of_isData (S : Schema γ) (h : s.isData = true) : S.after s = S := by
  cases s <;> first | rfl | exact absurd h Bool.false_ne_true

/-- Data statements leave the schema alone, however many there are. -/
theorem schema_of_data_run (h : Machine.Run (server L) (fun _ s => s.isData = true) db db') :
    db'.schema = db.schema := by
  refine (Machine.Run.stable (I := fun _ => True) Database.schema ?_ h trivial).2
  intro db₁ s db₂ _ hdata hexec
  obtain ⟨-, hschema, -⟩ := exec_eq_some_iff.mp hexec
  exact ⟨trivial, hschema.trans (Schema.after_of_isData _ hdata)⟩

theorem run_cons_eq_some_iff {script : List (Statement ρ γ)} :
    db.run (s :: script) = some db' ↔ ∃ db₁, db.exec s = some db₁ ∧ db₁.run script = some db' :=
  Option.bind_eq_some_iff

theorem run_nil : db.run ([] : List (Statement ρ γ)) = some db := rfl

/-- The schema that a script leads to does not depend on the rows. -/
theorem schema_of_run {script : List (Statement ρ γ)} (h : db.run script = some db') :
    db'.schema = script.foldl Schema.after db.schema := by
  induction script generalizing db with
  | nil =>
    obtain rfl := Option.some.inj h
    rfl
  | cons s script ih =>
    obtain ⟨db₁, hexec, hrest⟩ := run_cons_eq_some_iff.mp h
    obtain ⟨-, hschema, -⟩ := exec_eq_some_iff.mp hexec
    rw [ih hrest, hschema, List.foldl_cons]

end Database

/-! ### What the constraints ask of a change to the schema -/

section Constraints

variable {ρ κ γ : Type*} {L : Layout ρ κ γ} {S : Schema γ} {rows : List ρ}

theorem Consistent.mono {S' : Schema γ} (h : Consistent L S rows)
    (hfks : S'.foreignKeys ⊆ S.foreignKeys) (hnotNull : S'.notNull ⊆ S.notNull) :
    Consistent L S' rows where
  unique := h.unique
  notNull c hc := h.notNull c (hnotNull hc)
  references fk hfk := h.references fk (hfks hfk)

variable [DecidableEq γ]

theorem Consistent.dropConstraint (h : Consistent L S rows) (name : String) :
    Consistent L (S.after (ρ := ρ) (.dropConstraint name)) rows :=
  h.mono List.filter_sublist.subset (List.Subset.refl _)

theorem Consistent.dropNotNull (h : Consistent L S rows) (c : γ) :
    Consistent L (S.after (ρ := ρ) (.dropNotNull c)) rows :=
  h.mono (List.Subset.refl _) List.filter_sublist.subset

theorem Consistent.setNotNull {c : γ} (h : Consistent L S rows)
    (hc : ∀ r ∈ rows, L.isNull c r = false) :
    Consistent L (S.after (ρ := ρ) (.setNotNull c)) rows where
  unique := h.unique
  notNull d hd := by
    rcases List.mem_append.mp hd with hd | hd
    · exact h.notNull d hd
    · obtain rfl := List.mem_singleton.mp hd
      exact hc
  references := h.references

theorem Consistent.addForeignKey (h : Consistent L S rows) (fk : ForeignKey γ)
    (hfk : ∀ r ∈ rows, ∀ k, L.ref fk.column r = some k → k ∈ rows.map L.key) :
    Consistent L (S.after (ρ := ρ) (.addForeignKey fk)) rows where
  unique := h.unique
  notNull := h.notNull
  references fk' hfk' := by
    rcases List.mem_append.mp hfk' with hfk' | hfk'
    · exact h.references fk' hfk'
    · obtain rfl := List.mem_singleton.mp hfk'
      exact hfk

end Constraints

end SchedulingService.Lib.Relational
