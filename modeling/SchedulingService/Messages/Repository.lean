import SchedulingService.Lib.Keyed
import SchedulingService.Messages.Entity

/-!
# The `scheduled_messages` repository

The statements the service issues against the table, each as a function of the
table at the instant the database executes it:

* `save` — `Repository.save` of a loaded entity: every defined property is
  written by primary key; what the row holds at that instant is not looked at
  (`save_spec`);
* `insertNew` — `Repository.save` of an entity without id (`insertNew_spec`);
* `Selects` — the candidate query of a tick (`mem_selects`);
* `claimRow` — the conditional UPDATE on one row, atomic (`claimRow_spec`).

Rows are never deleted, so an entity that was loaded has a row.
-/

namespace SchedulingService.Messages

open Js

abbrev Table := Keyed Row.id

/-! ## Saving an entity -/

/-- The value a NOT NULL column has after a property was saved over `old`;
`null` is refused. -/
def writeColumn {α : Type} (old : α) : Slot α → Option α
  | .undefined => some old
  | .null => none
  | .val a => some a

/-- The same for a nullable column. -/
def writeNullable {α : Type} (old : Option α) : Slot α → Option α
  | .undefined => old
  | .null => none
  | .val a => some a

/-- A timestamp as a statement's parameter; PostgreSQL refuses an Invalid Date. -/
def timestamp : Date → Option Int
  | .ms t => some t
  | .invalid => none

/-- The same for `scheduled_at`. -/
def writeTimestamp (old : Int) : Slot Date → Option Int
  | .undefined => some old
  | .null => none
  | .val d => timestamp d

/-- The row after `m` was saved over `r`, unless a column refuses its value. -/
def ScheduledMessage.overwrite (m : ScheduledMessage) (r : Row) : Option Row := do
  -- a missing property is not in the statement and leaves its column alone
  let userId ← writeColumn r.userId m.userId
  let conversationId ← writeColumn r.conversationId m.conversationId
  let content ← writeColumn r.content m.content
  let scheduledAt ← writeTimestamp r.scheduledAt m.scheduledAt
  let status ← writeColumn r.status m.status
  let retryCount ← writeColumn r.retryCount m.retryCount
  some {
    id := r.id
    userId
    conversationId
    content
    metadata := writeNullable r.metadata m.metadata
    scheduledAt
    status
    retryCount }

/-- `save(entity)` of a loaded entity: by primary key, whatever the row's
status is by then. `none` when the database refuses the statement. -/
def save (t : Table) (m : ScheduledMessage) : Option Table := do
  let id ← m.id.toOption
  let row ← t.get id
  let row' ← m.overwrite row
  some (t.put row')

/-- The columns of `r'` are those of `r` with the entity's properties written
over them. -/
structure Overwritten (m : ScheduledMessage) (r r' : Row) : Prop where
  id_eq       : r'.id = r.id
  content     : writeColumn r.content m.content = some r'.content
  metadata    : writeNullable r.metadata m.metadata = r'.metadata
  scheduledAt : writeTimestamp r.scheduledAt m.scheduledAt = some r'.scheduledAt
  status      : writeColumn r.status m.status = some r'.status

/-- What one successful save did: `r` was the row, `r'` is. -/
structure Saved (t : Table) (m : ScheduledMessage) (t' : Table) (r r' : Row) : Prop
    extends Overwritten m r r' where
  key    : m.id = .val r.id
  before : t.get r.id = some r
  after  : t' = t.put r'

theorem save_spec {t t' : Table} {m : ScheduledMessage} (h : save t m = some t') :
    ∃ r r', Saved t m t' r r' := by
  simp only [save, ScheduledMessage.overwrite, Option.bind_eq_bind,
    Option.bind_eq_some_iff, Option.some.injEq] at h
  obtain ⟨id, hid, r, hr, r', ⟨u, hu, c, hc, txt, htxt, at', hat, st, hst, n, hn, rfl⟩, rfl⟩ := h
  obtain rfl := Keyed.key_of_get hr
  -- the row is the one the entity names
  have hmid : m.id = .val r.id := by
    cases hm : m.id with
    | val i => rw [hm] at hid; simpa using hid
    | undefined | null => rw [hm] at hid; exact absurd hid (by simp [Slot.toOption])
  exact ⟨r, ⟨r.id, u, c, txt, writeNullable r.metadata m.metadata, at', st, n⟩,
    ⟨rfl, htxt, rfl, hat, hst⟩, hmid, hr, rfl⟩

theorem Overwritten.status_eq {m : ScheduledMessage} {r r' : Row}
    (h : Overwritten m r r') {st : ScheduledMessageStatus} (hst : m.status = .val st) :
    r'.status = st := by
  have := h.status
  rw [hst, writeColumn, Option.some.injEq] at this
  exact this.symm

namespace Saved

variable {t t' : Table} {m : ScheduledMessage} {r r' : Row}

theorem get_self (h : Saved t m t' r r') : t'.get r.id = some r' := by
  rw [h.after, ← h.id_eq]
  exact Keyed.get_put_self (by rw [h.id_eq]; exact h.before)

theorem get_of_ne (h : Saved t m t' r r') {i : Id} (hi : i ≠ r.id) :
    t'.get i = t.get i := by
  rw [h.after]
  exact Keyed.get_put_of_ne t (by rwa [h.id_eq])

end Saved

/-! ## Inserting -/

/-- The row `save(entity)` inserts for an entity without id: under the
generated `id`, columns of missing properties at their declared default. -/
def newRow (id : Id) (m : ScheduledMessage) : Option Row := do
  let userId ← m.userId.toOption
  let conversationId ← m.conversationId.toOption
  let content ← m.content.toOption
  let scheduledAt ← m.scheduledAt.toOption.bind timestamp
  let status ← writeColumn .pending m.status
  let retryCount ← writeColumn 0 m.retryCount
  some {
    id
    userId
    conversationId
    content
    metadata := writeNullable none m.metadata
    scheduledAt
    status
    retryCount }

/-- `save(entity)` of an entity without id. -/
def insertNew (t : Table) (id : Id) (m : ScheduledMessage) : Option (Table × Row) := do
  let row ← newRow id m
  let t' ← t.insert row
  some (t', row)

/-- What one insert did: `r` is new. -/
structure Inserted (t : Table) (m : ScheduledMessage) (t' : Table) (r : Row) : Prop where
  fresh  : t.get r.id = none
  after  : ∀ i, t'.get i = if i = r.id then some r else t.get i
  status : writeColumn .pending m.status = some r.status

theorem insertNew_spec {t t' : Table} {id : Id} {m : ScheduledMessage} {r : Row}
    (h : insertNew t id m = some (t', r)) : r.id = id ∧ Inserted t m t' r := by
  simp only [insertNew, newRow, Option.bind_eq_bind, Option.bind_eq_some_iff,
    Option.some.injEq, Prod.mk.injEq] at h
  obtain ⟨row, ⟨u, hu, c, hc, txt, htxt, at', hat, st, hst, n, hn, rfl⟩, t₁, ht, rfl, rfl⟩ := h
  -- the generated id was in no row
  have hins := fun i => Keyed.get_insert ht i
  exact ⟨rfl, (hins id).1, fun i => (hins i).2, hst⟩

/-! ## The candidate query -/

/-- `where: { status: PENDING, scheduledAt: LessThanOrEqual(now) }`. -/
def Row.due (now : Int) (r : Row) : Bool :=
  r.status = .pending ∧ r.scheduledAt ≤ now

/-- `order` is an answer to the candidate query before `take`: the ids of the
due rows, by time; rows of one time come in any order. -/
def Selects (t : Table) (now : Int) (order : List Id) : Prop :=
  order.Perm ((t.rows.filter (Row.due now)).map Row.id) ∧
    (order.filterMap t.get).Pairwise fun a b => a.scheduledAt ≤ b.scheduledAt

instance (t : Table) (now : Int) (order : List Id) : Decidable (Selects t now order) :=
  inferInstanceAs (Decidable (_ ∧ _))

theorem mem_due {t : Table} {now : Int} {i : Id} :
    i ∈ (t.rows.filter (Row.due now)).map Row.id ↔ ∃ r, t.get i = some r ∧ r.due now = true := by
  rw [List.mem_map]
  constructor
  · rintro ⟨r, hr, rfl⟩
    obtain ⟨hmem, hdue⟩ := List.mem_filter.mp hr
    exact ⟨r, Keyed.get_eq_some.mpr ⟨hmem, rfl⟩, hdue⟩
  · rintro ⟨r, hr, hdue⟩
    obtain ⟨hmem, hid⟩ := Keyed.get_eq_some.mp hr
    exact ⟨r, List.mem_filter.mpr ⟨hmem, hdue⟩, hid⟩

/-- Every selected id is that of a row due at `now`. -/
theorem mem_selects {t : Table} {now : Int} {order : List Id} (h : Selects t now order)
    {i : Id} : i ∈ order ↔ ∃ r, t.get i = some r ∧ r.due now = true := by
  rw [h.1.mem_iff]
  exact mem_due

/-! ## The conditional update -/

/-- `UPDATE … SET status = PROCESSING WHERE id = i AND status = PENDING
RETURNING *` on one row: the new table and the row it answers, or `none` when
the predicate does not match. -/
def claimRow (t : Table) (i : Id) : Option (Table × Row) :=
  match t.get i with
  | some r =>
    if r.status = .pending then
      let r' := { r with status := .processing }
      some (t.put r', r')
    else none
  | none => none

/-- What one claim did: `r` was the row and is returned as `r'`. -/
structure Claimed (t : Table) (t' : Table) (r r' : Row) : Prop where
  before : t.get r.id = some r
  wasPending : r.status = .pending
  row_eq : r' = { r with status := .processing }
  after : t' = t.put r'

theorem claimRow_spec {t t' : Table} {i : Id} {r' : Row}
    (h : claimRow t i = some (t', r')) : ∃ r, r.id = i ∧ Claimed t t' r r' := by
  unfold claimRow at h
  split at h
  · rename_i r hr
    split at h
    · rename_i hst
      obtain ⟨rfl, rfl⟩ := Prod.mk.injEq .. ▸ Option.some.inj h
      obtain rfl := Keyed.key_of_get hr
      exact ⟨r, rfl, hr, hst, rfl, rfl⟩
    · exact absurd h (by simp)
  · exact absurd h (by simp)

theorem claimRow_eq_none {t : Table} {i : Id} :
    claimRow t i = none ↔ ∀ r, t.get i = some r → r.status ≠ .pending := by
  unfold claimRow
  cases t.get i with
  | none => simp
  | some r => simp

namespace Claimed

variable {t t' : Table} {r r' : Row}

theorem id_eq (h : Claimed t t' r r') : r'.id = r.id := by
  rw [h.row_eq]

theorem get_self (h : Claimed t t' r r') : t'.get r.id = some r' := by
  rw [h.after, ← h.id_eq]
  exact Keyed.get_put_self (by rw [h.id_eq]; exact h.before)

theorem get_of_ne (h : Claimed t t' r r') {i : Id} (hi : i ≠ r.id) :
    t'.get i = t.get i := by
  rw [h.after]
  exact Keyed.get_put_of_ne t (by rwa [h.id_eq])

end Claimed

end SchedulingService.Messages
