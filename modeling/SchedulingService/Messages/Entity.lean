import SchedulingService.Js.Value

/-!
# `scheduled_messages`: row, entity and the mapping between them

A message exists in two shapes. A `Row` is what the table stores, one value
per column. A `ScheduledMessage` is the entity object in a process's memory,
whose properties may each be missing at run time. `find` fills every property
from the column it is declared for (`ScheduledMessage.ofRow`); the rows an
`UPDATE … RETURNING *` answers are keyed by *column* name
(`Row.returningAll`), while `Repository.create` copies by *property* name
(`repositoryCreate`).

The created/updated timestamps are left out: nothing in the message lifecycle
reads them.
-/

namespace SchedulingService.Messages

open Js

/-- Message and user identifiers: uuids. -/
abbrev Id := String

inductive ScheduledMessageStatus
  | pending
  | processing
  | sent
  | cancelled
  | failed
  deriving DecidableEq, Repr

namespace ScheduledMessageStatus

/-- The value stored in the enum column. -/
def text : ScheduledMessageStatus → String
  | pending => "pending"
  | processing => "processing"
  | sent => "sent"
  | cancelled => "cancelled"
  | failed => "failed"

def ofText (s : String) : Option ScheduledMessageStatus :=
  [pending, processing, sent, cancelled, failed].find? fun st => st.text = s

/-- The statuses the lifecycle never leaves. -/
def terminal : ScheduledMessageStatus → Bool
  | sent => true
  | cancelled => true
  | failed => true
  | _ => false

@[simp] theorem ofText_text (st : ScheduledMessageStatus) : ofText st.text = some st := by
  cases st <;> decide

end ScheduledMessageStatus

/-- A JSON value that is there. The declared type is `Record<string, any>`, but
nothing in the service or in the table asks for an object. -/
structure Metadata where
  value : Value
  isNullish_value : value.isNullish = false

/-- The JSON object with these properties. -/
abbrev Metadata.obj (props : List (String × Value)) : Metadata := ⟨.obj props, rfl⟩

/-- A row of the table. `scheduledAt` is an instant in milliseconds. -/
structure Row where
  id : Id
  userId : Id
  conversationId : Id
  content : String
  metadata : Option Metadata
  scheduledAt : Int
  status : ScheduledMessageStatus
  retryCount : Nat

/-- The entity object. -/
structure ScheduledMessage where
  id : Slot Id
  userId : Slot Id
  conversationId : Slot Id
  content : Slot String
  metadata : Slot Metadata
  scheduledAt : Slot Date
  status : Slot ScheduledMessageStatus
  retryCount : Slot Nat

namespace ScheduledMessage

/-- The entity `find` and `findOne` build: every property is set. -/
def ofRow (r : Row) : ScheduledMessage where
  id := .val r.id
  userId := .val r.userId
  conversationId := .val r.conversationId
  content := .val r.content
  metadata := .ofNullable r.metadata
  scheduledAt := .val (.ms r.scheduledAt)
  status := .val r.status
  retryCount := .val r.retryCount

end ScheduledMessage

/-! ## The claim's way back from the database -/

/-- A row as `RETURNING *` answers it: one key per column, named as in the
`@Column` options of the entity. -/
def Row.returningAll (r : Row) : Value :=
  .obj [
    ("id", .str r.id),
    ("user_id", .str r.userId),
    ("conversation_id", .str r.conversationId),
    ("content", .str r.content),
    ("metadata", (r.metadata.map Metadata.value).getD .null),
    ("scheduled_at", .date (.ms r.scheduledAt)),
    ("status", .str r.status.text),
    ("retry_count", .num (.fin r.retryCount))]

/-- A value read into a property of declared type `α`. -/
def readSlot {α : Type} (decode : Value → Option α) : Value → Slot α
  | .undefined => .undefined
  | .null => .null
  | v => match decode v with
    | some a => .val a
    | none => .undefined

def decodeStr : Value → Option String
  | .str s => some s
  | _ => none

def decodeJson (v : Value) : Option Metadata :=
  if h : v.isNullish = false then some ⟨v, h⟩ else none

def decodeDate : Value → Option Date
  | .date d => some d
  | _ => none

def decodeStatus : Value → Option ScheduledMessageStatus
  | .str s => ScheduledMessageStatus.ofText s
  | _ => none

def decodeNat : Value → Option Nat
  | .num (.fin q) => if q.den = 1 ∧ 0 ≤ q.num then some q.num.toNat else none
  | _ => none

/-- `Repository.create(plain)`: an entity with the properties of `plain` whose
key is the name of an entity property. -/
def repositoryCreate (plain : Value) : ScheduledMessage where
  id := readSlot decodeStr (plain.get "id")
  userId := readSlot decodeStr (plain.get "userId")
  conversationId := readSlot decodeStr (plain.get "conversationId")
  content := readSlot decodeStr (plain.get "content")
  metadata := readSlot decodeJson (plain.get "metadata")
  scheduledAt := readSlot decodeDate (plain.get "scheduledAt")
  status := readSlot decodeStatus (plain.get "status")
  retryCount := readSlot decodeNat (plain.get "retryCount")

/-- A property read from a JSON column. -/
@[simp] theorem readSlot_decodeJson (m : Metadata) : readSlot decodeJson m.value = .val m := by
  obtain ⟨v, hv⟩ := m
  cases v with
  | undefined | null => cases hv
  | _ => rfl

/-! ## What an entity carries of its row -/

/-- Each property the entity carries is the row's column; the others are
missing. -/
structure ScheduledMessage.CarriesAtMost (m : ScheduledMessage) (r : Row) : Prop where
  content     : m.content = .undefined ∨ m.content = .val r.content
  metadata    : m.metadata = .undefined ∨ m.metadata = .ofNullable r.metadata
  scheduledAt : m.scheduledAt = .undefined ∨ m.scheduledAt = .val (.ms r.scheduledAt)

/-- What the service takes from its platform: `new Date(s)` on a string, and
how the query builder and `Repository.create` together turn a row answered by
`RETURNING *` into an entity. The entity keeps the primary key and carries no
value that is not the row's. -/
structure Platform where
  newDate : String → Date
  materialize : Row → ScheduledMessage
  materialize_id : ∀ r, (materialize r).id = .val r.id
  materialize_carries : ∀ r, (materialize r).CarriesAtMost r

/-- **What survives the claim.** Of a claimed row only the properties whose
name is also their column's name reach the entity. -/
theorem repositoryCreate_returningAll (r : Row) :
    repositoryCreate r.returningAll =
      { id := .val r.id
        userId := .undefined
        conversationId := .undefined
        content := .val r.content
        metadata := .ofNullable r.metadata
        scheduledAt := .undefined
        status := .val r.status
        retryCount := .undefined } := by
  have hmetadata : readSlot decodeJson ((r.metadata.map Metadata.value).getD .null) =
      .ofNullable r.metadata := by
    cases r.metadata with
    | none => rfl
    | some m => exact readSlot_decodeJson m
  simp only [repositoryCreate, Row.returningAll, Value.get, List.lookup_cons]
  simp only [String.reduceBEq, Option.getD_some, hmetadata]
  simp [readSlot, decodeStr, decodeStatus]

/-- The platform as it is: TypeORM's naming on the way back. -/
def typeorm (newDate : String → Date) : Platform where
  newDate := newDate
  materialize r := repositoryCreate r.returningAll
  materialize_id r := by rw [repositoryCreate_returningAll]
  materialize_carries r := by
    rw [repositoryCreate_returningAll]
    -- content and metadata arrive, the time does not
    exact ⟨.inr rfl, .inr rfl, .inl rfl⟩

/-- A platform whose claimed entities carry every column of their row, as the
entities of `find` do. -/
def carrying (newDate : String → Date) : Platform where
  newDate := newDate
  materialize := .ofRow
  materialize_id _ := rfl
  materialize_carries _ := ⟨.inr rfl, .inr rfl, .inr rfl⟩

end SchedulingService.Messages
