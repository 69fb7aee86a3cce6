import SchedulingService.Lib.Keyed
import SchedulingService.Scheduler.Dto

/-!
# The scheduler's tables

The rows of `job_categories`, `jobs`, `schedules` and `executions`, and what a
column makes of the property it is written from: a missing property leaves the
column to its default, `null` is NULL, and a value the column's type has no
reading for makes the database refuse the statement.

Properties are written as they are at run time; a property of another type
than the entity declares is taken to be refused.
-/

namespace SchedulingService.Scheduler

open Js

abbrev Uuid := String

/-- How PostgreSQL reads a parameter, `none` where it refuses it. -/
structure Database where
  /-- A `uuid`: the id that a text spells. -/
  uuid : String → Option Uuid
  /-- A `jsonb` document. -/
  jsonb : Value → Option Value

/-! ## Columns -/

/-- What is stored for the property `v` in a column with this default. -/
def column {α : Type} (default : Option α) (read : Value → Option α) :
    Value → Option (Option α)
  | .undefined => some default
  | .null => some none
  | v => (read v).map some

/-- A nullable column without a default. -/
def nullable {α : Type} (read : Value → Option α) (v : Value) : Option (Option α) :=
  column none read v

/-- A NOT NULL column. -/
def notNull {α : Type} (default : Option α) (read : Value → Option α) (v : Value) : Option α :=
  (column default read v).join

/-- `text`: every character but NUL. -/
def readText : Value → Option String
  | .str s => if s.toList.contains (Char.ofNat 0) then none else some s
  | _ => none

/-- `varchar(n)`: what is too long is refused, but for trailing spaces. -/
def readVarchar (n : Nat) (v : Value) : Option String :=
  (readText v).bind fun s =>
    if s.length ≤ n then some s
    else if (s.toList.drop n).all (· = ' ') then some (String.ofList (s.toList.take n))
    else none

/-- `integer`: 32 bits. -/
def readInteger : Value → Option Int
  | .num (.fin q) =>
    if q.den = 1 ∧ -2147483648 ≤ q.num ∧ q.num ≤ 2147483647 then some q.num else none
  | _ => none

/-- `timestamp`: an Invalid Date is refused. -/
def readTimestamp : Value → Option Int
  | .date (.ms t) => some t
  | _ => none

def Database.readUuid (db : Database) : Value → Option Uuid
  | .str s => db.uuid s
  | _ => none

theorem readText_eq_some {v : Value} {s : String} (h : readText v = some s) : v = .str s := by
  unfold readText at h
  split at h
  case h_1 t =>
    split at h
    · cases h
    · rw [Option.some.inj h]
  case h_2 => cases h

/-- A text that is given is stored as text. -/
theorem ne_empty_of_readVarchar {n : Nat} (hn : 0 < n) {v : Value} {s : String}
    (h : readVarchar n v = some s) (hv : v.truthy = true) : s ≠ "" := by
  unfold readVarchar at h
  obtain ⟨text, htext, hcut⟩ := Option.bind_eq_some_iff.mp h
  obtain rfl := readText_eq_some htext
  have hne : text ≠ "" := by simpa [Value.truthy] using hv
  split at hcut
  · rwa [← Option.some.inj hcut]
  · rename_i hlong
    split at hcut
    · -- cut at `n` it is still `n` characters long
      rw [← Option.some.inj hcut]
      intro hempty
      have hlength := congrArg String.length hempty
      rw [String.length_ofList, List.length_take, String.length_toList, String.length_empty]
        at hlength
      omega
    · cases hcut

theorem readInteger_eq_some {v : Value} {n : Int} (h : readInteger v = some n) :
    v = .num (.fin n) := by
  unfold readInteger at h
  split at h
  case h_1 q =>
    split at h
    case isTrue hq =>
      obtain rfl := Option.some.inj h
      have hq' : (q.num : ℚ) = q := Rat.coe_int_num_of_den_eq_one hq.1
      rw [hq']
    case isFalse => cases h
  case h_2 => cases h

/-- A NOT NULL column reads what it is given. -/
theorem notNull_of_not_isNullish {α : Type} {default : Option α} {read : Value → Option α}
    {v : Value} (h : v.isNullish = false) : notNull default read v = read v := by
  have hjoin : ∀ x : Option α, (x.map some).join = x := by
    intro x
    cases x <;> rfl
  cases v with
  | undefined => cases h
  | null => cases h
  | _ => exact hjoin _

/-! ## Rows -/

structure JobCategory where
  id : Uuid
  defaultPriority : Priority
  defaultTimeout : Int
  defaultMaxRetries : Int

structure Job where
  id : Uuid
  name : String
  description : Option String
  categoryId : Option Uuid
  targetService : String
  targetMethod : String
  payload : Value
  priority : Priority
  maxRetries : Int
  timeoutSeconds : Int
  isActive : Bool
  createdBy : Option Uuid
  /-- No operation sets it. -/
  deletedAt : Option Int

structure Schedule where
  id : Uuid
  jobId : Uuid
  scheduleType : ScheduleType
  cronExpression : Option String
  intervalSeconds : Option Int
  scheduledAt : Option Int
  timezone : String
  startsAt : Option Int
  endsAt : Option Int
  isActive : Bool
  deriving DecidableEq

inductive ExecutionStatus
  | pending
  | running
  | completed
  | failed
  | cancelled
  | timeout
  deriving DecidableEq

structure Execution where
  id : Uuid
  jobId : Uuid
  scheduleId : Option Uuid
  status : ExecutionStatus
  startedAt : Int
  completedAt : Option Int
  failedAt : Option Int
  attemptNumber : Int
  resultData : Option Value
  errorData : Option Value
  durationMs : Option Int
  correlationId : Option String

/-! ## Looking a row up -/

/-- `findOne({ where: { id: v } })` on the rows in the order the database
returns them. A criterion that is `undefined` or `null` is dropped; `error`
where the database refuses the statement. -/
def findOneById {α : Type} (db : Database) (idOf : α → Uuid) (rows : List α) :
    Value → Except Unit (Option α)
  | .undefined => .ok rows.head?
  | .null => .ok rows.head?
  | v => match db.readUuid v with
    | some id => .ok (rows.find? fun row => idOf row = id)
    | none => .error ()

/-- What is found is one of the rows. -/
theorem mem_of_findOneById {α : Type} {db : Database} {idOf : α → Uuid} {rows : List α}
    {v : Value} {row : α} (h : findOneById db idOf rows v = .ok (some row)) : row ∈ rows := by
  unfold findOneById at h
  split at h
  case h_1 => exact List.mem_of_head? (Except.ok.inj h)
  case h_2 => exact List.mem_of_head? (Except.ok.inj h)
  case h_3 =>
    split at h
    case h_1 => exact List.mem_of_find?_eq_some (Except.ok.inj h)
    case h_2 => cases h

end SchedulingService.Scheduler
