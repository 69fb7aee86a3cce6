import SchedulingService.Lib.Lease
import SchedulingService.Messages.Service

/-!
# The scheduled-messages system

Any number of processes run `processDueMessages` ticks while owners create,
update and cancel messages. A tick is the sequence of its awaits: take the
lock, select the candidates, claim them by the conditional UPDATE, and for each
claimed message call the messaging service and save the outcome; release the
lock. A request is a read, the code up to the save, and the save. Each await is
one event, so a run is any interleaving of all of them.

* Every database statement and every Redis command takes effect at once; the
  conditional UPDATE does so row by row (`Event.claimRow`).
* Every call may fail with any thrown value (`Event.sendError`,
  `Event.saveError`, …); one that fails has changed nothing, but for the SET of
  `Event.acquireError`, which may have reached Redis.
* A pod crash is the crash of each of its ticks.

`trace` records, newest first, what the outside has seen. It decides nothing.
-/

namespace SchedulingService.Messages

open Js

/-- A process, known by its `lockOwnerId`. -/
abbrev Pod := String

/-- One run of the cron method: the `seq`-th of its process. -/
structure TickId where
  pod : Pod
  seq : Nat
  deriving DecidableEq

abbrev ReqId := Nat

/-- The key a message is known by outside the table: its entity's `id`. -/
abbrev MsgKey := Slot Id

/-! ## Ticks and requests -/

/-- Which save of `sendMessage` is under way: the one in its try block, or the
one in its catch block with the error caught. -/
inductive SaveSite
  | afterSend
  | onError (error : Value)

/-- Where in `processDueMessages` a tick stands. -/
inductive Phase
  | idle
  /-- Inside `claimDueMessages`, before the candidate query was answered. -/
  | locked
  /-- The UPDATE is running: candidates not visited yet, rows updated so far. -/
  | claiming (now : Int) (candidateIds : List Id) (raw : List Row)
  /-- In the loop, about to call the messaging service. -/
  | sending (message : ScheduledMessage) (rest : List ScheduledMessage)
  | calling (message : ScheduledMessage) (rest : List ScheduledMessage)
  | saving (message : ScheduledMessage) (site : SaveSite) (rest : List ScheduledMessage)
  | releasing
  | finished
  | crashed

namespace Phase

/-- The head of the loop `for (const message of claimed)`. -/
def loop : List ScheduledMessage → Phase
  | [] => releasing
  | message :: rest => sending message rest

/-- The messages a tick holds: from the UPDATE that returned them until
`sendMessage` is through with them. -/
def held : Phase → List MsgKey
  | claiming _ _ raw => raw.map fun r => .val r.id
  | sending m rest => m.id :: rest.map ScheduledMessage.id
  | calling m rest => m.id :: rest.map ScheduledMessage.id
  | saving m _ rest => m.id :: rest.map ScheduledMessage.id
  | _ => []

/-- The `now` of the SELECT whose candidates are being claimed. -/
def selectedAt : Phase → Option Int
  | claiming now _ _ => some now
  | _ => none

/-- The messaging service has answered for the head of `held`. -/
def settling : Phase → Bool
  | saving .. => true
  | _ => false

/-- `releaseLock` was called, or there was nothing to release. -/
def isFinished : Phase → Bool
  | finished => true
  | _ => false

/-- Between its start and its end. -/
def running : Phase → Bool
  | idle => false
  | finished => false
  | crashed => false
  | _ => true

@[simp] theorem held_loop (ms : List ScheduledMessage) :
    (loop ms).held = ms.map ScheduledMessage.id := by
  cases ms <;> rfl

@[simp] theorem settling_loop (ms : List ScheduledMessage) : (loop ms).settling = false := by
  cases ms <;> rfl

end Phase

/-- What an owner asks for on an existing message. -/
inductive Change
  | update (dto : UpdateScheduledMessageDto)
  | cancel

/-- The code of `update` and `cancel` between read and save. -/
def Change.apply (P : Platform) (now : Int) :
    Change → ScheduledMessage → Except HttpException ScheduledMessage
  | update dto, m => updateMessage P now dto m
  | cancel, m => cancelMessage m

/-- Where a request stands. -/
inductive Request
  | idle
  /-- `findOwnedOrThrow` has answered. -/
  | loaded (change : Change) (message : ScheduledMessage)
  | saving (change : Change) (message : ScheduledMessage)
  | creating (message : ScheduledMessage)
  | resolved
  | rejected

/-! ## What the outside sees -/

/-- The fields an owner's request gave. -/
structure Edit where
  content : Option String
  metadata : Option (Option Metadata)
  scheduledAt : Option Int

/-- What a creation gave: these fields of the row it made. -/
def Row.edit (r : Row) : Edit where
  content := some r.content
  metadata := some r.metadata
  scheduledAt := some r.scheduledAt

/-- An update gives the fields its body has. -/
def UpdateScheduledMessageDto.edit (P : Platform) (dto : UpdateScheduledMessageDto) :
    Edit where
  content := dto.content.toOption
  metadata := if dto.metadata.isDefined then some dto.metadata.toOption else none
  scheduledAt := (dto.newScheduledAt P).bind timestamp

/-- Gives no field. -/
def Edit.empty : Edit where
  content := none
  metadata := none
  scheduledAt := none

/-- What a request on an existing message gives. -/
def Change.edit (P : Platform) : Change → Edit
  | update dto => dto.edit P
  | cancel => .empty

/-- The row has every field the edit gives. -/
structure Row.Has (r : Row) (e : Edit) : Prop where
  content     : ∀ v, e.content = some v → r.content = v
  metadata    : ∀ v, e.metadata = some v → r.metadata = v
  scheduledAt : ∀ v, e.scheduledAt = some v → r.scheduledAt = v

inductive Obs
  /-- A call of `sendScheduledMessage` started. -/
  | called (key : MsgKey) (request : SendScheduledMessageRequest) (time : Int)
  /-- It resolved. -/
  | acked (key : MsgKey)
  /-- A `create` resolved. -/
  | created (key : MsgKey) (edit : Edit)
  /-- An `update` resolved. -/
  | updated (key : MsgKey) (edit : Edit)
  /-- A `cancel` resolved. -/
  | cancelled (key : MsgKey)

def Change.obs (P : Platform) (key : MsgKey) : Change → Obs
  | update dto => .updated key (dto.edit P)
  | cancel => .cancelled key

/-! ## The system -/

structure Sys where
  now : Int
  table : Table
  /-- The Redis key `scheduled-messages:lock:process`. -/
  lock : Option (Lease.Key TickId Pod)
  phase : TickId → Phase
  /-- When the tick's `acquireLock` succeeded. -/
  lockedAt : TickId → Option Int
  request : ReqId → Request
  trace : List Obs

namespace Sys

/-- Tick `t` moves on to `p`. -/
def goto (s : Sys) (t : TickId) (p : Phase) : Sys :=
  { s with phase := Function.update s.phase t p }

/-- Request `r` moves on to `q`. -/
def reply (s : Sys) (r : ReqId) (q : Request) : Sys :=
  { s with request := Function.update s.request r q }

/-- Tick `t` holds message `k`. -/
def Holds (s : Sys) (t : TickId) (k : MsgKey) : Prop := k ∈ (s.phase t).held

end Sys

/-- Any table in which nothing is being processed, and no tick or request
started; every stored message was set by its owner. -/
def Init (s : Sys) : Prop :=
  (∀ r ∈ s.table.rows, r.status ≠ .processing) ∧
  (∀ t, s.phase t = .idle) ∧ (∀ t, s.lockedAt t = none) ∧
  (∀ r, s.request r = .idle) ∧
  s.trace = s.table.rows.map fun r => .created (.val r.id) r.edit

/-- The system at rest over a given table. -/
def Sys.start (now : Int) (table : Table) : Sys where
  now := now
  table := table
  lock := none
  phase _ := .idle
  lockedAt _ := none
  request _ := .idle
  trace := table.rows.map fun r => .created (.val r.id) r.edit

theorem init_start (now : Int) {table : Table}
    (h : ∀ r ∈ table.rows, r.status ≠ .processing) : Init (Sys.start now table) :=
  ⟨h, fun _ => rfl, fun _ => rfl, fun _ => rfl, rfl⟩

inductive Event
  | elapse (ms : Nat)
  /-- `acquireLock` answers. -/
  | acquire (t : TickId)
  /-- It throws; `stored` says whether the SET took effect. -/
  | acquireError (t : TickId) (stored : Bool)
  /-- `new Date()` was `now`, and the candidate query answers `order`. -/
  | select (t : TickId) (now : Int) (order : List Id)
  /-- The conditional UPDATE visits candidate `i`. -/
  | claimRow (t : TickId) (i : Id)
  /-- It returns. -/
  | claimed (t : TickId)
  /-- The query or the UPDATE throws; an UPDATE that throws has changed no row. -/
  | claimError (t : TickId)
  | send (t : TickId)
  | ack (t : TickId)
  | sendError (t : TickId) (error : Value)
  | saved (t : TickId)
  | saveError (t : TickId) (error : Value)
  /-- `releaseLock` returns; `reached` says whether the script was run. -/
  | release (t : TickId) (reached : Bool)
  | crash (t : TickId)
  | create (r : ReqId) (userId : Slot Id) (dto : CreateScheduledMessageDto)
  /-- `findOwnedOrThrow` of an update or a cancel answers. -/
  | find (r : ReqId) (id : Id) (userId : Slot Id) (change : Change)
  /-- Its code runs up to the save. -/
  | check (r : ReqId)
  /-- The save of a request resolves; `fresh` is the id generated by a create. -/
  | requestSaved (r : ReqId) (fresh : Id)
  /-- A database call of a request throws. -/
  | requestError (r : ReqId)

/-- The tick whose step an event is. -/
def Event.tick : Event → Option TickId
  | acquire t => some t
  | acquireError t _ => some t
  | select t _ _ => some t
  | claimRow t _ => some t
  | claimed t => some t
  | claimError t => some t
  | send t => some t
  | ack t => some t
  | sendError t _ => some t
  | saved t => some t
  | saveError t _ => some t
  | release t _ => some t
  | crash t => some t
  | _ => none

/-- Whether the loop goes on after a save. The catch block logs `error.message`
after its save, and reading that of a null or undefined error throws. -/
def SaveSite.goesOn : SaveSite → Bool
  | afterSend => true
  | onError error => !error.isNullish

/-- After a save went through. -/
def afterSave (site : SaveSite) (rest : List ScheduledMessage) : Phase :=
  if site.goesOn then .loop rest else .releasing

/-- After a save threw: the first one is caught by `sendMessage`, the second
one ends the loop. -/
def afterSaveError (message : ScheduledMessage) (error : Value) (site : SaveSite)
    (rest : List ScheduledMessage) : Phase :=
  match site with
  | .afterSend => .saving (onSendError error message) (.onError error) rest
  | .onError _ => .releasing

/-- One event; `none` where it cannot happen. -/
def step (P : Platform) (s : Sys) : Event → Option Sys
  | .elapse ms => some { s with now := s.now + ms }
  | .acquire t =>
    match s.phase t with
    | .idle =>
      match Lease.setNX s.now LOCK_TTL_MS t.pod t s.lock with
      | some k =>
        some { s.goto t .locked with
          lock := some k
          lockedAt := Function.update s.lockedAt t (some s.now) }
      -- the lock is held: the tick ends without a release
      | none => some (s.goto t .finished)
    | _ => none
  | .acquireError t stored =>
    match s.phase t, stored with
    | .idle, false => some (s.goto t .finished)
    -- the SET took effect and its answer was lost
    | .idle, true =>
      match Lease.setNX s.now LOCK_TTL_MS t.pod t s.lock with
      | some k => some { s.goto t .finished with lock := some k }
      | none => none
    | _, _ => none
  | .select t now order =>
    match s.phase t with
    | .locked =>
      -- `now` was read after the lock was taken and before the answer came
      if (∃ T ∈ s.lockedAt t, T ≤ now) ∧ now ≤ s.now ∧ Selects s.table now order then
        some (s.goto t (.claiming now (candidateIds order) []))
      else none
    | _ => none
  | .claimRow t i =>
    match s.phase t with
    | .claiming now ids raw =>
      if i ∈ ids then
        match claimRow s.table i with
        | some (table, r) =>
          some { s.goto t (.claiming now (ids.erase i) (raw ++ [r])) with table }
        -- the row is no longer PENDING and is left out of the answer
        | none => some (s.goto t (.claiming now (ids.erase i) raw))
      else none
    | _ => none
  | .claimed t =>
    match s.phase t with
    -- the raw rows of the answer become entities
    | .claiming _ [] raw => some (s.goto t (.loop (raw.map P.materialize)))
    | _ => none
  | .claimError t =>
    match s.phase t with
    | .locked => some (s.goto t .releasing)
    | .claiming _ _ [] => some (s.goto t .releasing)
    | _ => none
  | .send t =>
    match s.phase t with
    | .sending m rest =>
      some { s.goto t (.calling m rest) with
        trace := .called m.id (sendRequest m) s.now :: s.trace }
    | _ => none
  | .ack t =>
    match s.phase t with
    | .calling m rest =>
      some { s.goto t (.saving (onSent m) .afterSend rest) with
        trace := .acked m.id :: s.trace }
    | _ => none
  | .sendError t error =>
    match s.phase t with
    | .calling m rest => some (s.goto t (.saving (onSendError error m) (.onError error) rest))
    | _ => none
  | .saved t =>
    match s.phase t with
    | .saving m site rest =>
      -- the row is written as it is found; a refused statement is a `saveError`
      match save s.table m with
      | some table => some { s.goto t (afterSave site rest) with table }
      | none => none
    | _ => none
  | .saveError t error =>
    match s.phase t with
    | .saving m site rest => some (s.goto t (afterSaveError m error site rest))
    | _ => none
  | .release t reached =>
    match s.phase t with
    | .releasing =>
      some { s.goto t .finished with
        lock := if reached then Lease.compareAndDelete s.now t.pod s.lock else s.lock }
    | _ => none
  -- neither the lock nor a row is touched
  | .crash t => if (s.phase t).running then some (s.goto t .crashed) else none
  | .create r userId dto =>
    match s.request r with
    | .idle =>
      match createMessage P s.now userId dto with
      | .ok m => some (s.reply r (.creating m))
      | .error _ => some (s.reply r .rejected)
    | _ => none
  | .find r id userId change =>
    match s.request r with
    | .idle =>
      match findOwnedOrThrow s.table id userId with
      | .ok m => some (s.reply r (.loaded change m))
      | .error _ => some (s.reply r .rejected)
    | _ => none
  | .check r =>
    match s.request r with
    | .loaded change m =>
      match change.apply P s.now m with
      | .ok m' => some (s.reply r (.saving change m'))
      | .error _ => some (s.reply r .rejected)
    | _ => none
  | .requestSaved r fresh =>
    match s.request r with
    | .creating m =>
      -- a fresh id: an insert under a stored one cannot happen
      match insertNew s.table fresh m with
      | some (table, row) =>
        some { s.reply r .resolved with
          table
          trace := .created (.val row.id) row.edit :: s.trace }
      | none => none
    | .saving change m =>
      -- by primary key, whatever the row has become since it was read
      match save s.table m with
      | some table =>
        some { s.reply r .resolved with
          table
          trace := change.obs P m.id :: s.trace }
      | none => none
    | _ => none
  | .requestError r =>
    match s.request r with
    | .creating _ => some (s.reply r .rejected)
    | .saving _ _ => some (s.reply r .rejected)
    | _ => none

def machine (P : Platform) : Machine Sys Event where
  Init := Init
  step := step P

end SchedulingService.Messages
