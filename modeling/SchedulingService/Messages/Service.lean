import SchedulingService.Messages.Repository

/-!
# `ScheduledMessagesService`

The service's code between two awaits, as pure functions: what `create`,
`update` and `cancel` do to the entity they loaded, the request `sendMessage`
builds, the decision its catch block takes, and `claimDueMessages` run without
interruption. How these pieces interleave is `Messages/System.lean`.
-/

namespace SchedulingService.Messages

open Js

/-- Milliseconds: `LOCK_TTL_SECONDS` seconds. -/
def LOCK_TTL_MS : Nat := 55 * 1000

def MAX_SCHEDULE_HORIZON_MS : Nat := 365 * 24 * 60 * 60 * 1000

def PROCESS_BATCH_SIZE : Nat := 100

def RETRY_LIMIT : Nat := 3

def TRANSIENT_HTTP_STATUS : List Number := [408, 429, 502, 503, 504]

def TRANSIENT_NETWORK_CODES : List String :=
  ["ECONNREFUSED", "ECONNRESET", "ETIMEDOUT", "EAI_AGAIN", "ENOTFOUND", "EPIPE"]

def TRANSIENT_GRPC_CODES : List Number := [4, 8, 10, 14]

/-- The exceptions a request can end with, and their text. -/
inductive HttpException
  | badRequest (message : String)
  | notFound (message : String)
  deriving DecidableEq

/-! ## Owner requests -/

structure CreateScheduledMessageDto where
  conversationId : Id
  content : String
  metadata : Slot Metadata
  scheduledAt : String

/-- `@IsOptional` lets `null` through on every property. -/
structure UpdateScheduledMessageDto where
  content : Slot String
  metadata : Slot Metadata
  scheduledAt : Slot String

/-- The two checks `create` and `update` make on a new time. -/
def checkScheduledAt (scheduledAt : Date) (now : Int) : Except HttpException Unit := do
  if Date.le scheduledAt (.ms now) then
    throw (.badRequest "scheduled_at must be in the future")
  if Number.lt (.fin MAX_SCHEDULE_HORIZON_MS) (Date.minus scheduledAt (.ms now)) then
    throw (.badRequest "scheduled_at must be within 1 year from now")

/-- `metadata || null`. -/
def metadataOrNull : Slot Metadata → Slot Metadata
  | .val m => if m.value.truthy then .val m else .null
  | _ => .null

/-- `create` up to its save: the entity it hands to the repository. -/
def createMessage (P : Platform) (now : Int) (userId : Slot Id)
    (dto : CreateScheduledMessageDto) : Except HttpException ScheduledMessage := do
  let scheduledAt := P.newDate dto.scheduledAt
  checkScheduledAt scheduledAt now
  return {
    id := .undefined
    userId
    conversationId := .val dto.conversationId
    content := .val dto.content
    metadata := metadataOrNull dto.metadata
    scheduledAt := .val scheduledAt
    status := .val .pending
    retryCount := .undefined }

def messageNotFound (id : Id) : HttpException :=
  .notFound ("Scheduled message with ID " ++ id ++ " not found")

/-- The row `findOne({ where: { id, userId } })` answers. -/
def findOwned (t : Table) (id userId : Id) : Option Row :=
  t.rows.find? fun r => r.id = id ∧ r.userId = userId

def findOwnedOrThrow (t : Table) (id : Id) (userId : Slot Id) :
    Except HttpException ScheduledMessage :=
  match userId with
  | .val u =>
    -- without a user id no row is looked up
    if u = "" then throw (messageNotFound id)
    else match findOwned t id u with
      | some r => return .ofRow r
      | none => throw (messageNotFound id)
  | _ => throw (messageNotFound id)

/-- `${status}` in a template literal. -/
def statusText : Slot ScheduledMessageStatus → String
  | .undefined => "undefined"
  | .null => "null"
  | .val st => st.text

/-- `new Date(dto.scheduledAt)`, if the body gives a time at all. -/
def UpdateScheduledMessageDto.newScheduledAt (P : Platform)
    (dto : UpdateScheduledMessageDto) : Option Date :=
  match dto.scheduledAt with
  | .val s => if s = "" then none else some (P.newDate s)
  | _ => none

/-- `update` between its read and its save. -/
def updateMessage (P : Platform) (now : Int) (dto : UpdateScheduledMessageDto)
    (message : ScheduledMessage) : Except HttpException ScheduledMessage := do
  if message.status ≠ .val .pending then
    throw (.badRequest ("Cannot update a scheduled message with status \"" ++
      statusText message.status ++ "\". Only pending messages can be updated."))
  let message ← match dto.newScheduledAt P with
    | some newScheduledAt => do
      checkScheduledAt newScheduledAt now
      pure { message with scheduledAt := .val newScheduledAt }
    | none => pure message
  return {
    message with
    content := if dto.content.isDefined then dto.content else message.content
    metadata := if dto.metadata.isDefined then dto.metadata else message.metadata }

/-- `cancel` between its read and its save. -/
def cancelMessage (message : ScheduledMessage) :
    Except HttpException ScheduledMessage := do
  if message.status ≠ .val .pending then
    throw (.badRequest ("Cannot cancel a scheduled message with status \"" ++
      statusText message.status ++ "\". Only pending messages can be cancelled."))
  return { message with status := .val .cancelled }

/-- What a successful `update` did to the loaded entity `m`. -/
structure Updated (P : Platform) (now : Int) (dto : UpdateScheduledMessageDto)
    (m m' : ScheduledMessage) : Prop where
  wasPending  : m.status = .val .pending
  id_eq       : m'.id = m.id
  status      : m'.status = m.status
  content     : m'.content = if dto.content.isDefined then dto.content else m.content
  metadata    : m'.metadata = if dto.metadata.isDefined then dto.metadata else m.metadata
  scheduledAt : m'.scheduledAt = (dto.newScheduledAt P).elim m.scheduledAt .val
  checked     : ∀ d ∈ dto.newScheduledAt P, checkScheduledAt d now = .ok ()

/-- `update` goes through on a PENDING message whose new time, if any, is accepted. -/
theorem updateMessage_eq_ok {P : Platform} {now : Int} {dto : UpdateScheduledMessageDto}
    {m m' : ScheduledMessage} : updateMessage P now dto m = .ok m' ↔
      m.status = .val .pending ∧ (∀ d ∈ dto.newScheduledAt P, checkScheduledAt d now = .ok ()) ∧
        m' = { m with
          scheduledAt := (dto.newScheduledAt P).elim m.scheduledAt .val
          content := if dto.content.isDefined then dto.content else m.content
          metadata := if dto.metadata.isDefined then dto.metadata else m.metadata } := by
  unfold updateMessage
  by_cases hst : m.status = .val .pending
  -- the status check passed; a new time, if any, is checked next
  · obtain ⟨id, userId, conversationId, content, metadata, scheduledAt, status, retryCount⟩ := m
    obtain rfl : status = .val .pending := hst
    cases hd : dto.newScheduledAt P with
    | none =>
      simp only [ne_eq, not_true, if_false, true_and]
      constructor
      · intro h
        exact ⟨by simp, (Except.ok.inj h).symm⟩
      · rintro ⟨-, rfl⟩
        rfl
    | some d =>
      cases hc : checkScheduledAt d now with
      | error e =>
        refine iff_of_false (by simp [hc, bind, Except.bind]) ?_
        rintro ⟨-, hchecked, -⟩
        have hok := hchecked d rfl
        rw [hc] at hok
        cases hok
      | ok =>
        simp only [ne_eq, not_true, if_false, hc, true_and]
        constructor
        · intro h
          refine ⟨fun d' hd' => ?_, (Except.ok.inj h).symm⟩
          obtain rfl := Option.some.inj hd'
          exact hc
        · rintro ⟨-, rfl⟩
          rfl
  · refine iff_of_false ?_ fun h => hst h.1
    simp [hst, bind, Except.bind, throw, throwThe, MonadExceptOf.throw]

theorem updateMessage_spec {P : Platform} {now : Int} {dto : UpdateScheduledMessageDto}
    {m m' : ScheduledMessage} (h : updateMessage P now dto m = .ok m') :
    Updated P now dto m m' := by
  obtain ⟨hst, hchecked, rfl⟩ := updateMessage_eq_ok.mp h
  exact ⟨hst, rfl, rfl, rfl, rfl, rfl, hchecked⟩

theorem cancelMessage_spec {m m' : ScheduledMessage} (h : cancelMessage m = .ok m') :
    m.status = .val .pending ∧ m' = { m with status := .val .cancelled } := by
  unfold cancelMessage at h
  by_cases hst : m.status = .val .pending
  · simp only [hst, ne_eq, not_true, if_false] at h
    exact ⟨hst, (Except.ok.inj h).symm⟩
  · simp [hst, bind, Except.bind, throw, throwThe, MonadExceptOf.throw] at h

theorem createMessage_spec {P : Platform} {now : Int} {userId : Slot Id}
    {dto : CreateScheduledMessageDto} {m : ScheduledMessage}
    (h : createMessage P now userId dto = .ok m) :
    checkScheduledAt (P.newDate dto.scheduledAt) now = .ok () ∧
      m = {
        id := .undefined
        userId
        conversationId := .val dto.conversationId
        content := .val dto.content
        metadata := metadataOrNull dto.metadata
        scheduledAt := .val (P.newDate dto.scheduledAt)
        status := .val .pending
        retryCount := .undefined } := by
  unfold createMessage at h
  cases hc : checkScheduledAt (P.newDate dto.scheduledAt) now with
  | error e => simp [hc, bind, Except.bind] at h
  | ok =>
    simp only [hc] at h
    exact ⟨rfl, (Except.ok.inj h).symm⟩

/-- The row found is the stored row under `id`, and the caller's. -/
theorem findOwned_eq_some {t : Table} {id userId : Id} {r : Row}
    (h : findOwned t id userId = some r) : t.get id = some r ∧ r.userId = userId := by
  have hfound : r.id = id ∧ r.userId = userId := by simpa using List.find?_some h
  exact ⟨Keyed.get_eq_some.mpr ⟨List.mem_of_find?_eq_some h, hfound.1⟩, hfound.2⟩

/-- What `findOwnedOrThrow` answers is the stored row under `id`. -/
theorem findOwnedOrThrow_spec {t : Table} {id : Id} {userId : Slot Id}
    {m : ScheduledMessage} (h : findOwnedOrThrow t id userId = .ok m) :
    ∃ r, t.get id = some r ∧ userId = .val r.userId ∧ m = .ofRow r := by
  unfold findOwnedOrThrow at h
  split at h
  · rename_i u
    split at h
    · exact absurd h (by simp [throw, throwThe, MonadExceptOf.throw])
    · split at h
      · rename_i r hr
        obtain rfl := Except.ok.inj h
        obtain ⟨hget, rfl⟩ := findOwned_eq_some hr
        exact ⟨r, hget, rfl, rfl⟩
      · exact absurd h (by simp [throw, throwThe, MonadExceptOf.throw])
  · exact absurd h (by simp [throw, throwThe, MonadExceptOf.throw])

/-! ## Sending -/

/-- The argument of `sendScheduledMessage`. -/
structure SendScheduledMessageRequest where
  conversationId : Slot Id
  senderId : Slot Id
  messageType : String
  content : Slot String
  metadata : Metadata
  scheduledFor : Slot Date

/-- `metadata || {}`. -/
def metadataOrEmpty : Option Metadata → Metadata
  | some m => if m.value.truthy then m else .obj []
  | none => .obj []

/-- The request `sendMessage` builds; absent metadata become `{}`. -/
def sendRequest (message : ScheduledMessage) : SendScheduledMessageRequest where
  conversationId := message.conversationId
  senderId := message.userId
  messageType := "TEXT"
  content := message.content
  metadata := metadataOrEmpty message.metadata.toOption
  scheduledFor := message.scheduledAt

/-- `err.response?.status ?? err.status ?? err.statusCode`. -/
def httpStatus (err : Value) : Value :=
  ((err.get "response").get "status").orElse
    ((err.get "status").orElse (err.get "statusCode"))

def isTransientHttpStatus (status : Number) : Bool :=
  -- gone for good
  if status = 404 || status = 410 then false
  else if TRANSIENT_HTTP_STATUS.contains status then true
  else if Number.le 400 status && Number.lt status 500 then false
  else Number.le 500 status

/-- Whether a retry may help. An error of unknown shape counts as permanent. -/
def isTransientError (error : Value) : Bool :=
  if !error.truthy || !error.typeofObject then false
  -- the code decides before the status does
  else if (match error.get "code" with
      | .str code => TRANSIENT_NETWORK_CODES.contains code
      | .num code => TRANSIENT_GRPC_CODES.contains code
      | _ => false) then true
  else match httpStatus error with
    | .num status => isTransientHttpStatus status
    | _ => false

/-- `retryCount < RETRY_LIMIT`: a comparison with `undefined` is false, and
`null` counts as 0. -/
def retryBelowLimit : Slot Nat → Bool
  | .undefined => false
  | .null => decide (0 < RETRY_LIMIT)
  | .val n => decide (n < RETRY_LIMIT)

def canRetry (error : Value) (message : ScheduledMessage) : Bool :=
  isTransientError error && retryBelowLimit message.retryCount

/-- `retryCount += 1`. Reached only when `retryBelowLimit` holds. -/
def incrRetry : Slot Nat → Slot Nat
  | .undefined => .undefined
  | .null => .val 1
  | .val n => .val (n + 1)

/-- What the catch block makes of the entity before saving it: back to PENDING
with one retry more, or FAILED. -/
def onSendError (error : Value) (message : ScheduledMessage) : ScheduledMessage :=
  if canRetry error message then
    { message with retryCount := incrRetry message.retryCount, status := .val .pending }
  else { message with status := .val .failed }

/-- The entity after the call resolved. -/
def onSent (message : ScheduledMessage) : ScheduledMessage :=
  { message with status := .val .sent }

@[simp] theorem onSendError_id (error : Value) (m : ScheduledMessage) :
    (onSendError error m).id = m.id := by
  unfold onSendError
  split <;> rfl

@[simp] theorem onSendError_content (error : Value) (m : ScheduledMessage) :
    (onSendError error m).content = m.content := by
  unfold onSendError
  split <;> rfl

@[simp] theorem onSendError_metadata (error : Value) (m : ScheduledMessage) :
    (onSendError error m).metadata = m.metadata := by
  unfold onSendError
  split <;> rfl

@[simp] theorem onSendError_scheduledAt (error : Value) (m : ScheduledMessage) :
    (onSendError error m).scheduledAt = m.scheduledAt := by
  unfold onSendError
  split <;> rfl

theorem onSendError_status (error : Value) (m : ScheduledMessage) :
    (onSendError error m).status =
      .val (if canRetry error m then .pending else .failed) := by
  unfold onSendError
  split <;> rfl

/-! ## Claiming, run alone -/

/-- The conditional UPDATE over the rows `visit`, in the order the database
visits them: the table and the rows it answers. -/
def claimRows (t : Table) : List Id → Table × List Row
  | [] => (t, [])
  | i :: visit =>
    match claimRow t i with
    | some (t', r) =>
      let (t'', raw) := claimRows t' visit
      (t'', r :: raw)
    | none => claimRows t visit

/-- The ids the SELECT of a tick answers, given the order of the due rows. -/
def candidateIds (order : List Id) : List Id := order.take PROCESS_BATCH_SIZE

/-- `claimDueMessages` over the table `t`: the candidates are claimed in the
order `visit` and the answer is turned into entities. -/
def claimDueMessages (P : Platform) (t : Table) (visit : List Id) :
    Table × List ScheduledMessage :=
  let (t', raw) := claimRows t visit
  (t', raw.map P.materialize)

theorem claimRows_cons_of_some {t t' : Table} {i : Id} {r : Row} (visit : List Id)
    (h : claimRow t i = some (t', r)) :
    claimRows t (i :: visit) = ((claimRows t' visit).1, r :: (claimRows t' visit).2) := by
  simp [claimRows, h]

theorem claimRows_cons_of_none {t : Table} {i : Id} (visit : List Id)
    (h : claimRow t i = none) : claimRows t (i :: visit) = claimRows t visit := by
  simp [claimRows, h]

/-- Nothing is claimed exactly when no visited row is PENDING. -/
theorem claimRows_eq_nil {t : Table} {visit : List Id} :
    (claimRows t visit).2 = [] ↔ ∀ i ∈ visit, claimRow t i = none := by
  induction visit with
  | nil => simp [claimRows]
  | cons i visit ih =>
    cases h : claimRow t i with
    | none => simp [claimRows_cons_of_none visit h, ih, h]
    | some p => simp [claimRows_cons_of_some visit h, h]

end SchedulingService.Messages
