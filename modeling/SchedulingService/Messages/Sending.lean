import Mathlib.Tactic.NormNum
import SchedulingService.Messages.Tick

/-!
# `sendMessage`

One call of `sendMessage` by itself, under every outcome of the messaging call
and of its two saves. The try block holds the call and the save that records its
success; the catch block classifies whatever was thrown in it, and saves again.

Main results:

* `exec_sendEvents` — in the system, the steps of a tick over one message do
  what `sendMessage` does;
* `recordsDelivery_iff` — exactly when a delivery is recorded as one;
* `putsBack_iff` — exactly when an outage is retried;
* `marksFailed_iff` — exactly when a refusal is final.
-/

namespace SchedulingService.Messages

open Js

/-- How a call of `save` ended. -/
inductive SaveOutcome
  | done
  /-- It threw; `stored` says whether the statement took effect all the same. -/
  | threw (error : Value) (stored : Bool)

namespace SaveOutcome

/-- What the call threw. -/
def error : SaveOutcome → Option Value
  | done => none
  | threw error _ => some error

def stored : SaveOutcome → Bool
  | done => true
  | threw _ stored => stored

end SaveOutcome

/-- How the calls of one `sendMessage` end, those of them that are made. -/
structure SendCalls where
  /-- What `sendScheduledMessage` rejects with, if it does. -/
  call : Option Value
  /-- The save in the try block. -/
  saveSent : SaveOutcome
  /-- The save in the catch block. -/
  saveError : SaveOutcome

/-- One call of `save`: the entity as it was handed over, and the outcome. -/
structure SaveCall where
  version : ScheduledMessage
  outcome : SaveOutcome

/-- What one `sendMessage` did. -/
structure Sending where
  saves : List SaveCall
  /-- The error its catch block took for that of a failed send. -/
  caught : Option Value
  thrown : Option Value

/-- The entities that reached the table, in order. -/
def Sending.stored (sending : Sending) : List ScheduledMessage :=
  (sending.saves.filter fun save => save.outcome.stored).map SaveCall.version

/-- What reading a property of `undefined` or `null` throws. -/
def typeError : Value := .obj [("name", .str "TypeError")]

/-- The catch block. -/
def handleSendError (message : ScheduledMessage) (error : Value) (save : SaveOutcome) :
    Sending where
  saves := [{ version := onSendError error message, outcome := save }]
  caught := some error
  thrown :=
    match save with
    | .threw e _ => some e
    -- both logs read `error.message`
    | .done => if error.isNullish then some typeError else none

@[simp] theorem handleSendError_saves (message : ScheduledMessage) (error : Value)
    (save : SaveOutcome) : (handleSendError message error save).saves =
      [{ version := onSendError error message, outcome := save }] := rfl

@[simp] theorem handleSendError_caught (message : ScheduledMessage) (error : Value)
    (save : SaveOutcome) : (handleSendError message error save).caught = some error := rfl

/-- `sendMessage`. -/
def sendMessage (message : ScheduledMessage) (calls : SendCalls) : Sending :=
  match calls.call with
  | some error => handleSendError message error calls.saveError
  | none =>
    let save : SaveCall := { version := onSent message, outcome := calls.saveSent }
    match calls.saveSent with
    | .done => { saves := [save], caught := none, thrown := none }
    -- the entity is SENT by now, in memory
    | .threw error _ =>
      let handled := handleSendError (onSent message) error calls.saveError
      { handled with saves := save :: handled.saves }

section Cases

variable {message : ScheduledMessage} {calls : SendCalls}

theorem sendMessage_of_call {error : Value} (h : calls.call = some error) :
    sendMessage message calls = handleSendError message error calls.saveError := by
  rw [sendMessage, h]

theorem sendMessage_of_done (h : calls.call = none) (hsave : calls.saveSent = .done) :
    sendMessage message calls =
      { saves := [{ version := onSent message, outcome := .done }]
        caught := none
        thrown := none } := by
  rw [sendMessage, h, hsave]

theorem sendMessage_of_threw {error : Value} {stored : Bool} (h : calls.call = none)
    (hsave : calls.saveSent = .threw error stored) :
    sendMessage message calls =
      { saves := [
          { version := onSent message, outcome := .threw error stored },
          { version := onSendError error (onSent message), outcome := calls.saveError }]
        caught := some error
        thrown := (handleSendError (onSent message) error calls.saveError).thrown } := by
  rw [sendMessage, h, hsave]
  rfl

end Cases

/-! ## In the system -/

/-- The event of a save's end. -/
def saveEvent (t : TickId) : SaveOutcome → Event
  | .done => .saved t
  | .threw error _ => .saveError t error

/-- The steps of tick `t` over one message. -/
def sendEvents (t : TickId) (calls : SendCalls) : List Event :=
  match calls.call with
  | some error => [.send t, .sendError t error, saveEvent t calls.saveError]
  | none =>
    match calls.saveSent with
    | .done => [.send t, .ack t, .saved t]
    | .threw error _ => [.send t, .ack t, .saveError t error, saveEvent t calls.saveError]

/-- The table after some saves; `none` where one that is done was refused. -/
def storeAll (table : Table) : List SaveCall → Option Table
  | [] => some table
  | call :: rest =>
    match call.outcome with
    | .done => (save table call.version).bind fun table' => storeAll table' rest
    | .threw _ _ => storeAll table rest

/-- Where the tick goes on after `sendMessage`. -/
def Sending.next (sending : Sending) (rest : List ScheduledMessage) : Phase :=
  match sending.thrown with
  | none => .loop rest
  | some _ => .releasing

section System

variable {P : Platform} {s : Sys} {t : TickId} {message : ScheduledMessage}
  {rest : List ScheduledMessage} {calls : SendCalls} {table : Table}

/-- The call starts. -/
theorem step_send (hphase : s.phase t = .sending message rest) :
    ∃ s', (machine P).step s (.send t) = some s' ∧ s'.table = s.table ∧
      s'.phase t = .calling message rest := by
  refine ⟨{ s.goto t (.calling message rest) with
    trace := .called message.id (sendRequest message) s.now :: s.trace }, ?_, rfl, ?_⟩
  · simp only [machine, step, hphase]
  · simp

/-- It resolves. -/
theorem step_ack (hphase : s.phase t = .calling message rest) :
    ∃ s', (machine P).step s (.ack t) = some s' ∧ s'.table = s.table ∧
      s'.phase t = .saving (onSent message) .afterSend rest := by
  refine ⟨{ s.goto t (.saving (onSent message) .afterSend rest) with
    trace := .acked message.id :: s.trace }, ?_, rfl, ?_⟩
  · simp only [machine, step, hphase]
  · simp

/-- It rejects. -/
theorem step_sendError (error : Value) (hphase : s.phase t = .calling message rest) :
    ∃ s', (machine P).step s (.sendError t error) = some s' ∧ s'.table = s.table ∧
      s'.phase t = .saving (onSendError error message) (.onError error) rest := by
  refine ⟨s.goto t (.saving (onSendError error message) (.onError error) rest), ?_, rfl, ?_⟩
  · simp only [machine, step, hphase]
  · simp

/-- A save is done. -/
theorem step_saved {site : SaveSite} (hphase : s.phase t = .saving message site rest)
    (hsave : save s.table message = some table) :
    ∃ s', (machine P).step s (.saved t) = some s' ∧ s'.table = table ∧
      s'.phase t = afterSave site rest := by
  refine ⟨{ s.goto t (afterSave site rest) with table }, ?_, rfl, ?_⟩
  · simp only [machine, step, hphase, hsave]
  · simp

/-- A save throws. -/
theorem step_saveError {site : SaveSite} (error : Value)
    (hphase : s.phase t = .saving message site rest) :
    ∃ s', (machine P).step s (.saveError t error) = some s' ∧ s'.table = s.table ∧
      s'.phase t = afterSaveError message error site rest := by
  refine ⟨s.goto t (afterSaveError message error site rest), ?_, rfl, ?_⟩
  · simp only [machine, step, hphase]
  · simp

/-- The catch block's save. -/
theorem step_saveEvent {error : Value} {outcome : SaveOutcome}
    (hphase : s.phase t = .saving (onSendError error message) (.onError error) rest)
    (hstore : storeAll s.table (handleSendError message error outcome).saves = some table) :
    ∃ s', (machine P).step s (saveEvent t outcome) = some s' ∧ s'.table = table ∧
      s'.phase t = (handleSendError message error outcome).next rest := by
  cases outcome with
  | done =>
    simp only [handleSendError, storeAll, Option.bind_eq_some_iff, Option.some.injEq] at hstore
    obtain ⟨table', hsave, rfl⟩ := hstore
    obtain ⟨s', hs', htable, hphase'⟩ := step_saved (P := P) hphase hsave
    refine ⟨s', hs', htable, hphase'.trans ?_⟩
    -- the loop goes on unless the log throws
    cases hnull : error.isNullish <;>
      simp [afterSave, SaveSite.goesOn, Sending.next, handleSendError, hnull]
  | threw e stored =>
    obtain rfl : s.table = table := Option.some.inj hstore
    exact step_saveError e hphase

/-- **The system's steps.** A tick about to send a message does what
`sendMessage` does: the table is as its saves leave it, and the loop goes on
unless it threw. -/
theorem exec_sendEvents (hphase : s.phase t = .sending message rest)
    (hstore : storeAll s.table (sendMessage message calls).saves = some table) :
    ∃ s', (machine P).exec s (sendEvents t calls) = some s' ∧ s'.table = table ∧
      s'.phase t = (sendMessage message calls).next rest := by
  obtain ⟨s₁, hs₁, htable₁, hphase₁⟩ := step_send (P := P) hphase
  cases hcall : calls.call with
  | some error =>
    rw [sendMessage_of_call hcall] at hstore ⊢
    obtain ⟨s₂, hs₂, htable₂, hphase₂⟩ := step_sendError (P := P) error hphase₁
    rw [← htable₁, ← htable₂] at hstore
    obtain ⟨s₃, hs₃, htable₃, hphase₃⟩ := step_saveEvent (P := P) hphase₂ hstore
    refine ⟨s₃, ?_, htable₃, hphase₃⟩
    simp only [sendEvents, hcall, Machine.exec_cons hs₁, Machine.exec_cons hs₂,
      Machine.exec_cons hs₃]
    rfl
  | none =>
    obtain ⟨s₂, hs₂, htable₂, hphase₂⟩ := step_ack (P := P) hphase₁
    rw [← htable₁, ← htable₂] at hstore
    cases hsave : calls.saveSent with
    | done =>
      rw [sendMessage_of_done hcall hsave] at hstore ⊢
      simp only [storeAll, Option.bind_eq_some_iff, Option.some.injEq] at hstore
      obtain ⟨table', hstored, rfl⟩ := hstore
      obtain ⟨s₃, hs₃, htable₃, hphase₃⟩ := step_saved (P := P) hphase₂ hstored
      refine ⟨s₃, ?_, htable₃, hphase₃⟩
      simp only [sendEvents, hcall, hsave, Machine.exec_cons hs₁, Machine.exec_cons hs₂,
        Machine.exec_cons hs₃]
      rfl
    | threw error stored =>
      rw [sendMessage_of_threw hcall hsave] at hstore ⊢
      -- the first save leaves the table as it was, and its error is caught
      obtain ⟨s₃, hs₃, htable₃, hphase₃⟩ := step_saveError (P := P) error hphase₂
      rw [← htable₃] at hstore
      obtain ⟨s₄, hs₄, htable₄, hphase₄⟩ := step_saveEvent (P := P) hphase₃ hstore
      refine ⟨s₄, ?_, htable₄, hphase₄⟩
      simp only [sendEvents, hcall, hsave, Machine.exec_cons hs₁, Machine.exec_cons hs₂,
        Machine.exec_cons hs₃, Machine.exec_cons hs₄]
      rfl

end System

/-! ## Deliveries -/

/-- A delivered message is not recorded as undelivered, and no error of the
database is taken for one of the messaging service. -/
structure RecordsDelivery (message : ScheduledMessage) (calls : SendCalls) : Prop where
  status : calls.call = none → ∀ v ∈ (sendMessage message calls).stored,
    v.status ≠ .val .pending ∧ v.status ≠ .val .failed
  retryCount : calls.call = none → ∀ save ∈ (sendMessage message calls).saves,
    save.version.retryCount = message.retryCount
  classified : ∀ error ∈ (sendMessage message calls).caught, calls.call = some error

/-- The catch block is entered with the error of the call, or with that of the
save after it. -/
theorem sendMessage_caught (message : ScheduledMessage) (calls : SendCalls) :
    (sendMessage message calls).caught = calls.call.or calls.saveSent.error := by
  cases hcall : calls.call with
  | some error => rw [sendMessage_of_call hcall, Option.some_or, handleSendError_caught]
  | none =>
    rw [Option.none_or]
    cases hsave : calls.saveSent with
    | done => rw [sendMessage_of_done hcall hsave, SaveOutcome.error]
    | threw error stored => rw [sendMessage_of_threw hcall hsave, SaveOutcome.error]

/-- **Deliveries.** A message is recorded as the call left it exactly when the
call was rejected or the save of its success did not throw: the catch block
does not tell the two apart. -/
theorem recordsDelivery_iff (message : ScheduledMessage) (calls : SendCalls) :
    RecordsDelivery message calls ↔ calls.call ≠ none ∨ calls.saveSent = .done := by
  have hcaught := sendMessage_caught message calls
  constructor
  · intro h
    by_contra hneither
    obtain ⟨hcall, hsave⟩ := not_or.mp hneither
    have hresolved : calls.call = none := not_not.mp hcall
    cases hs : calls.saveSent with
    | done => exact hsave hs
    | threw error stored =>
      -- the error of the save is classified, and the call threw none
      rw [hresolved, hs, Option.none_or, SaveOutcome.error] at hcaught
      have hclassified := h.classified error hcaught
      rw [hresolved] at hclassified
      cases hclassified
  · rintro (hrejected | hdone)
    · refine ⟨fun hresolved => absurd hresolved hrejected,
        fun hresolved => absurd hresolved hrejected, fun error herror => ?_⟩
      obtain ⟨e, he⟩ := Option.ne_none_iff_exists'.mp hrejected
      rw [hcaught, he, Option.some_or] at herror
      rw [he]
      exact herror
    · refine ⟨fun hresolved v hv => ?_, fun hresolved save hsave => ?_, fun error herror => ?_⟩
      · rw [sendMessage_of_done hresolved hdone] at hv
        obtain rfl : v = onSent message := by simpa [Sending.stored, SaveOutcome.stored] using hv
        exact ⟨by simp [onSent], by simp [onSent]⟩
      · rw [sendMessage_of_done hresolved hdone] at hsave
        obtain rfl := List.mem_singleton.mp hsave
        rfl
      · rw [hcaught, hdone, SaveOutcome.error, Option.or_none] at herror
        exact herror

/-- A claimed message of which every property arrived. -/
def arrivedMessage : ScheduledMessage :=
  .ofRow { id := "msg-1", userId := "u", conversationId := "c", content := "hello",
           metadata := none, scheduledAt := 0, status := .processing, retryCount := 0 }

/-- The call resolves and the connection to the database is reset while the
success is saved. -/
def connectionReset : SendCalls where
  call := none
  saveSent := .threw (.obj [("code", .str "ECONNRESET")]) false
  saveError := .done

/-- The message is delivered, and goes back to be sent again. -/
theorem delivered_message_put_back :
    ((sendMessage arrivedMessage connectionReset).stored.map fun v => (v.status, v.retryCount)) =
        [(.val .pending, .val 1)] ∧
      ¬ RecordsDelivery arrivedMessage connectionReset := by
  refine ⟨by decide, fun h => ?_⟩
  rcases (recordsDelivery_iff arrivedMessage connectionReset).mp h with hcall | hsave
  · exact hcall rfl
  · cases hsave

/-! ## Outages -/

/-- How the observable of a call in `MessagingGrpcClient.call` fails. -/
inductive CallFailure
  /-- `timeout(GRPC_CALL_TIMEOUT_MS)` raises its TimeoutError. -/
  | timeout
  /-- The gRPC layer raises. -/
  | raised (error : Value)

def GRPC_CALL_TIMEOUT_MS : Nat := 5000

/-- The TimeoutError. -/
def timeoutError : Value :=
  .obj [("name", .str "TimeoutError"), ("message", .str "Timeout has occurred")]

/-- What `call` rejects with. -/
def callError (label : String) : CallFailure → Value
  | .timeout => .obj [
      ("name", .str "Error"),
      ("message", .str ("Messaging gRPC call \"" ++ label ++ "\" timed out after " ++
        toString GRPC_CALL_TIMEOUT_MS ++ "ms")),
      ("cause", timeoutError)]
  | .raised error => error

/-- What `sendScheduledMessage` rejects with. -/
def sendScheduledMessageError (failure : CallFailure) : Value :=
  clientError (callError "sendScheduledMessage" failure)

/-- DEADLINE_EXCEEDED, RESOURCE_EXHAUSTED, ABORTED and UNAVAILABLE. -/
def hasTransientGrpcCode (error : Value) : Prop :=
  ∃ code ∈ TRANSIENT_GRPC_CODES, error.get "code" = .num code

/-- The service could not be reached, or not in time. -/
inductive Outage : CallFailure → Prop
  | timeout : Outage .timeout
  | unavailable {error : Value} (h : hasTransientGrpcCode error) : Outage (.raised error)

/-- Every entity handed to `save` is PENDING with `retryCount`. -/
structure PutsBack (retryCount : Nat) (sending : Sending) : Prop where
  saved : sending.saves ≠ []
  status : ∀ save ∈ sending.saves, save.version.status = .val .pending
  retryCount : ∀ save ∈ sending.saves, save.version.retryCount = .val retryCount

/-- An error that carries such a code is transient, whatever else it carries. -/
theorem isTransientError_of_grpcCode {error : Value} (h : hasTransientGrpcCode error) :
    isTransientError error = true := by
  obtain ⟨code, hmem, hcode⟩ := h
  cases error with
  | obj props =>
    simp [isTransientError, Value.truthy, Value.typeofObject, hcode, hmem]
  | _ => cases hcode

/-- The error that stands for the timeout has neither a code nor a status. -/
theorem isTransientError_timeout :
    isTransientError (sendScheduledMessageError .timeout) = false := by
  simp [sendScheduledMessageError, callError, clientError, isTransientError, httpStatus,
    Value.isNullish, Value.truthy, Value.typeofObject, Value.get, Value.orElse,
    List.lookup_cons]

/-- **Outages.** A message within its budget whose call failed with an outage is
put back exactly when the outage is not the timeout of the client: `call`
replaces its error with one that no longer shows it. -/
theorem putsBack_iff {message : ScheduledMessage} {n : Nat}
    (hcount : message.retryCount = .val n) (hless : n < RETRY_LIMIT) {failure : CallFailure}
    (hout : Outage failure) {calls : SendCalls}
    (hcall : calls.call = some (sendScheduledMessageError failure)) :
    PutsBack (n + 1) (sendMessage message calls) ↔ failure ≠ .timeout := by
  rw [sendMessage_of_call hcall]
  cases hout with
  | timeout =>
    refine iff_of_false (fun h => ?_) (fun h => h rfl)
    have hstatus := h.status _ List.mem_cons_self
    rw [onSendError_status, canRetry, isTransientError_timeout] at hstatus
    cases hstatus
  | @unavailable error hcode =>
    refine iff_of_true ?_ (fun h => by cases h)
    -- an object is rethrown as it is
    have herror : sendScheduledMessageError (.raised error) = error := by
      obtain ⟨code, -, hcode⟩ := hcode
      cases error with
      | obj props => rfl
      | _ => cases hcode
    have hretry : canRetry error message = true := by
      rw [canRetry, isTransientError_of_grpcCode hcode, hcount]
      simpa [retryBelowLimit] using hless
    have hversion : onSendError error message =
        { message with retryCount := .val (n + 1), status := .val .pending } := by
      simp [onSendError, hretry, hcount, incrRetry]
    rw [herror]
    refine ⟨List.cons_ne_nil _ _, ?_, ?_⟩
    · simp [hversion]
    · simp [hversion]

/-- The gRPC call of the first attempt. -/
theorem putsBack_iff_unavailable :
    PutsBack 1 (sendMessage arrivedMessage
        { call := some (sendScheduledMessageError (.raised (.obj [("code", .num 14)])))
          saveSent := .done
          saveError := .done }) ↔
      CallFailure.raised (.obj [("code", .num 14)]) ≠ .timeout :=
  putsBack_iff (n := 0) rfl (by decide) (.unavailable ⟨14, by decide, rfl⟩) rfl

/-- The 5 s elapse on the first attempt, and the message is given up. -/
theorem timeout_gives_up :
    ((sendMessage arrivedMessage
        { call := some (sendScheduledMessageError .timeout)
          saveSent := .done
          saveError := .done }).stored.map fun v => (v.status, v.retryCount)) =
      [(.val .failed, .val 0)] := by
  rw [sendMessage_of_call rfl]
  simp [Sending.stored, SaveOutcome.stored, onSendError, canRetry,
    isTransientError_timeout, arrivedMessage, ScheduledMessage.ofRow]

/-! ## Refusals -/

/-- The HTTP status refuses the request for good. -/
def Refused (error : Value) : Prop :=
  ∃ q : ℚ, httpStatus error = .num (.fin q) ∧ 400 ≤ q ∧ q ≤ 499 ∧ q ≠ 408 ∧ q ≠ 429

/-- The code is one of those that count as transient. -/
def hasTransientCode (error : Value) : Bool :=
  match error.get "code" with
  | .str code => TRANSIENT_NETWORK_CODES.contains code
  | .num code => TRANSIENT_GRPC_CODES.contains code
  | _ => false

/-- The message is saved once, FAILED and otherwise as it is. -/
structure MarksFailed (message : ScheduledMessage) (sending : Sending) : Prop where
  saved : sending.saves ≠ []
  status : ∀ save ∈ sending.saves, save.version.status = .val .failed
  retryCount : ∀ save ∈ sending.saves, save.version.retryCount = message.retryCount

theorem isTransientHttpStatus_of_refused {q : ℚ} (hlow : 400 ≤ q) (hhigh : q ≤ 499)
    (h408 : q ≠ 408) (h429 : q ≠ 429) : isTransientHttpStatus (.fin q) = false := by
  have hclass : Number.le 400 (.fin q) = true ∧ Number.lt (.fin q) 500 = true := by
    constructor
    · exact decide_eq_true hlow
    · exact decide_eq_true (lt_of_le_of_lt hhigh (by norm_num))
  have hnot : TRANSIENT_HTTP_STATUS.contains (.fin q) = false := by
    have h500 : ∀ m : ℚ, 500 ≤ m → q ≠ m := fun m hm => by
      rintro rfl
      exact absurd (hm.trans hhigh) (by norm_num)
    rw [Bool.eq_false_iff, ne_eq, List.contains_iff_mem]
    intro hmem
    simp only [TRANSIENT_HTTP_STATUS, List.mem_cons, List.not_mem_nil, or_false] at hmem
    rcases hmem with h | h | h | h | h
    · exact h408 (Number.fin.inj h)
    · exact h429 (Number.fin.inj h)
    · exact h500 502 (by norm_num) (Number.fin.inj h)
    · exact h500 503 (by norm_num) (Number.fin.inj h)
    · exact h500 504 (by norm_num) (Number.fin.inj h)
  unfold isTransientHttpStatus
  split
  · rfl
  · rw [hnot, hclass.1, hclass.2]
    rfl

/-- Of a refusal only the code decides. -/
theorem isTransientError_of_refused {error : Value} (h : Refused error) :
    isTransientError error = hasTransientCode error := by
  obtain ⟨q, hstatus, hlow, hhigh, h408, h429⟩ := h
  have hpermanent := isTransientHttpStatus_of_refused hlow hhigh h408 h429
  cases error with
  | obj props =>
    -- the code is asked first, and the status where it does not tell
    show (if hasTransientCode (.obj props) then true else _) = _
    rw [hstatus]
    cases hasTransientCode (.obj props) with
    | true => rfl
    | false => exact hpermanent
  | _ => cases hstatus

/-- **Refusals.** A refused message is marked FAILED exactly when its error does
not carry a transient code besides, or its retries are used up. -/
theorem marksFailed_iff {message : ScheduledMessage} {error : Value} (href : Refused error)
    {calls : SendCalls} (hcall : calls.call = some error) :
    MarksFailed message (sendMessage message calls) ↔
      hasTransientCode error = false ∨ retryBelowLimit message.retryCount = false := by
  rw [sendMessage_of_call hcall, ← Bool.and_eq_false_iff, ← isTransientError_of_refused href,
    ← canRetry]
  constructor
  · intro h
    have hstatus := h.status _ List.mem_cons_self
    rw [onSendError_status] at hstatus
    cases hretry : canRetry error message with
    | false => rfl
    | true =>
      rw [hretry] at hstatus
      cases hstatus
  · intro hretry
    have hversion : onSendError error message = { message with status := .val .failed } := by
      simp [onSendError, hretry]
    refine ⟨List.cons_ne_nil _ _, ?_, ?_⟩
    · simp [hversion]
    · simp [hversion]

/-- A 404 whose error also carries a network code. -/
def goneAndReset : Value :=
  .obj [("code", .str "ECONNRESET"), ("response", .obj [("status", .num 404)])]

theorem refused_goneAndReset : Refused goneAndReset :=
  ⟨404, rfl, by norm_num, by norm_num, by norm_num, by norm_num⟩

/-- It is retried. -/
theorem refused_message_is_retried :
    Refused goneAndReset ∧
      ((sendMessage arrivedMessage
        { call := some goneAndReset
          saveSent := .done
          saveError := .done }).stored.map fun v => (v.status, v.retryCount)) =
      [(.val .pending, .val 1)] := by
  refine ⟨refused_goneAndReset, ?_⟩
  decide

/-- A plain 404. -/
theorem marksFailed_iff_notFound :
    MarksFailed arrivedMessage (sendMessage arrivedMessage
        { call := some (.obj [("status", .num 404)])
          saveSent := .done
          saveError := .done }) ↔
      hasTransientCode (.obj [("status", .num 404)]) = false ∨
        retryBelowLimit arrivedMessage.retryCount = false :=
  marksFailed_iff ⟨404, rfl, by norm_num, by norm_num, by norm_num, by norm_num⟩ rfl

end SchedulingService.Messages
