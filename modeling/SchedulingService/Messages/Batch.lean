import SchedulingService.Messages.Sending

/-!
# The loop over a claimed batch

`processDueMessages` sends the messages it claimed one after the other. What
`sendMessage` throws is caught outside the loop, so that the messages after it
are not sent.

Main results:

* `exec_batchEvents` — in the system, a tick's steps over its batch do what
  `sendAll` does;
* `batchIsolated_iff` — exactly when the messages of a batch do not affect one another.
-/

namespace SchedulingService.Messages

open Js

/-- A batch as `claimDueMessages` answers it: no message twice. -/
structure ClaimedBatch where
  messages : List ScheduledMessage
  nodup : (messages.map ScheduledMessage.id).Nodup

/-- What the loop did. -/
structure BatchRun where
  /-- The messages `sendMessage` was called for. -/
  attempted : List MsgKey
  saves : List SaveCall
  thrown : Option Value

/-- `for (const message of claimed) await this.sendMessage(message)`, when the
calls for a message end as `calls` has it. -/
def sendAll (calls : MsgKey → SendCalls) : List ScheduledMessage → BatchRun
  | [] => { attempted := [], saves := [], thrown := none }
  | message :: rest =>
    let sending := sendMessage message (calls message.id)
    match sending.thrown with
    | some error =>
      { attempted := [message.id], saves := sending.saves, thrown := some error }
    | none =>
      let later := sendAll calls rest
      { attempted := message.id :: later.attempted
        saves := sending.saves ++ later.saves
        thrown := later.thrown }

/-- The status under `key` after some saves. -/
def statusAfter (key : MsgKey) (status : Slot ScheduledMessageStatus) :
    List SaveCall → Slot ScheduledMessageStatus
  | [] => status
  | call :: rest =>
    statusAfter key
      (if call.version.id = key ∧ call.outcome.stored then call.version.status else status) rest

/-- The status a message of the batch ends with; it was claimed PROCESSING. -/
def BatchRun.finalStatus (run : BatchRun) (key : MsgKey) : Slot ScheduledMessageStatus :=
  statusAfter key (.val .processing) run.saves

/-- The messages of the batch do not affect one another under the outcomes `o`
and `o'`: each is attempted once, and ends with one status if its own outcomes
are the same. -/
structure BatchIsolated (batch : ClaimedBatch) (o o' : MsgKey → SendCalls) : Prop where
  attempted : ∀ m ∈ batch.messages, (sendAll o batch.messages).attempted.count m.id = 1
  attempted' : ∀ m ∈ batch.messages, (sendAll o' batch.messages).attempted.count m.id = 1
  status : ∀ m ∈ batch.messages, o m.id = o' m.id →
    (sendAll o batch.messages).finalStatus m.id = (sendAll o' batch.messages).finalStatus m.id

/-- An error leaves `sendMessage`: the catch block is entered, and its save
throws or the error it logs has no message to read. -/
def SendCalls.Escapes (calls : SendCalls) : Prop :=
  ∃ error ∈ calls.call.or calls.saveSent.error,
    calls.saveError ≠ .done ∨ error.isNullish = true

/-! ## One message -/

section Message

variable (message : ScheduledMessage) (calls : SendCalls)

theorem handleSendError_thrown (error : Value) (save : SaveOutcome) :
    (handleSendError message error save).thrown = none ↔
      save = .done ∧ error.isNullish = false := by
  cases save with
  | threw e stored => simp [handleSendError]
  | done => cases hnull : error.isNullish <;> simp [handleSendError, hnull]

/-- What makes an error leave it. -/
theorem sendMessage_thrown : (sendMessage message calls).thrown = none ↔ ¬ calls.Escapes := by
  cases hcall : calls.call with
  | some error =>
    rw [sendMessage_of_call hcall, handleSendError_thrown]
    simp [SendCalls.Escapes, hcall]
  | none =>
    cases hsave : calls.saveSent with
    | done =>
      rw [sendMessage_of_done hcall hsave]
      simp [SendCalls.Escapes, hcall, hsave, SaveOutcome.error]
    | threw error stored =>
      rw [sendMessage_of_threw hcall hsave]
      simp only [SendCalls.Escapes, hcall, hsave, handleSendError_thrown, SaveOutcome.error]
      simp

/-- Every save is of the message, with a status. -/
theorem sendMessage_saves {call : SaveCall} (h : call ∈ (sendMessage message calls).saves) :
    call.version.id = message.id ∧ ∃ st, call.version.status = .val st := by
  have honError : ∀ m error, m.id = message.id →
      (onSendError error m).id = message.id ∧ ∃ st, (onSendError error m).status = .val st :=
    fun m error hid => ⟨(onSendError_id error m).trans hid, _, onSendError_status error m⟩
  cases hcall : calls.call with
  | some error =>
    rw [sendMessage_of_call hcall] at h
    obtain rfl := List.mem_singleton.mp h
    exact honError message error rfl
  | none =>
    cases hsave : calls.saveSent with
    | done =>
      rw [sendMessage_of_done hcall hsave] at h
      obtain rfl := List.mem_singleton.mp h
      exact ⟨rfl, _, rfl⟩
    | threw error stored =>
      rw [sendMessage_of_threw hcall hsave] at h
      rcases List.mem_cons.mp h with rfl | h
      · exact ⟨rfl, _, rfl⟩
      · obtain rfl := List.mem_singleton.mp h
        exact honError (onSent message) error rfl

end Message

/-! ## The status after some saves -/

section Status

variable {key : MsgKey} {status : Slot ScheduledMessageStatus}

theorem statusAfter_append (xs ys : List SaveCall) :
    statusAfter key status (xs ++ ys) = statusAfter key (statusAfter key status xs) ys := by
  induction xs generalizing status with
  | nil => rfl
  | cons x xs ih => exact ih

/-- Saves of other messages leave it alone. -/
theorem statusAfter_of_ne {saves : List SaveCall} (h : ∀ c ∈ saves, c.version.id ≠ key) :
    statusAfter key status saves = status := by
  induction saves with
  | nil => rfl
  | cons c rest ih =>
    have hne : c.version.id ≠ key := h c List.mem_cons_self
    rw [statusAfter, if_neg fun hc => hne hc.1]
    exact ih fun c' hc' => h c' (List.mem_cons_of_mem _ hc')

theorem storeAll_cons (table : Table) (c : SaveCall) (rest : List SaveCall) :
    storeAll table (c :: rest) = (storeAll table [c]).bind fun table' => storeAll table' rest := by
  cases hout : c.outcome with
  | done =>
    simp only [storeAll, hout, Option.bind_assoc, Option.bind_some]
  | threw error stored =>
    simp only [storeAll, hout, Option.bind_some]

/-- What a save that throws without effect, or not at all, does to the status of
a row. -/
theorem status_store {c : SaveCall} {table table' : Table} {r : Row}
    (hstatus : ∃ st, c.version.status = .val st)
    (hlost : c.outcome.stored = true → c.outcome = .done)
    (hget : table.get r.id = some r) (hstore : storeAll table [c] = some table') :
    ∃ r', r'.id = r.id ∧ table'.get r.id = some r' ∧
      (if c.version.id = .val r.id ∧ c.outcome.stored then c.version.status
        else .val r.status) = .val r'.status := by
  cases hout : c.outcome with
  | threw error stored =>
    -- then it had no effect
    have hunstored : stored = false := by
      cases stored with
      | false => rfl
      | true =>
        have hdone := hlost (by rw [hout]; rfl)
        rw [hout] at hdone
        cases hdone
    simp only [storeAll, hout, Option.some.injEq] at hstore
    subst hstore
    exact ⟨r, rfl, hget, by simp [SaveOutcome.stored, hunstored]⟩
  | done =>
    simp only [storeAll, hout, Option.bind_eq_some_iff, Option.some.injEq] at hstore
    obtain ⟨table₁, hsave, rfl⟩ := hstore
    obtain ⟨r₀, r₁, hsaved⟩ := save_spec hsave
    obtain ⟨st, hst⟩ := hstatus
    by_cases hsame : r₀.id = r.id
    · -- the saved row is this one
      have hst₁ : r₁.status = st := hsaved.toOverwritten.status_eq hst
      refine ⟨r₁, hsaved.id_eq.trans hsame, ?_, ?_⟩
      · rw [← hsame]
        exact hsaved.get_self
      · rw [if_pos ⟨by rw [hsaved.key, hsame], rfl⟩, hst, hst₁]
    · -- the save is of another row
      have hkey : c.version.id ≠ .val r.id := by
        rw [hsaved.key]
        exact fun hid => hsame (Slot.val.inj hid)
      refine ⟨r, rfl, ?_, if_neg fun hc => hkey hc.1⟩
      rw [hsaved.get_of_ne (Ne.symm hsame)]
      exact hget

/-- The stored row ends with the status that `statusAfter` has. -/
theorem status_storeAll {saves : List SaveCall} {table table' : Table} {r : Row}
    (hstatus : ∀ c ∈ saves, ∃ st, c.version.status = .val st)
    (hlost : ∀ c ∈ saves, c.outcome.stored = true → c.outcome = .done)
    (hget : table.get r.id = some r) (hstore : storeAll table saves = some table') :
    ∃ r', table'.get r.id = some r' ∧
      statusAfter (.val r.id) (.val r.status) saves = .val r'.status := by
  induction saves generalizing table r with
  | nil =>
    obtain rfl := Option.some.inj hstore
    exact ⟨r, hget, rfl⟩
  | cons c rest ih =>
    rw [storeAll_cons, Option.bind_eq_some_iff] at hstore
    obtain ⟨table₁, hfirst, hstore⟩ := hstore
    obtain ⟨r₁, hid, hget₁, hst⟩ := status_store (hstatus c List.mem_cons_self)
      (hlost c List.mem_cons_self) hget hfirst
    rw [← hid] at hget₁
    obtain ⟨r', hget', hafter⟩ := ih (fun c' hc' => hstatus c' (List.mem_cons_of_mem _ hc'))
      (fun c' hc' => hlost c' (List.mem_cons_of_mem _ hc')) hget₁ hstore
    rw [hid] at hget' hafter
    refine ⟨r', hget', ?_⟩
    rw [statusAfter, hst]
    exact hafter

end Status

/-! ## The loop -/

section Loop

variable {o : MsgKey → SendCalls} {m : ScheduledMessage} {ms : List ScheduledMessage}

/-- The loop ends with a message that an error escapes from. -/
theorem sendAll_of_escapes (h : (o m.id).Escapes) :
    (sendAll o (m :: ms)).attempted = [m.id] ∧
      (sendAll o (m :: ms)).saves = (sendMessage m (o m.id)).saves := by
  have hthrown : (sendMessage m (o m.id)).thrown ≠ none := fun hnone =>
    (sendMessage_thrown m (o m.id)).mp hnone h
  obtain ⟨error, herror⟩ := Option.ne_none_iff_exists'.mp hthrown
  rw [sendAll, herror]
  exact ⟨rfl, rfl⟩

/-- Otherwise it goes on. -/
theorem sendAll_of_not_escapes (h : ¬ (o m.id).Escapes) :
    (sendAll o (m :: ms)).attempted = m.id :: (sendAll o ms).attempted ∧
      (sendAll o (m :: ms)).saves =
        (sendMessage m (o m.id)).saves ++ (sendAll o ms).saves := by
  rw [sendAll, (sendMessage_thrown m (o m.id)).mpr h]
  exact ⟨rfl, rfl⟩

/-- What is attempted is the beginning of the batch. -/
theorem attempted_prefix (o : MsgKey → SendCalls) (ms : List ScheduledMessage) :
    (sendAll o ms).attempted.IsPrefix (ms.map ScheduledMessage.id) := by
  induction ms with
  | nil => exact List.prefix_rfl
  | cons m ms ih =>
    rw [List.map_cons]
    by_cases h : (o m.id).Escapes
    · rw [(sendAll_of_escapes h).1]
      exact List.cons_prefix_cons.mpr ⟨rfl, List.nil_prefix⟩
    · rw [(sendAll_of_not_escapes h).1]
      exact List.cons_prefix_cons.mpr ⟨rfl, ih⟩

/-- Every message is attempted exactly when an error can only escape from the
last one. -/
theorem attempted_eq_iff (o : MsgKey → SendCalls) (ms : List ScheduledMessage) :
    (sendAll o ms).attempted = ms.map ScheduledMessage.id ↔
      ∀ m ∈ ms.dropLast, ¬ (o m.id).Escapes := by
  induction ms with
  | nil => simp [sendAll]
  | cons m ms ih =>
    cases ms with
    | nil =>
      -- the last message is attempted whatever comes of it
      by_cases h : (o m.id).Escapes
      · simp [(sendAll_of_escapes h).1]
      · rw [(sendAll_of_not_escapes h).1]
        simp [sendAll]
    | cons m' ms =>
      rw [List.dropLast_cons_cons, List.forall_mem_cons, ← ih, List.map_cons]
      by_cases h : (o m.id).Escapes
      · rw [(sendAll_of_escapes h).1]
        exact iff_of_false (by simp) fun hall => hall.1 h
      · rw [(sendAll_of_not_escapes h).1, List.cons_inj_right]
        exact (and_iff_right h).symm

/-- The saves are of messages of the batch. -/
theorem mem_sendAll_saves {c : SaveCall} (hc : c ∈ (sendAll o ms).saves) :
    c.version.id ∈ ms.map ScheduledMessage.id := by
  induction ms with
  | nil => cases hc
  | cons m ms ih =>
    rw [List.map_cons, List.mem_cons]
    by_cases h : (o m.id).Escapes
    · rw [(sendAll_of_escapes h).2] at hc
      exact .inl (sendMessage_saves m _ hc).1
    · rw [(sendAll_of_not_escapes h).2, List.mem_append] at hc
      exact hc.imp (fun hfirst => (sendMessage_saves m _ hfirst).1) ih

/-- Where every message is attempted, a message ends as its own saves have it. -/
theorem finalStatus_eq (hnodup : (ms.map ScheduledMessage.id).Nodup)
    (hquiet : ∀ m ∈ ms.dropLast, ¬ (o m.id).Escapes) (hm : m ∈ ms) :
    (sendAll o ms).finalStatus m.id =
      statusAfter m.id (.val .processing) (sendMessage m (o m.id)).saves := by
  induction ms with
  | nil => cases hm
  | cons m' ms ih =>
    rw [List.map_cons, List.nodup_cons] at hnodup
    have hlater : ∀ c ∈ (sendAll o ms).saves, c.version.id ≠ m'.id := fun c hc hid =>
      hnodup.1 (hid ▸ mem_sendAll_saves hc)
    rw [BatchRun.finalStatus]
    rcases List.mem_cons.mp hm with rfl | hm
    · -- the saves after its own are of other messages
      by_cases h : (o m.id).Escapes
      · rw [(sendAll_of_escapes h).2]
      · rw [(sendAll_of_not_escapes h).2, statusAfter_append, statusAfter_of_ne hlater]
    · obtain ⟨m'', ms', rfl⟩ : ∃ m'' ms', ms = m'' :: ms' := by
        cases ms with
        | nil => cases hm
        | cons m'' ms' => exact ⟨m'', ms', rfl⟩
      rw [List.dropLast_cons_cons, List.forall_mem_cons] at hquiet
      have hne : m'.id ≠ m.id := fun hid =>
        hnodup.1 (hid ▸ List.mem_map_of_mem (f := ScheduledMessage.id) hm)
      -- and so are those before
      have hfirst : ∀ c ∈ (sendMessage m' (o m'.id)).saves, c.version.id ≠ m.id := by
        intro c hc
        rw [(sendMessage_saves m' _ hc).1]
        exact hne
      rw [(sendAll_of_not_escapes hquiet.1).2, statusAfter_append, statusAfter_of_ne hfirst]
      exact ih hnodup.2 hquiet.2 hm

end Loop

/-- A batch is attempted message by message, each once, exactly when it is
attempted as a whole. -/
theorem attempted_once_iff (batch : ClaimedBatch) (o : MsgKey → SendCalls) :
    (∀ m ∈ batch.messages, (sendAll o batch.messages).attempted.count m.id = 1) ↔
      (sendAll o batch.messages).attempted = batch.messages.map ScheduledMessage.id := by
  constructor
  · intro hcount
    obtain ⟨later, hlater⟩ := attempted_prefix o batch.messages
    cases later with
    | nil => rwa [List.append_nil] at hlater
    | cons key later =>
      -- a message left over is attempted nowhere, as no message comes twice
      have hmem : key ∈ batch.messages.map ScheduledMessage.id := by
        rw [← hlater]
        exact List.mem_append_right _ List.mem_cons_self
      obtain ⟨m, hm, rfl⟩ := List.mem_map.mp hmem
      have hattempted : m.id ∈ (sendAll o batch.messages).attempted := by
        rw [← List.one_le_count_iff, hcount m hm]
      have hnodup := batch.nodup
      rw [← hlater] at hnodup
      exact (List.disjoint_of_nodup_append hnodup hattempted List.mem_cons_self).elim
  · intro hall m hm
    rw [hall]
    exact List.count_eq_one_of_mem batch.nodup (List.mem_map_of_mem hm)

/-- **Isolation.** Under two assignments of outcomes the messages of a batch do
not affect one another exactly when, under neither, an error escapes from a
message that is not the last. -/
theorem batchIsolated_iff (batch : ClaimedBatch) (o o' : MsgKey → SendCalls) :
    BatchIsolated batch o o' ↔
      ∀ m ∈ batch.messages.dropLast, ¬ (o m.id).Escapes ∧ ¬ (o' m.id).Escapes := by
  constructor
  · intro h m hm
    have hquiet := (attempted_eq_iff o _).mp ((attempted_once_iff batch o).mp h.attempted)
    have hquiet' := (attempted_eq_iff o' _).mp ((attempted_once_iff batch o').mp h.attempted')
    exact ⟨hquiet m hm, hquiet' m hm⟩
  · intro h
    -- then the loop comes to every message, and its status is that of its own saves
    have hquiet := fun m hm => (h m hm).1
    have hquiet' := fun m hm => (h m hm).2
    refine ⟨?_, ?_, fun m hm hsame => ?_⟩
    · exact (attempted_once_iff batch o).mpr ((attempted_eq_iff o _).mpr hquiet)
    · exact (attempted_once_iff batch o').mpr ((attempted_eq_iff o' _).mpr hquiet')
    · rw [finalStatus_eq batch.nodup hquiet hm, finalStatus_eq batch.nodup hquiet' hm, hsame]

/-- Two messages of one batch. -/
def twoMessages : ClaimedBatch where
  messages := [arrivedMessage, { arrivedMessage with id := .val "msg-2" }]
  nodup := by decide

/-- The database is gone: the call of the first message is rejected and its
FAILED is not saved. -/
def databaseGone : SendCalls where
  call := some (.obj [("code", .num 3)])
  saveSent := .done
  saveError := .threw (.obj [("code", .str "ECONNREFUSED")]) false

/-- A call and a save without trouble. -/
def delivered : SendCalls where
  call := none
  saveSent := .done
  saveError := .done

/-- The second message is not attempted, because of the saves of the first. -/
theorem first_message_stops_second :
    (sendAll (fun key => if key = .val "msg-1" then databaseGone else delivered)
        twoMessages.messages).attempted = [.val "msg-1"] ∧
      ¬ BatchIsolated twoMessages
        (fun key => if key = .val "msg-1" then databaseGone else delivered)
        (fun _ => delivered) := by
  refine ⟨by decide, fun h => ?_⟩
  have hattempted := h.attempted { arrivedMessage with id := .val "msg-2" } (by simp [twoMessages])
  revert hattempted
  decide

/-! ## In the system -/

/-- The rows an UPDATE answers are among those it visited, in that order. -/
theorem claimRows_ids (t : Table) (visit : List Id) :
    ((claimRows t visit).2.map Row.id).Sublist visit := by
  induction visit generalizing t with
  | nil => exact List.Sublist.slnil
  | cons i visit ih =>
    cases hclaim : claimRow t i with
    | none =>
      rw [claimRows_cons_of_none visit hclaim]
      exact (ih t).cons i
    | some p =>
      obtain ⟨t', r'⟩ := p
      obtain ⟨r, hid, hclaimed⟩ := claimRow_spec hclaim
      have hid' : r'.id = i := hclaimed.id_eq.trans hid
      rw [claimRows_cons_of_some visit hclaim, List.map_cons, hid']
      exact (ih t').cons_cons i

/-- The batch that `claimDueMessages` answers: the UPDATE visits a row once. -/
def claimedBatch (P : Platform) (t : Table) (visit : List Id) (hvisit : visit.Nodup) :
    ClaimedBatch where
  messages := (claimDueMessages P t visit).2
  nodup := by
    have hids : ((claimDueMessages P t visit).2.map ScheduledMessage.id) =
        ((claimRows t visit).2.map Row.id).map Slot.val := by
      simp only [claimDueMessages, List.map_map]
      exact List.map_congr_left fun r _ => P.materialize_id r
    rw [hids]
    exact (hvisit.sublist (claimRows_ids t visit)).map fun a b => Slot.val.inj

/-- The steps of tick `t` over the messages left. -/
def batchEvents (t : TickId) (o : MsgKey → SendCalls) : List ScheduledMessage → List Event
  | [] => []
  | m :: rest =>
    sendEvents t (o m.id) ++
      if (sendMessage m (o m.id)).thrown.isSome then [] else batchEvents t o rest

/-- The same in the order of the calls. -/
theorem storeAll_append (table : Table) (xs ys : List SaveCall) :
    storeAll table (xs ++ ys) = (storeAll table xs).bind fun table' => storeAll table' ys := by
  induction xs generalizing table with
  | nil => rfl
  | cons x xs ih =>
    rw [List.cons_append, storeAll_cons table x xs, storeAll_cons, Option.bind_assoc]
    exact congrArg _ (funext ih)

/-- **The system's steps.** A tick that has claimed a batch does what `sendAll`
does, and releases the lock. -/
theorem exec_batchEvents {P : Platform} {s : Sys} {t : TickId} {o : MsgKey → SendCalls}
    {ms : List ScheduledMessage} {table : Table} (hphase : s.phase t = .loop ms)
    (hstore : storeAll s.table (sendAll o ms).saves = some table) :
    ∃ s', (machine P).exec s (batchEvents t o ms) = some s' ∧ s'.table = table ∧
      s'.phase t = .releasing := by
  induction ms generalizing s with
  | nil => exact ⟨s, rfl, Option.some.inj hstore, hphase⟩
  | cons m ms ih =>
    cases hthrown : (sendMessage m (o m.id)).thrown with
    | some error =>
      -- the loop ends here
      have hescapes : (o m.id).Escapes := by
        by_contra hquiet
        rw [(sendMessage_thrown m _).mpr hquiet] at hthrown
        cases hthrown
      rw [(sendAll_of_escapes hescapes).2] at hstore
      obtain ⟨s', hexec, htable, hphase'⟩ := exec_sendEvents (P := P) hphase hstore
      rw [Sending.next, hthrown] at hphase'
      refine ⟨s', ?_, htable, hphase'⟩
      rw [batchEvents, hthrown]
      simpa using hexec
    | none =>
      -- it goes on with the table as the message's saves leave it
      have hquiet := (sendMessage_thrown m (o m.id)).mp hthrown
      rw [(sendAll_of_not_escapes hquiet).2, storeAll_append, Option.bind_eq_some_iff] at hstore
      obtain ⟨table₁, hfirst, hstore⟩ := hstore
      obtain ⟨s₁, hexec, htable, hphase₁⟩ := exec_sendEvents (P := P) hphase hfirst
      rw [Sending.next, hthrown] at hphase₁
      rw [← htable] at hstore
      obtain ⟨s', hexec', htable', hphase'⟩ := ih hphase₁ hstore
      refine ⟨s', ?_, htable', hphase'⟩
      rw [batchEvents, hthrown, Machine.exec_append, hexec]
      exact hexec'

end SchedulingService.Messages
