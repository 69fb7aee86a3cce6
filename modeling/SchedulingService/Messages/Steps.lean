import SchedulingService.Messages.System

/-!
# What one step of the system can do

`Step` lists the possible steps, one constructor for each way an event can go,
with everything that was checked; `step_spec` says `step` does nothing else.
All invariants are read off `Step`.

`Wf` collects what the code between two awaits guarantees of the entities in
flight (`wf_of_reachable`).
-/

namespace SchedulingService.Messages

open Js

/-! ## Frame lemmas -/

namespace Sys

variable (s : Sys) (t : TickId) (p : Phase) (r : ReqId) (q : Request)

@[simp] theorem goto_now : (s.goto t p).now = s.now := rfl
@[simp] theorem goto_table : (s.goto t p).table = s.table := rfl
@[simp] theorem goto_lock : (s.goto t p).lock = s.lock := rfl
@[simp] theorem goto_lockedAt : (s.goto t p).lockedAt = s.lockedAt := rfl
@[simp] theorem goto_request : (s.goto t p).request = s.request := rfl
@[simp] theorem goto_trace : (s.goto t p).trace = s.trace := rfl
@[simp] theorem goto_phase : (s.goto t p).phase = Function.update s.phase t p := rfl

@[simp] theorem reply_now : (s.reply r q).now = s.now := rfl
@[simp] theorem reply_table : (s.reply r q).table = s.table := rfl
@[simp] theorem reply_lock : (s.reply r q).lock = s.lock := rfl
@[simp] theorem reply_lockedAt : (s.reply r q).lockedAt = s.lockedAt := rfl
@[simp] theorem reply_phase : (s.reply r q).phase = s.phase := rfl
@[simp] theorem reply_trace : (s.reply r q).trace = s.trace := rfl
@[simp] theorem reply_request : (s.reply r q).request = Function.update s.request r q := rfl

end Sys

/-! ## The steps -/

inductive Step (P : Platform) (s : Sys) : Event → Sys → Prop
  | elapse {ms : Nat} : Step P s (.elapse ms) { s with now := s.now + ms }
  | acquire {t : TickId} {k : Lease.Key TickId Pod} : s.phase t = .idle →
      Lease.setNX s.now LOCK_TTL_MS t.pod t s.lock = some k →
      Step P s (.acquire t) { s.goto t .locked with
        lock := some k
        lockedAt := Function.update s.lockedAt t (some s.now) }
  | acquireRefused {t : TickId} : s.phase t = .idle →
      Lease.setNX s.now LOCK_TTL_MS t.pod t s.lock = none →
      Step P s (.acquire t) (s.goto t .finished)
  | acquireError {t : TickId} : s.phase t = .idle →
      Step P s (.acquireError t false) (s.goto t .finished)
  | acquireLost {t : TickId} {k : Lease.Key TickId Pod} : s.phase t = .idle →
      Lease.setNX s.now LOCK_TTL_MS t.pod t s.lock = some k →
      Step P s (.acquireError t true) { s.goto t .finished with lock := some k }
  | select {t : TickId} {T now : Int} {order : List Id} : s.phase t = .locked →
      s.lockedAt t = some T → T ≤ now → now ≤ s.now → Selects s.table now order →
      Step P s (.select t now order) (s.goto t (.claiming now (candidateIds order) []))
  | claimRow {t : TickId} {i : Id} {now : Int} {ids : List Id} {raw : List Row}
      {table : Table} {r : Row} :
      s.phase t = .claiming now ids raw → i ∈ ids → claimRow s.table i = some (table, r) →
      Step P s (.claimRow t i)
        { s.goto t (.claiming now (ids.erase i) (raw ++ [r])) with table }
  | missRow {t : TickId} {i : Id} {now : Int} {ids : List Id} {raw : List Row} :
      s.phase t = .claiming now ids raw → i ∈ ids →
      Messages.claimRow s.table i = none →
      Step P s (.claimRow t i) (s.goto t (.claiming now (ids.erase i) raw))
  | claimed {t : TickId} {now : Int} {raw : List Row} : s.phase t = .claiming now [] raw →
      Step P s (.claimed t) (s.goto t (.loop (raw.map P.materialize)))
  | claimError {t : TickId} :
      (s.phase t = .locked ∨ ∃ now ids, s.phase t = .claiming now ids []) →
      Step P s (.claimError t) (s.goto t .releasing)
  | send {t : TickId} {m : ScheduledMessage} {rest : List ScheduledMessage} :
      s.phase t = .sending m rest →
      Step P s (.send t) { s.goto t (.calling m rest) with
        trace := .called m.id (sendRequest m) s.now :: s.trace }
  | ack {t : TickId} {m : ScheduledMessage} {rest : List ScheduledMessage} :
      s.phase t = .calling m rest →
      Step P s (.ack t) { s.goto t (.saving (onSent m) .afterSend rest) with
        trace := .acked m.id :: s.trace }
  | sendError {t : TickId} {error : Value} {m : ScheduledMessage}
      {rest : List ScheduledMessage} : s.phase t = .calling m rest →
      Step P s (.sendError t error)
        (s.goto t (.saving (onSendError error m) (.onError error) rest))
  | saved {t : TickId} {m : ScheduledMessage} {site : SaveSite}
      {rest : List ScheduledMessage} {table : Table} {r r' : Row} :
      s.phase t = .saving m site rest → Saved s.table m table r r' →
      Step P s (.saved t) { s.goto t (afterSave site rest) with table }
  | saveError {t : TickId} {error : Value} {m : ScheduledMessage} {site : SaveSite}
      {rest : List ScheduledMessage} : s.phase t = .saving m site rest →
      Step P s (.saveError t error) (s.goto t (afterSaveError m error site rest))
  | release {t : TickId} {reached : Bool} : s.phase t = .releasing →
      Step P s (.release t reached) { s.goto t .finished with
        lock := if reached then Lease.compareAndDelete s.now t.pod s.lock else s.lock }
  | crash {t : TickId} : (s.phase t).running = true →
      Step P s (.crash t) (s.goto t .crashed)
  | create {r : ReqId} {userId : Slot Id} {dto : CreateScheduledMessageDto}
      {m : ScheduledMessage} : s.request r = .idle →
      createMessage P s.now userId dto = .ok m →
      Step P s (.create r userId dto) (s.reply r (.creating m))
  | createRejected {r : ReqId} {userId : Slot Id} {dto : CreateScheduledMessageDto} :
      s.request r = .idle → Step P s (.create r userId dto) (s.reply r .rejected)
  | find {r : ReqId} {id : Id} {userId : Slot Id} {change : Change}
      {m : ScheduledMessage} : s.request r = .idle →
      findOwnedOrThrow s.table id userId = .ok m →
      Step P s (.find r id userId change) (s.reply r (.loaded change m))
  | findRejected {r : ReqId} {id : Id} {userId : Slot Id} {change : Change} :
      s.request r = .idle → Step P s (.find r id userId change) (s.reply r .rejected)
  | check {r : ReqId} {change : Change} {m m' : ScheduledMessage} :
      s.request r = .loaded change m → change.apply P s.now m = .ok m' →
      Step P s (.check r) (s.reply r (.saving change m'))
  | checkRejected {r : ReqId} {change : Change} {m : ScheduledMessage} :
      s.request r = .loaded change m → Step P s (.check r) (s.reply r .rejected)
  | inserted {r : ReqId} {fresh : Id} {m : ScheduledMessage} {table : Table} {row : Row} :
      s.request r = .creating m → Inserted s.table m table row →
      Step P s (.requestSaved r fresh) { s.reply r .resolved with
        table
        trace := .created (.val row.id) row.edit :: s.trace }
  | requestSaved {r : ReqId} {fresh : Id} {change : Change} {m : ScheduledMessage}
      {table : Table} {row row' : Row} :
      s.request r = .saving change m → Saved s.table m table row row' →
      Step P s (.requestSaved r fresh) { s.reply r .resolved with
        table
        trace := change.obs P m.id :: s.trace }
  | requestError {r : ReqId} : Step P s (.requestError r) (s.reply r .rejected)

/-- The machine makes these steps only. -/
theorem step_spec {P : Platform} {s s' : Sys} {e : Event} (h : step P s e = some s') :
    Step P s e s' := by
  cases e with
  | elapse ms =>
    obtain rfl := Option.some.inj h
    exact .elapse
  | acquire t =>
    rw [step] at h
    split at h
    · rename_i hph
      split at h
      · rename_i k hk
        obtain rfl := Option.some.inj h
        exact .acquire hph hk
      · rename_i hk
        obtain rfl := Option.some.inj h
        exact .acquireRefused hph hk
    · exact absurd h (by simp)
  | acquireError t stored =>
    cases hph : s.phase t with
    | idle =>
      cases stored with
      | false =>
        simp only [step, hph, Option.some.injEq] at h
        obtain rfl := h
        exact .acquireError hph
      | true =>
        simp only [step, hph] at h
        split at h
        · rename_i k hk
          obtain rfl := Option.some.inj h
          exact .acquireLost hph hk
        · exact absurd h (by simp)
    | _ => simp [step, hph] at h
  | select t now order =>
    rw [step] at h
    split at h
    · rename_i hph
      rw [Option.ite_none_right_eq_some] at h
      obtain ⟨⟨⟨T, hT, hle⟩, hnow, hsel⟩, h⟩ := h
      obtain rfl := Option.some.inj h
      exact .select hph hT hle hnow hsel
    · exact absurd h (by simp)
  | claimRow t i =>
    rw [step] at h
    split at h
    · rename_i now ids raw hph
      rw [Option.ite_none_right_eq_some] at h
      obtain ⟨hi, h⟩ := h
      split at h
      · rename_i table r hr
        obtain rfl := Option.some.inj h
        exact .claimRow hph hi hr
      · rename_i hr
        obtain rfl := Option.some.inj h
        exact .missRow hph hi hr
    · exact absurd h (by simp)
  | claimed t =>
    rw [step] at h
    split at h
    · rename_i now raw hph
      obtain rfl := Option.some.inj h
      exact .claimed hph
    · exact absurd h (by simp)
  | claimError t =>
    rw [step] at h
    split at h
    · rename_i hph
      obtain rfl := Option.some.inj h
      exact .claimError (.inl hph)
    · rename_i now ids hph
      obtain rfl := Option.some.inj h
      exact .claimError (.inr ⟨now, ids, hph⟩)
    · exact absurd h (by simp)
  | send t =>
    rw [step] at h
    split at h
    · rename_i m rest hph
      obtain rfl := Option.some.inj h
      exact .send hph
    · exact absurd h (by simp)
  | ack t =>
    rw [step] at h
    split at h
    · rename_i m rest hph
      obtain rfl := Option.some.inj h
      exact .ack hph
    · exact absurd h (by simp)
  | sendError t error =>
    rw [step] at h
    split at h
    · rename_i m rest hph
      obtain rfl := Option.some.inj h
      exact .sendError hph
    · exact absurd h (by simp)
  | saved t =>
    rw [step] at h
    split at h
    · rename_i m site rest hph
      split at h
      · rename_i table hsave
        obtain rfl := Option.some.inj h
        obtain ⟨r, r', hsaved⟩ := save_spec hsave
        exact .saved hph hsaved
      · exact absurd h (by simp)
    · exact absurd h (by simp)
  | saveError t error =>
    rw [step] at h
    split at h
    · rename_i m site rest hph
      obtain rfl := Option.some.inj h
      exact .saveError hph
    · exact absurd h (by simp)
  | release t reached =>
    rw [step] at h
    split at h
    · rename_i hph
      obtain rfl := Option.some.inj h
      exact .release hph
    · exact absurd h (by simp)
  | crash t =>
    rw [step, Option.ite_none_right_eq_some] at h
    obtain ⟨hph, h⟩ := h
    obtain rfl := Option.some.inj h
    exact .crash hph
  | create r userId dto =>
    rw [step] at h
    split at h
    · rename_i hreq
      split at h
      · rename_i m hm
        obtain rfl := Option.some.inj h
        exact .create hreq hm
      · obtain rfl := Option.some.inj h
        exact .createRejected hreq
    · exact absurd h (by simp)
  | find r id userId change =>
    rw [step] at h
    split at h
    · rename_i hreq
      split at h
      · rename_i m hm
        obtain rfl := Option.some.inj h
        exact .find hreq hm
      · obtain rfl := Option.some.inj h
        exact .findRejected hreq
    · exact absurd h (by simp)
  | check r =>
    rw [step] at h
    split at h
    · rename_i change m hreq
      split at h
      · rename_i m' hm
        obtain rfl := Option.some.inj h
        exact .check hreq hm
      · obtain rfl := Option.some.inj h
        exact .checkRejected hreq
    · exact absurd h (by simp)
  | requestSaved r fresh =>
    rw [step] at h
    split at h
    · rename_i m hreq
      split at h
      · rename_i table row hins
        obtain rfl := Option.some.inj h
        exact .inserted hreq (insertNew_spec hins).2
      · exact absurd h (by simp)
    · rename_i change m hreq
      split at h
      · rename_i table hsave
        obtain rfl := Option.some.inj h
        obtain ⟨row, row', hsaved⟩ := save_spec hsave
        exact .requestSaved hreq hsaved
      · exact absurd h (by simp)
    · exact absurd h (by simp)
  | requestError r =>
    rw [step] at h
    split at h
    · obtain rfl := Option.some.inj h
      exact .requestError
    · obtain rfl := Option.some.inj h
      exact .requestError
    · exact absurd h (by simp)

/-- A step moves one tick only. -/
theorem phase_frame {P : Platform} {s s' : Sys} {e : Event} (hs : Step P s e s')
    {t : TickId} (ht : e.tick ≠ some t) : s'.phase t = s.phase t := by
  cases hs <;> first | rfl | exact Function.update_of_ne (fun h => ht (congrArg some h.symm)) _ _

theorem exec_phase_frame {P : Platform} {s s' : Sys} {es : List Event} {t : TickId}
    (ht : ∀ e ∈ es, e.tick ≠ some t) (h : (machine P).exec s es = some s') :
    s'.phase t = s.phase t := by
  induction es generalizing s with
  | nil =>
    obtain rfl := Option.some.inj h
    rfl
  | cons e es ih =>
    rw [Machine.exec, Option.bind_eq_some_iff] at h
    obtain ⟨s₁, hs, hrest⟩ := h
    -- the tick takes no part in the first event, nor in the rest
    rw [ih (fun e' he' => ht e' (List.mem_cons_of_mem e he')) hrest]
    exact phase_frame (step_spec hs) (ht e List.mem_cons_self)

/-! ## One row -/

/-- What a step did to the row under `i`. -/
inductive RowStep (s : Sys) (i : Id) (r : Row) : Event → Row → Prop
  | same {e : Event} : RowStep s i r e r
  | claim {t : TickId} {now : Int} {ids : List Id} {raw : List Row} :
      s.phase t = .claiming now ids raw → i ∈ ids → r.status = .pending →
      RowStep s i r (.claimRow t i) { r with status := .processing }
  | tick {t : TickId} {m : ScheduledMessage} {site : SaveSite}
      {rest : List ScheduledMessage} {r' : Row} : s.phase t = .saving m site rest →
      m.id = .val i → Overwritten m r r' → RowStep s i r (.saved t) r'
  | owner {q : ReqId} {fresh : Id} {change : Change} {m : ScheduledMessage} {r' : Row} :
      s.request q = .saving change m → m.id = .val i → Overwritten m r r' →
      RowStep s i r (.requestSaved q fresh) r'

/-- No row disappears, and a row changes in three ways only. -/
theorem row_step {P : Platform} {s s' : Sys} {e : Event} (hs : Step P s e s') {i : Id}
    {r : Row} (hr : s.table.get i = some r) :
    ∃ r', s'.table.get i = some r' ∧ RowStep s i r e r' := by
  cases hs with
  | @claimRow t j now ids raw table q' hph hj hq =>
    obtain ⟨q, rfl, hclaim⟩ := claimRow_spec hq
    by_cases hi : i = q.id
    · subst hi
      obtain rfl := Option.some.inj (hclaim.before.symm.trans hr)
      refine ⟨q', hclaim.get_self, ?_⟩
      rw [hclaim.row_eq]
      exact .claim hph hj hclaim.wasPending
    · exact ⟨r, (hclaim.get_of_ne hi).trans hr, .same⟩
  | @saved t m site rest table q q' hph hsaved =>
    by_cases hi : i = q.id
    · subst hi
      obtain rfl := Option.some.inj (hsaved.before.symm.trans hr)
      exact ⟨q', hsaved.get_self, .tick hph hsaved.key hsaved.toOverwritten⟩
    · exact ⟨r, (hsaved.get_of_ne hi).trans hr, .same⟩
  | @inserted q fresh m table row hreq hins =>
    -- an inserted row is new, so it is not the one under `i`
    have hi : i ≠ row.id := by
      rintro rfl
      rw [hins.fresh] at hr
      exact absurd hr (by simp)
    exact ⟨r, by rw [← hr]; exact (hins.after i).trans (if_neg hi), .same⟩
  | @requestSaved r₀ fresh change m table q q' hreq hsaved =>
    by_cases hi : i = q.id
    · subst hi
      obtain rfl := Option.some.inj (hsaved.before.symm.trans hr)
      exact ⟨q', hsaved.get_self, .owner hreq hsaved.key hsaved.toOverwritten⟩
    · exact ⟨r, (hsaved.get_of_ne hi).trans hr, .same⟩
  | _ => exact ⟨r, hr, .same⟩

/-- A row appears by a create's save only. -/
theorem row_appears {P : Platform} {s s' : Sys} {e : Event} (hs : Step P s e s') {i : Id}
    {r' : Row} (hr : s.table.get i = none) (hr' : s'.table.get i = some r') :
    ∃ q fresh m, e = .requestSaved q fresh ∧ s.request q = .creating m ∧ r'.id = i ∧
      Inserted s.table m s'.table r' ∧ s'.trace = .created (.val i) r'.edit :: s.trace := by
  have hlost : ∀ t : Table, t = s.table → t.get i ≠ some r' := by
    rintro t rfl h
    rw [hr] at h
    exact absurd h (by simp)
  -- the events that write the table are the ones that may have made the row
  cases hs with
  | @claimRow t j now ids raw table q' hph hj hq =>
    obtain ⟨q, rfl, hclaim⟩ := claimRow_spec hq
    by_cases hi : i = q.id
    · rw [hi, hclaim.before] at hr
      exact absurd hr (by simp)
    · exact absurd ((hclaim.get_of_ne hi).symm.trans hr') (hlost _ rfl)
  | @saved t m site rest table q q' hph hsaved =>
    by_cases hi : i = q.id
    · rw [hi, hsaved.before] at hr
      exact absurd hr (by simp)
    · exact absurd ((hsaved.get_of_ne hi).symm.trans hr') (hlost _ rfl)
  | @inserted q fresh m table row hreq hins =>
    by_cases hi : i = row.id
    · subst hi
      have hrow : r' = row := by
        have hget : table.get row.id = some row := (hins.after _).trans (if_pos rfl)
        exact Option.some.inj (hr'.symm.trans hget)
      subst hrow
      exact ⟨q, fresh, m, rfl, hreq, rfl, hins, rfl⟩
    · exact absurd (((hins.after i).trans (if_neg hi)).symm.trans hr') (hlost _ rfl)
  | @requestSaved r₀ fresh change m table q q' hreq hsaved =>
    by_cases hi : i = q.id
    · rw [hi, hsaved.before] at hr
      exact absurd hr (by simp)
    · exact absurd ((hsaved.get_of_ne hi).symm.trans hr') (hlost _ rfl)
  | _ => exact absurd hr' (hlost _ rfl)

theorem requestSaved_or_quiet (e : Event) :
    (∃ q fresh, e = .requestSaved q fresh) ∨ ∀ q fresh, e ≠ .requestSaved q fresh := by
  cases e with
  | requestSaved q fresh => exact .inl ⟨q, fresh, rfl⟩
  | _ => exact .inr fun _ _ => Event.noConfusion

/-- Away from the save of a request, every row was there before. -/
theorem row_quiet {P : Platform} {s s' : Sys} {e : Event} (hs : Step P s e s')
    (he : ∀ q fresh, e ≠ .requestSaved q fresh) {i : Id} {r' : Row}
    (hr' : s'.table.get i = some r') : ∃ r, s.table.get i = some r ∧ RowStep s i r e r' := by
  cases hr : s.table.get i with
  | none =>
    obtain ⟨q, fresh, -, h, -⟩ := row_appears hs hr hr'
    exact absurd h (he q fresh)
  | some r =>
    obtain ⟨q, hq, hrow⟩ := row_step hs hr
    obtain rfl := Option.some.inj (hq.symm.trans hr')
    exact ⟨r, rfl, hrow⟩

/-! ## One tick -/

/-- What a step did to the tick `t`. -/
inductive PhaseStep (P : Platform) (s s' : Sys) (t : TickId) : Event → Phase → Phase → Prop
  | acquire : PhaseStep P s s' t (.acquire t) .idle .locked
  | acquireRefused : PhaseStep P s s' t (.acquire t) .idle .finished
  | acquireError {stored : Bool} : PhaseStep P s s' t (.acquireError t stored) .idle .finished
  | select {now : Int} {order : List Id} : now ≤ s.now → Selects s.table now order →
      PhaseStep P s s' t (.select t now order) .locked (.claiming now (candidateIds order) [])
  | claimRow {now : Int} {i : Id} {ids : List Id} {raw : List Row}
      {r r' : Row} : i ∈ ids → Claimed s.table s'.table r r' → r.id = i →
      PhaseStep P s s' t (.claimRow t i) (.claiming now ids raw)
        (.claiming now (ids.erase i) (raw ++ [r']))
  | missRow {now : Int} {i : Id} {ids : List Id} {raw : List Row} :
      PhaseStep P s s' t (.claimRow t i) (.claiming now ids raw)
        (.claiming now (ids.erase i) raw)
  | claimed {now : Int} {raw : List Row} :
      PhaseStep P s s' t (.claimed t) (.claiming now [] raw) (.loop (raw.map P.materialize))
  | claimError {p : Phase} : PhaseStep P s s' t (.claimError t) p .releasing
  | send {m : ScheduledMessage} {rest : List ScheduledMessage} :
      PhaseStep P s s' t (.send t) (.sending m rest) (.calling m rest)
  | ack {m : ScheduledMessage} {rest : List ScheduledMessage} :
      PhaseStep P s s' t (.ack t) (.calling m rest) (.saving (onSent m) .afterSend rest)
  | sendError {error : Value} {m : ScheduledMessage} {rest : List ScheduledMessage} :
      PhaseStep P s s' t (.sendError t error) (.calling m rest)
        (.saving (onSendError error m) (.onError error) rest)
  | saved {m : ScheduledMessage} {site : SaveSite} {rest : List ScheduledMessage} :
      PhaseStep P s s' t (.saved t) (.saving m site rest) (afterSave site rest)
  | saveError {error : Value} {m : ScheduledMessage} {site : SaveSite}
      {rest : List ScheduledMessage} :
      PhaseStep P s s' t (.saveError t error) (.saving m site rest)
        (afterSaveError m error site rest)
  | release {reached : Bool} : PhaseStep P s s' t (.release t reached) .releasing .finished
  | crash {p : Phase} : PhaseStep P s s' t (.crash t) p .crashed

theorem phase_step_of_update {P : Platform} {s s' : Sys} {e : Event} {t : TickId} {p : Phase}
    (hphase : s'.phase = Function.update s.phase t p) (h : PhaseStep P s s' t e (s.phase t) p)
    (u : TickId) :
    s'.phase u = s.phase u ∨ PhaseStep P s s' u e (s.phase u) (s'.phase u) := by
  by_cases hu : u = t
  · subst hu
    right
    rwa [hphase, Function.update_self]
  · left
    rw [hphase, Function.update_of_ne hu]

theorem phase_step {P : Platform} {s s' : Sys} {e : Event} (hs : Step P s e s')
    (u : TickId) : s'.phase u = s.phase u ∨ PhaseStep P s s' u e (s.phase u) (s'.phase u) := by
  cases hs with
  | acquire hph => exact phase_step_of_update rfl (by rw [hph]; exact .acquire) u
  | acquireRefused hph => exact phase_step_of_update rfl (by rw [hph]; exact .acquireRefused) u
  | acquireError hph | acquireLost hph =>
    exact phase_step_of_update rfl (by rw [hph]; exact .acquireError) u
  | select hph hT hle hnow hsel =>
    exact phase_step_of_update rfl (by rw [hph]; exact .select hnow hsel) u
  | claimRow hph hi hr =>
    obtain ⟨r, hid, hclaim⟩ := claimRow_spec hr
    exact phase_step_of_update rfl (by rw [hph]; exact .claimRow hi hclaim hid) u
  | missRow hph => exact phase_step_of_update rfl (by rw [hph]; exact .missRow) u
  | claimed hph => exact phase_step_of_update rfl (by rw [hph]; exact .claimed) u
  | claimError => exact phase_step_of_update rfl .claimError u
  | send hph => exact phase_step_of_update rfl (by rw [hph]; exact .send) u
  | ack hph => exact phase_step_of_update rfl (by rw [hph]; exact .ack) u
  | sendError hph => exact phase_step_of_update rfl (by rw [hph]; exact .sendError) u
  | saved hph => exact phase_step_of_update rfl (by rw [hph]; exact .saved) u
  | saveError hph => exact phase_step_of_update rfl (by rw [hph]; exact .saveError) u
  | release hph => exact phase_step_of_update rfl (by rw [hph]; exact .release) u
  | crash => exact phase_step_of_update rfl .crash u
  -- the requests' events and `elapse` move no tick
  | _ => exact .inl rfl

/-! ## Entities in flight -/

/-- The status `sendMessage` gave the entity before the save it awaits. -/
def SaveSite.Gave : SaveSite → Slot ScheduledMessageStatus → Prop
  | .afterSend, st => st = .val .sent
  | .onError _, st => st = .val .pending ∨ st = .val .failed

/-- `m'` is what the code of a request made of some entity it loaded. -/
def Change.Gave (P : Platform) (change : Change) (m' : ScheduledMessage) : Prop :=
  ∃ now m, change.apply P now m = .ok m'

/-- Saving an updated entity stores every field the body gave. -/
theorem Updated.has {P : Platform} {now : Int} {dto : UpdateScheduledMessageDto}
    {m₀ m : ScheduledMessage} (hupd : Updated P now dto m₀ m) {r r' : Row}
    (hover : Overwritten m r r') : r'.Has (dto.edit P) := by
  -- each field of the entity is the one the body gave, or the loaded one
  have hc := hover.content
  have hm := hover.metadata
  have ht := hover.scheduledAt
  rw [hupd.content] at hc
  rw [hupd.metadata] at hm
  rw [hupd.scheduledAt] at ht
  refine ⟨fun v hv => ?_, fun v hv => ?_, fun v hv => ?_⟩
  · cases hd : dto.content with
    | undefined | null => simp [UpdateScheduledMessageDto.edit, hd, Slot.toOption] at hv
    | val c =>
      have hcv : c = v := by simpa [UpdateScheduledMessageDto.edit, hd] using hv
      have hcr : c = r'.content := by simpa [hd, writeColumn] using hc
      rw [← hcr, hcv]
  · cases hd : dto.metadata with
    | undefined => simp [UpdateScheduledMessageDto.edit, hd, Slot.isDefined] at hv
    | null | val c =>
      simp only [UpdateScheduledMessageDto.edit, hd, Slot.isDefined, if_true, Slot.toOption,
        Option.some.injEq] at hv
      simp only [hd, Slot.isDefined, if_true, writeNullable] at hm
      rw [← hm, hv]
  · cases hd : dto.newScheduledAt P with
    | none => simp [UpdateScheduledMessageDto.edit, hd] at hv
    | some d =>
      have hdv : timestamp d = some v := by
        simpa [UpdateScheduledMessageDto.edit, hd] using hv
      have hdr : timestamp d = some r'.scheduledAt := by simpa [hd, writeTimestamp] using ht
      exact Option.some.inj (hdr.symm.trans hdv)

theorem Row.has_empty (r : Row) : r.Has .empty :=
  ⟨fun _ hv => absurd hv (by simp [Edit.empty]), fun _ hv => absurd hv (by simp [Edit.empty]),
    fun _ hv => absurd hv (by simp [Edit.empty])⟩

/-- What is saved has every field the request gave. -/
theorem Change.Gave.has {P : Platform} {change : Change} {m : ScheduledMessage}
    (h : change.Gave P m) {r r' : Row} (hover : Overwritten m r r') :
    r'.Has (change.edit P) := by
  obtain ⟨now, m₀, happly⟩ := h
  cases change with
  | update dto => exact (updateMessage_spec happly).has hover
  | cancel => exact r'.has_empty

/-- What the code between two awaits guarantees of what it then awaits. -/
structure Wf (P : Platform) (s : Sys) : Prop where
  unlocked : ∀ t, s.phase t = .idle → s.lockedAt t = none
  saving   : ∀ t m site rest, s.phase t = .saving m site rest → site.Gave m.status
  changing : ∀ r change m, s.request r = .saving change m → change.Gave P m
  creating : ∀ r m, s.request r = .creating m → m.status = .val .pending

theorem onSendError_gave (error : Value) (m : ScheduledMessage) :
    (SaveSite.onError error).Gave (onSendError error m).status := by
  rw [onSendError_status]
  cases canRetry error m with
  | true => exact .inl rfl
  | false => exact .inr rfl

/-- A tick that moves on keeps `Wf` if what it now saves is as it should be. -/
theorem Wf.goto {P : Platform} {s s' : Sys} (hI : Wf P s) {t : TickId} {p : Phase}
    (hphase : s'.phase = Function.update s.phase t p) (hreq : s'.request = s.request)
    (hidle : p ≠ .idle) (hlock : ∀ u, u ≠ t → s'.lockedAt u = s.lockedAt u)
    (hsave : ∀ m site rest, p = .saving m site rest → site.Gave m.status) : Wf P s' := by
  refine ⟨fun u hu => ?_, fun u m site rest hu => ?_,
    fun r change m h => hI.changing r change m (by rwa [hreq] at h),
    fun r m h => hI.creating r m (by rwa [hreq] at h)⟩ <;>
  rw [hphase] at hu <;> by_cases hut : u = t
  · subst hut
    rw [Function.update_self] at hu
    exact absurd hu hidle
  · rw [Function.update_of_ne hut] at hu
    rw [hlock u hut]
    exact hI.unlocked u hu
  · subst hut
    rw [Function.update_self] at hu
    exact hsave m site rest hu
  · rw [Function.update_of_ne hut] at hu
    exact hI.saving u m site rest hu

/-- A request that moves on keeps `Wf` if what it now saves is as it should be. -/
theorem Wf.reply {P : Platform} {s s' : Sys} (hI : Wf P s) {r : ReqId} {q : Request}
    (hreq : s'.request = Function.update s.request r q) (hphase : s'.phase = s.phase)
    (hlock : s'.lockedAt = s.lockedAt)
    (hsave : ∀ change m, q = .saving change m → change.Gave P m)
    (hcreate : ∀ m, q = .creating m → m.status = .val .pending) : Wf P s' := by
  refine ⟨fun u hu => ?_, fun u m site rest hu => ?_, fun u change m hu => ?_,
    fun u m hu => ?_⟩
  · rw [hlock]
    exact hI.unlocked u (by rwa [hphase] at hu)
  · exact hI.saving u m site rest (by rwa [hphase] at hu)
  · rw [hreq] at hu
    by_cases hur : u = r
    · subst hur
      rw [Function.update_self] at hu
      exact hsave change m hu
    · rw [Function.update_of_ne hur] at hu
      exact hI.changing u change m hu
  · rw [hreq] at hu
    by_cases hur : u = r
    · subst hur
      rw [Function.update_self] at hu
      exact hcreate m hu
    · rw [Function.update_of_ne hur] at hu
      exact hI.creating u m hu

theorem wf_step {P : Platform} {s s' : Sys} {e : Event} (hI : Wf P s)
    (hs : Step P s e s') : Wf P s' := by
  cases hs with
  | elapse => exact ⟨hI.unlocked, hI.saving, hI.changing, hI.creating⟩
  | acquire hph hk =>
    exact hI.goto rfl rfl (by simp) (fun u hu => Function.update_of_ne hu _ _) (by simp)
  | acquireRefused | acquireError | acquireLost | select | claimRow | missRow | claimError
  | send | release | crash =>
    exact hI.goto rfl rfl (by simp) (fun _ _ => rfl) (by simp)
  | @claimed t now raw hph =>
    -- the loop starts at `sending` or ends at `releasing`
    refine hI.goto rfl rfl ?_ (fun _ _ => rfl) ?_ <;> cases raw.map P.materialize <;>
      simp [Phase.loop]
  | ack hph =>
    refine hI.goto rfl rfl (by simp) (fun _ _ => rfl) ?_
    intro m site rest h
    obtain ⟨rfl, rfl, -⟩ := Phase.saving.inj h
    rfl
  | sendError hph =>
    refine hI.goto rfl rfl (by simp) (fun _ _ => rfl) ?_
    intro m site rest h
    obtain ⟨rfl, rfl, -⟩ := Phase.saving.inj h
    exact onSendError_gave _ _
  | @saved t m site rest table r r' hph hsaved =>
    -- after a save the tick is in the loop again or releasing
    refine hI.goto rfl rfl ?_ (fun _ _ => rfl) ?_ <;> unfold afterSave <;>
      (split <;> try split) <;> cases rest <;> simp [Phase.loop]
  | @saveError t error m site rest hph =>
    refine hI.goto rfl rfl ?_ (fun _ _ => rfl) ?_
    · cases site <;> simp [afterSaveError]
    · intro m' site' rest' h
      cases site with
      | afterSend =>
        obtain ⟨rfl, rfl, -⟩ := Phase.saving.inj h
        exact onSendError_gave _ _
      | onError error' => simp [afterSaveError] at h
  | create hreq hm =>
    refine hI.reply rfl rfl rfl (by simp) ?_
    intro m h
    obtain rfl := Request.creating.inj h
    obtain ⟨-, rfl⟩ := createMessage_spec hm
    rfl
  | check hreq hm =>
    refine hI.reply rfl rfl rfl ?_ (by simp)
    intro change m h
    obtain ⟨rfl, rfl⟩ := Request.saving.inj h
    exact ⟨_, _, hm⟩
  | createRejected | find | findRejected | checkRejected | inserted | requestSaved
  | requestError =>
    exact hI.reply rfl rfl rfl (by simp) (by simp)

theorem wf_init {P : Platform} {s : Sys} (h : Init s) : Wf P s := by
  obtain ⟨-, hphase, hlock, hreq, -⟩ := h
  refine ⟨fun t _ => hlock t, fun t _ _ _ ht => ?_, fun r _ _ hr => ?_, fun r _ hr => ?_⟩
  · simp [hphase t] at ht
  · simp [hreq r] at hr
  · simp [hreq r] at hr

theorem wf_of_reachable {P : Platform} {C : Sys → Event → Prop} {s : Sys}
    (h : (machine P).Reachable C s) : Wf P s :=
  h.invariant (I := Wf P) (fun _ h₀ => wf_init h₀) fun _ _ _ hI _ hs => wf_step hI (step_spec hs)

end SchedulingService.Messages
