import SchedulingService.Lib.WorkClaim
import SchedulingService.Messages.Steps

/-!
# Ticks as claiming workers

The system seen as the work-claiming pattern: the items are the messages, the
workers the ticks, the third parties the owners. PENDING is free, PROCESSING
is taken, the terminal statuses are closed; a request that saves a loaded
entity overwrites whatever the row has become.

`work_step` — every step of the system is one step of the pattern, of the kind
`WorkEvent` says, or none; `reachable_work` carries the pattern's results over.
-/

namespace SchedulingService.Messages

open Js

/-! ## The abstraction -/

def cellOf : ScheduledMessageStatus → WorkClaim.Cell
  | .pending => .free
  | .processing => .taken
  | _ => .closed

def cell (t : Table) : MsgKey → WorkClaim.Cell
  | .val i => (t.get i).elim .absent fun r => cellOf r.status
  | _ => .absent

/-- How often the messaging service has acknowledged `k`. -/
def acks (trace : List Obs) (k : MsgKey) : Nat :=
  trace.countP fun
    | .acked j => j = k
    | _ => false

def Sys.work (s : Sys) : WorkClaim.State MsgKey TickId where
  cell := cell s.table
  held := Phase.held ∘ s.phase
  settling := Phase.settling ∘ s.phase
  delivered := acks s.trace

theorem cell_eq {t : Table} {i : Id} {r : Row} (h : t.get i = some r) :
    cell t (.val i) = cellOf r.status := by
  simp [cell, h]

theorem cell_eq_free {t : Table} {r : Row} (h : t.get r.id = some r) :
    cell t (.val r.id) = .free ↔ r.status = .pending := by
  rw [cell_eq h]
  cases r.status <;> simp [cellOf]

theorem cell_put {t : Table} {r q : Row} (h : t.get r.id = some q) :
    cell (t.put r) = Function.update (cell t) (.val r.id) (cellOf r.status) := by
  funext k
  cases k with
  | undefined | null => rfl
  | val i =>
    by_cases hi : i = r.id
    · subst hi
      rw [Function.update_self, cell_eq (Keyed.get_put_self h)]
    · rw [Function.update_of_ne (by simpa using hi), cell, cell, Keyed.get_put_of_ne t hi]

/-- What a step of the system is to the pattern. -/
inductive WorkEvent (s : Sys) : Event → WorkClaim.Event MsgKey TickId → Prop
  | add {r : ReqId} {fresh : Id} {k : MsgKey} :
      WorkEvent s (.requestSaved r fresh) (.add k)
  | claim {t : TickId} {i : Id} : WorkEvent s (.claimRow t i) (.claim t (.val i))
  | deliver {t : TickId} : WorkEvent s (.ack t) (.deliver t)
  | refuse {t : TickId} {error : Value} : WorkEvent s (.sendError t error) (.refuse t)
  | settle {t : TickId} {m : ScheduledMessage} {site : SaveSite}
      {rest : List ScheduledMessage} {again goOn : Bool} :
      s.phase t = .saving m site rest → (again = true → m.status = .val .pending) →
      (goOn = false → site.goesOn = false) →
      WorkEvent s (.saved t) (.settle t again goOn)
  | stop {t : TickId} {error error' : Value} {m : ScheduledMessage}
      {rest : List ScheduledMessage} : s.phase t = .saving m (.onError error) rest →
      WorkEvent s (.saveError t error') (.drop t)
  | crash {t : TickId} : WorkEvent s (.crash t) (.drop t)
  | write {r : ReqId} {fresh : Id} {change : Change} {m : ScheduledMessage}
      {again : Bool} : s.request r = .saving change m →
      (again = true → ∃ dto, change = .update dto) →
      WorkEvent s (.requestSaved r fresh) (.write m.id again)

/-! ## The simulation -/

/-- What a tick that moves on is to the pattern, field by field. -/
theorem work_goto {s s' : Sys} {t : TickId} {p : Phase}
    {w : WorkClaim.State MsgKey TickId} (hphase : s'.phase = Function.update s.phase t p)
    (hcell : cell s'.table = w.cell)
    (hheld : Function.update s.work.held t p.held = w.held)
    (hset : Function.update s.work.settling t p.settling = w.settling)
    (hdel : acks s'.trace = w.delivered) : s'.work = w := by
  refine WorkClaim.State.ext hcell ?_ ?_ hdel
  · simp only [← hheld, Sys.work, hphase, Function.comp_update]
  · simp only [← hset, Sys.work, hphase, Function.comp_update]

/-- A tick that moves on without touching table or acknowledgements, holding
what it held, is no step of the pattern. -/
theorem work_goto_eq {s s' : Sys} {t : TickId} {p : Phase}
    (hphase : s'.phase = Function.update s.phase t p) (htable : s'.table = s.table)
    (htrace : acks s'.trace = acks s.trace) (hheld : p.held = (s.phase t).held)
    (hset : p.settling = (s.phase t).settling) : s'.work = s.work := by
  refine work_goto hphase (congrArg cell htable) ?_ ?_ htrace
  · rw [hheld]
    exact Function.update_eq_self t s.work.held
  · rw [hset]
    exact Function.update_eq_self t s.work.settling

/-- The cell a tick's save leaves. -/
theorem SaveSite.Gave.cell {site : SaveSite} {st : Slot ScheduledMessageStatus}
    (h : site.Gave st) : ∃ st', st = .val st' ∧
      cellOf st' = WorkClaim.Cell.ofOutcome (decide (st = .val .pending)) := by
  cases site with
  | afterSend =>
    obtain rfl := h
    exact ⟨_, rfl, rfl⟩
  | onError error =>
    rcases h with rfl | rfl <;> exact ⟨_, rfl, rfl⟩

/-- The cell an owner's save leaves. -/
theorem Change.Gave.cell {P : Platform} {change : Change} {m : ScheduledMessage}
    (h : change.Gave P m) : ∃ st, m.status = .val st ∧
      ∃ again, cellOf st = WorkClaim.Cell.ofOutcome again ∧
        (again = true → ∃ dto, change = .update dto) := by
  obtain ⟨now, m₀, h⟩ := h
  cases change with
  | update dto =>
    have hupd := updateMessage_spec h
    exact ⟨.pending, hupd.status.trans hupd.wasPending, true, rfl, fun _ => ⟨dto, rfl⟩⟩
  | cancel =>
    obtain ⟨-, rfl⟩ := cancelMessage_spec h
    exact ⟨.cancelled, rfl, false, rfl, by simp⟩

theorem Saved.cell {t t' : Table} {m : ScheduledMessage} {r r' : Row}
    (h : Saved t m t' r r') : Messages.cell t' =
      Function.update (Messages.cell t) m.id (cellOf r'.status) := by
  have hbefore : t.get r'.id = some r := by
    rw [h.id_eq]
    exact h.before
  rw [h.after, cell_put hbefore, h.id_eq, h.key]

@[simp] theorem acks_acked (trace : List Obs) (k : MsgKey) :
    acks (.acked k :: trace) = Function.update (acks trace) k (acks trace k + 1) := by
  funext j
  by_cases hj : j = k
  · subst hj
    simp [acks]
  · rw [Function.update_of_ne hj]
    have hj' : k ≠ j := fun h => hj h.symm
    simp [acks, hj']

theorem afterSave_held (site : SaveSite) (rest : List ScheduledMessage) :
    (afterSave site rest).held =
      if site.goesOn then rest.map ScheduledMessage.id else [] := by
  unfold afterSave
  split
  · exact Phase.held_loop rest
  · rfl

theorem afterSave_settling (site : SaveSite) (rest : List ScheduledMessage) :
    (afterSave site rest).settling = false := by
  unfold afterSave
  split
  · exact Phase.settling_loop rest
  · rfl

/-- **Every step is a step of the pattern.** -/
theorem work_step {P : Platform} {s s' : Sys} {e : Event} (hI : Wf P s)
    (hs : Step P s e s') : s'.work = s.work ∨
      ∃ a, WorkEvent s e a ∧ WorkClaim.Step s.work a s'.work := by
  cases hs with
  | elapse | create | createRejected | find | findRejected | check | checkRejected
  | requestError => exact .inl rfl
  | acquire hph | acquireRefused hph | acquireError hph | acquireLost hph | select hph
  | release hph =>
    left
    refine work_goto_eq rfl rfl rfl ?_ ?_ <;> rw [hph] <;> rfl
  -- an unmatched row or a call that starts changes no list
  | missRow hph | send hph =>
    left
    refine work_goto_eq rfl rfl rfl ?_ ?_ <;> rw [hph] <;> rfl
  | claimed hph =>
    left
    refine work_goto_eq rfl rfl rfl ?_ ?_ <;> rw [hph]
    -- the entities are held under the ids of the rows
    · rw [Phase.held_loop, List.map_map]
      exact List.map_congr_left fun r _ => P.materialize_id r
    · rw [Phase.settling_loop]
      rfl
  | claimError hph =>
    left
    rcases hph with hph | ⟨now, ids, hph⟩ <;> refine work_goto_eq rfl rfl rfl ?_ ?_ <;>
      rw [hph] <;> rfl
  | @claimRow t i now ids raw table r' hph hi hr =>
    right
    obtain ⟨r, rfl, hclaim⟩ := claimRow_spec hr
    refine ⟨_, .claim, ?_⟩
    have hheld : s.work.held t = raw.map fun r => .val r.id := by simp [Sys.work, hph, Phase.held]
    have hset : s.work.settling t = false := by simp [Sys.work, hph, Phase.settling]
    -- the predicate of the UPDATE is the pattern's condition
    have hfree : s.work.cell (.val r.id) = .free :=
      (cell_eq_free hclaim.before).mpr hclaim.wasPending
    convert WorkClaim.Step.claim hfree hset using 1
    refine work_goto rfl ?_ ?_ ?_ rfl
    · rw [show table = s.table.put r' from hclaim.after]
      refine (cell_put (by rw [hclaim.id_eq]; exact hclaim.before)).trans ?_
      rw [hclaim.id_eq, hclaim.row_eq]
      rfl
    · simp [hheld, Phase.held, hclaim.id_eq]
    · exact (congrArg _ hset.symm).trans (Function.update_eq_self t s.work.settling)
  | @ack t m rest hph =>
    right
    refine ⟨_, .deliver, ?_⟩
    have hheld : s.work.held t = m.id :: rest.map ScheduledMessage.id := by
      simp [Sys.work, hph, Phase.held]
    have hset : s.work.settling t = false := by simp [Sys.work, hph, Phase.settling]
    convert WorkClaim.Step.deliver hheld hset using 1
    refine work_goto rfl rfl ?_ rfl ?_
    · exact (congrArg _ hheld.symm).trans (Function.update_eq_self t s.work.held)
    · exact acks_acked s.trace m.id
  | @sendError t error m rest hph =>
    right
    refine ⟨_, .refuse, ?_⟩
    have hheld : s.work.held t = m.id :: rest.map ScheduledMessage.id := by
      simp [Sys.work, hph, Phase.held]
    have hset : s.work.settling t = false := by simp [Sys.work, hph, Phase.settling]
    convert WorkClaim.Step.refuse hheld hset using 1
    refine work_goto rfl rfl ?_ rfl rfl
    rw [Phase.held, onSendError_id, ← hheld]
    exact Function.update_eq_self t s.work.held
  | @saved t m site rest table r r' hph hsaved =>
    right
    -- by `Wf` the entity has the status `sendMessage` gave it
    obtain ⟨st, hst, hcell⟩ := (hI.saving t m site rest hph).cell
    refine ⟨_, .settle hph (fun h => of_decide_eq_true h) id, ?_⟩
    have hheld : s.work.held t = m.id :: rest.map ScheduledMessage.id := by
      simp [Sys.work, hph, Phase.held]
    have hset : s.work.settling t = true := by simp [Sys.work, hph, Phase.settling]
    convert WorkClaim.Step.settle hheld hset using 1
    refine work_goto rfl ?_ ?_ ?_ rfl
    · rw [hst] at hcell
      rw [hst, ← hcell, ← hsaved.status_eq hst]
      exact hsaved.cell
    · rw [afterSave_held]
    · rw [afterSave_settling]
  | @saveError t error m site rest hph =>
    cases site with
    | afterSend =>
      left
      -- the first save that throws is followed by the one of the catch block
      refine work_goto_eq rfl rfl rfl ?_ ?_ <;> rw [hph] <;>
        simp [afterSaveError, Phase.held, Phase.settling]
    | onError error' =>
      right
      refine ⟨_, .stop hph, ?_⟩
      convert WorkClaim.Step.drop (s := s.work) (t := t) using 1
      exact work_goto rfl rfl rfl rfl rfl
  | @crash t hph =>
    right
    refine ⟨_, .crash, ?_⟩
    convert WorkClaim.Step.drop (s := s.work) (t := t) using 1
    exact work_goto rfl rfl rfl rfl rfl
  | @inserted r fresh m table row hreq hins =>
    right
    have hst : row.status = .pending := by
      have := hins.status
      rw [hI.creating r m hreq, writeColumn, Option.some.injEq] at this
      exact this.symm
    -- a created message is a new item
    have habs : s.work.cell (.val row.id) = .absent := by
      simp [Sys.work, cell, hins.fresh]
    refine ⟨.add (.val row.id), .add, ?_⟩
    convert WorkClaim.Step.add habs using 1
    refine WorkClaim.State.ext ?_ rfl rfl rfl
    funext k
    cases k with
    | undefined | null => rfl
    | val i =>
      by_cases hi : i = row.id
      · subst hi
        simp [Sys.work, cell, hins.after, hst, cellOf]
      · simp [Sys.work, cell, hins.after, hi]
  | @requestSaved r fresh change m table row row' hreq hsaved =>
    right
    obtain ⟨st, hst, again, hcell, hagain⟩ := (hI.changing r change m hreq).cell
    -- a loaded entity has a row, so the item exists
    have hne : s.work.cell m.id ≠ .absent := by
      have hcell' : s.work.cell m.id = cellOf row.status := by
        rw [hsaved.key]
        exact cell_eq hsaved.before
      rw [hcell']
      cases row.status <;> simp [cellOf]
    refine ⟨_, .write hreq hagain, ?_⟩
    convert WorkClaim.Step.write hne using 1
    refine WorkClaim.State.ext ?_ rfl rfl ?_
    · rw [← hcell, ← hsaved.status_eq hst]
      exact hsaved.cell
    · funext k
      cases change <;> rfl

theorem work_init {s : Sys} (h : Init s) : (WorkClaim.machine MsgKey TickId).Init s.work := by
  obtain ⟨htable, hphase, -, -, htrace⟩ := h
  refine ⟨fun t => ?_, fun t => ?_, fun k => ?_, fun k hk => ?_⟩
  · simp [Sys.work, hphase t, Phase.held]
  · simp [Sys.work, hphase t, Phase.settling]
  · simp [Sys.work, htrace, acks]
  · cases k with
    | undefined | null => simp [Sys.work, cell] at hk
    | val i =>
      cases hr : s.table.get i with
      | none => simp [Sys.work, cell, hr] at hk
      | some r =>
        have hne := htable r (Keyed.get_eq_some.mp hr).1
        rw [show s.work.cell (.val i) = cellOf r.status from cell_eq hr] at hk
        cases hst : r.status <;> simp [hst, cellOf] at hk hne

/-- **Refinement.** If a condition on the steps of the system implies the
condition `D` on the steps of the pattern, every reachable state is a state the
pattern reaches under `D`. The implication may use what `D` guarantees. -/
theorem reachable_work {P : Platform} {C : Sys → Event → Prop}
    {D : WorkClaim.State MsgKey TickId → WorkClaim.Event MsgKey TickId → Prop}
    {J : WorkClaim.State MsgKey TickId → Prop}
    (hJ : ∀ w, (WorkClaim.machine MsgKey TickId).Reachable D w → J w)
    (hCD : ∀ s e a, J s.work → C s e → WorkEvent s e a → D s.work a) {s : Sys}
    (h : (machine P).Reachable C s) :
    (WorkClaim.machine MsgKey TickId).Reachable D s.work := by
  have hsim : Machine.Simulation (machine P) C
      (fun s => Wf P s ∧ (WorkClaim.machine MsgKey TickId).Reachable D s.work)
      (WorkClaim.machine MsgKey TickId) D Sys.work := by
    refine ⟨fun s h₀ => ⟨⟨wf_init h₀, _, work_init h₀, .refl⟩, work_init h₀⟩,
      fun s e s' hI hC hs => ?_⟩
    obtain ⟨hwf, hreach⟩ := hI
    have hs' := step_spec hs
    have hrun : Machine.Run (WorkClaim.machine MsgKey TickId) D s.work s'.work := by
      -- one step of the system is at most one of the pattern
      rcases work_step hwf hs' with heq | ⟨a, ha, hstep⟩
      · rw [heq]
        exact .refl
      · exact .single (hCD s e a (hJ _ hreach) hC ha) (WorkClaim.step_iff.mpr hstep)
    exact ⟨⟨wf_step hwf hs', hreach.run hrun⟩, hrun⟩
  exact (hsim.reachable h).1.2

end SchedulingService.Messages
