import SchedulingService.Messages.Claiming
import SchedulingService.Messages.Handover

/-!
# The life of a message

The statuses a message may go through, and what a cancel is worth. Owners check
the status on a read and write on a later save, so both laws hold only where
the row has not moved on in between.

* `statuses_lawful` — every status change is one of the lifecycle's and the
  terminal statuses stay, as long as an owner's save finds the row PENDING;
  `stale_update_revives_sent` is a run in which an update's save finds it SENT;
* `cancel_final` — after a cancel nothing is sent and the row stays CANCELLED,
  as long as the save finds no tick holding the message;
  `cancelled_message_is_sent` is a run in which a tick does.
-/

namespace SchedulingService.Messages

open Js

variable {P : Platform} {C : Sys → Event → Prop} {s s' : Sys} {e : Event}

/-- The status stored under a key. -/
def statusOf (t : Table) : MsgKey → Option ScheduledMessageStatus
  | .val i => (t.get i).map Row.status
  | _ => none

theorem statusOf_eq_some {t : Table} {k : MsgKey} {st : ScheduledMessageStatus} :
    statusOf t k = some st ↔ ∃ i r, k = .val i ∧ t.get i = some r ∧ r.status = st := by
  cases k <;> simp [statusOf]

theorem cell_eq_taken {t : Table} {k : MsgKey} :
    cell t k = .taken ↔ statusOf t k = some .processing := by
  cases k with
  | undefined | null => simp [cell, statusOf]
  | val i =>
    cases hr : t.get i with
    | none => simp [cell, statusOf, hr]
    | some r => cases hst : r.status <;> simp [cell, statusOf, hr, hst, cellOf]

/-! ## The lifecycle -/

/-- The changes a status may make, and by whose hand. -/
inductive Transition (s : Sys) (i : Id) :
    Event → ScheduledMessageStatus → ScheduledMessageStatus → Prop
  | claim {t : TickId} : Transition s i (.claimRow t i) .pending .processing
  | settle {t : TickId} {st : ScheduledMessageStatus} : s.Holds t (.val i) →
      st = .sent ∨ st = .failed ∨ st = .pending → Transition s i (.saved t) .processing st
  | cancel {r : ReqId} {fresh : Id} {m : ScheduledMessage} :
      s.request r = .saving .cancel m →
      Transition s i (.requestSaved r fresh) .pending .cancelled

/-- Every change of status is one of the lifecycle's, and a terminal status
never changes. -/
def StatusesLawful (P : Platform) (C : Sys → Event → Prop) : Prop :=
  ∀ s, (machine P).Reachable C s → ∀ i r, s.table.get i = some r →
    (∀ e s' r', C s e → (machine P).step s e = some s' → s'.table.get i = some r' →
      r'.status ≠ r.status → Transition s i e r.status r'.status) ∧
    (r.status.terminal = true → ∀ s', (machine P).Run C s s' →
      ∃ r', s'.table.get i = some r' ∧ r'.status = r.status)

/-- An owner's save finds the row PENDING, as it was when it was checked; a
cancel's may also find it CANCELLED. -/
def OwnerSavesPending (s : Sys) : Event → Prop
  | .requestSaved q _ => ∀ change m st, s.request q = .saving change m →
      statusOf s.table m.id = some st →
      st = .pending ∨ (change = .cancel ∧ st = .cancelled)
  | _ => True

theorem OwnerSavesPending.work {a : WorkClaim.Event MsgKey TickId}
    (hJ : WorkClaim.Exclusive s.work ∧ WorkClaim.HeldTaken s.work)
    (hC : OwnerSavesPending s e) (ha : WorkEvent s e a) :
    WorkClaim.NoWritingHeld s.work a := by
  cases ha with
  | @write r fresh change m again hreq hagain =>
    intro t ht
    have hproc := cell_eq_taken.mp (hJ.2 t m.id ht)
    rcases hC change m _ hreq hproc with h | ⟨-, h⟩ <;> exact absurd h (by simp)
  | _ => trivial

/-- Under it a held message is still PROCESSING. -/
theorem held_processing (h : (machine P).Reachable OwnerSavesPending s) {t : TickId}
    {k : MsgKey} (ht : s.Holds t k) : statusOf s.table k = some .processing := by
  have hreach := reachable_work
    (J := fun w => WorkClaim.Exclusive w ∧ WorkClaim.HeldTaken w)
    (fun _ => WorkClaim.heldTaken_of_reachable) (fun _ _ _ => OwnerSavesPending.work) h
  exact cell_eq_taken.mp ((WorkClaim.heldTaken_of_reachable hreach).2 t k ht)

theorem SaveSite.Gave.lawful {site : SaveSite} {st : ScheduledMessageStatus}
    (h : site.Gave (.val st)) : st = .sent ∨ st = .failed ∨ st = .pending := by
  cases site with
  | afterSend => exact .inl (Slot.val.inj h)
  | onError error =>
    rcases h with h | h
    · exact .inr (.inr (Slot.val.inj h))
    · exact .inr (.inl (Slot.val.inj h))

theorem transition_of_step (h : (machine P).Reachable OwnerSavesPending s)
    (hC : OwnerSavesPending s e) (hs : Step P s e s') {i : Id} {r r' : Row}
    (hr : s.table.get i = some r) (hr' : s'.table.get i = some r')
    (hne : r'.status ≠ r.status) : Transition s i e r.status r'.status := by
  have hI := wf_of_reachable h
  obtain ⟨q, hq, hrow⟩ := row_step hs hr
  obtain rfl := Option.some.inj (hq.symm.trans hr')
  cases hrow with
  | same => exact absurd rfl hne
  | claim _ _ hpend =>
    rw [hpend]
    exact .claim
  | @tick t m site rest q hph hm hover =>
    have hheld : s.Holds t (.val i) := by
      rw [Sys.Holds, hph, ← hm]
      exact List.mem_cons_self
    -- the tick holds the message, so the row it writes is PROCESSING
    obtain ⟨i', r₀, hi', hr₀, hproc⟩ := statusOf_eq_some.mp (held_processing h hheld)
    obtain rfl := Slot.val.inj hi'
    obtain rfl := Option.some.inj (hr₀.symm.trans hr)
    have hgave := hI.saving t m site rest hph
    obtain ⟨st, hst, -⟩ := hgave.cell
    rw [hproc, hover.status_eq hst]
    rw [hst] at hgave
    exact .settle hheld hgave.lawful
  | @owner r₀ fresh change m q hreq hm hover =>
    have hst : statusOf s.table m.id = some r.status :=
      statusOf_eq_some.mpr ⟨i, r, hm, hr, rfl⟩
    obtain ⟨now, m₀, happly⟩ := hI.changing r₀ change m hreq
    cases change with
    | update dto =>
      -- an update that finds the row PENDING leaves it PENDING
      have hupd := updateMessage_spec happly
      have hpend : q.status = .pending := hover.status_eq (hupd.status.trans hupd.wasPending)
      rcases hC _ m _ hreq hst with h | ⟨h, -⟩
      · exact absurd (hpend.trans h.symm) hne
      · exact absurd h (by simp)
    | cancel =>
      obtain ⟨-, rfl⟩ := cancelMessage_spec happly
      have hcanc : q.status = .cancelled := hover.status_eq rfl
      rcases hC _ _ _ hreq hst with h | ⟨-, h⟩
      · rw [h, hcanc]
        exact .cancel hreq
      · exact absurd (hcanc.trans h.symm) hne

theorem not_transition_of_terminal {i : Id} {st st' : ScheduledMessageStatus}
    (h : st.terminal = true) : ¬ Transition s i e st st' := by
  intro ht
  cases ht <;> exact absurd h (by decide)

/-- **The lifecycle.** In every run in which owners' saves find the row as they
checked it. -/
theorem statuses_lawful (P : Platform) : StatusesLawful P OwnerSavesPending := by
  intro s h i r hr
  refine ⟨fun e s' r' hC hstep hr' hne => transition_of_step h hC (step_spec hstep) hr hr' hne,
    fun hterm s' hrun => ?_⟩
  have hinv : (machine P).Reachable OwnerSavesPending s' ∧
      ∃ r', s'.table.get i = some r' ∧ r'.status = r.status := by
    -- along the run the row stays, and no step is a lawful change of its status
    refine hrun.invariant (I := fun s => (machine P).Reachable OwnerSavesPending s ∧
      ∃ r', s.table.get i = some r' ∧ r'.status = r.status) ?_ ⟨h, r, hr, rfl⟩
    rintro s₁ e s₂ ⟨h₁, r₁, hr₁, hst₁⟩ hC hstep
    obtain ⟨r₂, hr₂, -⟩ := row_step (step_spec hstep) hr₁
    refine ⟨h₁.step hC hstep, r₂, hr₂, ?_⟩
    by_contra hne
    rw [← hst₁] at hne hterm
    exact not_transition_of_terminal hterm
      (transition_of_step h₁ hC (step_spec hstep) hr₁ hr₂ hne)
  exact hinv.2

/-! ## Cancelling -/

/-- How often a send of `k` was started. -/
def calls (trace : List Obs) (k : MsgKey) : Nat :=
  trace.countP fun
    | .called j _ _ => j = k
    | _ => false

/-- Once a cancel has resolved, no send of its message starts and the row stays
CANCELLED. -/
def CancelIsFinal (P : Platform) (C : Sys → Event → Prop) : Prop :=
  ∀ s r fresh m s₁, (machine P).Reachable C s → s.request r = .saving .cancel m →
    C s (.requestSaved r fresh) → (machine P).step s (.requestSaved r fresh) = some s₁ →
    ∀ s', (machine P).Run C s₁ s' →
      calls s'.trace m.id = calls s₁.trace m.id ∧ statusOf s'.table m.id = some .cancelled

/-- The save of a cancel finds no tick holding the message, and that of an
update does not find it CANCELLED. -/
def CancelsUnheld (s : Sys) : Event → Prop
  | .requestSaved q _ => ∀ change m, s.request q = .saving change m →
      (change = .cancel → ∀ t, ¬ s.Holds t m.id) ∧
      ∀ dto, change = .update dto → statusOf s.table m.id ≠ some .cancelled
  | _ => True

/-- Who does not hold a message does not send it. -/
theorem calls_step (hs : Step P s e s') {k : MsgKey} (hfree : ∀ t, ¬ s.Holds t k) :
    calls s'.trace k = calls s.trace k := by
  cases hs with
  | @send t m rest hph =>
    have hne : m.id ≠ k := by
      rintro rfl
      exact hfree t (by rw [Sys.Holds, hph]; exact List.mem_cons_self)
    simp [calls, hne]
  | @requestSaved r fresh change => cases change <;> simp [calls, Change.obs]
  | _ => simp [calls]

/-- CANCELLED and held by nobody. -/
def Dropped (s : Sys) (k : MsgKey) : Prop :=
  statusOf s.table k = some .cancelled ∧ ∀ t, ¬ s.Holds t k

theorem dropped_step (hI : Wf P s) (hC : CancelsUnheld s e) (hs : Step P s e s')
    {k : MsgKey} (h : Dropped s k) : Dropped s' k := by
  obtain ⟨hst, hfree⟩ := h
  obtain ⟨i, r, rfl, hr, hcanc⟩ := statusOf_eq_some.mp hst
  constructor
  · obtain ⟨r', hr', hrow⟩ := row_step hs hr
    refine statusOf_eq_some.mpr ⟨i, r', rfl, hr', ?_⟩
    cases hrow with
    | same => exact hcanc
    | claim _ _ hpend =>
      rw [hcanc] at hpend
      exact absurd hpend (by simp)
    | @tick t m site rest r' hph hm =>
      -- a tick saves what it holds
      refine absurd ?_ (hfree t)
      rw [Sys.Holds, hph, ← hm]
      exact List.mem_cons_self
    | @owner q fresh change m r' hreq hm hover =>
      obtain ⟨now, m₀, happly⟩ := hI.changing q change m hreq
      cases change with
      | update dto => exact absurd (hm ▸ hst) ((hC _ m hreq).2 dto rfl)
      | cancel =>
        obtain ⟨-, rfl⟩ := cancelMessage_spec happly
        exact hover.status_eq rfl
  · intro t ht
    rcases holds_step hI hs ht with h | ⟨j, -, -, hfree'⟩
    · exact hfree t h
    · rw [cell_eq hr, hcanc] at hfree'
      exact absurd hfree' (by simp [cellOf])

/-- **Cancel is final.** In every run in which the save of a cancel finds no tick
holding the message. -/
theorem cancel_final (P : Platform) : CancelIsFinal P CancelsUnheld := by
  intro s r fresh m s₁ h hreq hC hstep s' hrun
  have hI := wf_of_reachable h
  have hs : Step P s (.requestSaved r fresh) s₁ := step_spec hstep
  -- the save itself leaves the message dropped
  have hdrop : Dropped s₁ m.id := by
    constructor
    · cases hs with
      | inserted hreq' => exact absurd (hreq.symm.trans hreq') (by simp)
      | requestSaved hreq' hsaved =>
        obtain ⟨rfl, rfl⟩ := Request.saving.inj (hreq.symm.trans hreq')
        obtain ⟨now, m₀, happly⟩ := hI.changing _ _ _ hreq
        obtain ⟨-, rfl⟩ := cancelMessage_spec happly
        exact statusOf_eq_some.mpr
          ⟨_, _, hsaved.key, hsaved.get_self, hsaved.status_eq rfl⟩
    · intro t ht
      rcases holds_step hI hs ht with h | ⟨j, -, he, -⟩
      · exact (hC _ m hreq).1 rfl t h
      · exact absurd he (by simp)
  -- from there on nothing is sent: the number of calls is stable
  obtain ⟨⟨-, hdrop'⟩, hcalls⟩ := hrun.stable (I := fun s => Wf P s ∧ Dropped s m.id)
    (fun s => calls s.trace m.id)
    (fun s e s' hI' hC' hstep' => ⟨⟨wf_step hI'.1 (step_spec hstep'),
      dropped_step hI'.1 hC' (step_spec hstep') hI'.2⟩,
      calls_step (step_spec hstep') hI'.2.2⟩) ⟨wf_step hI hs, hdrop⟩
  exact ⟨hcalls, hdrop'.1⟩

/-! ## The runs that break them -/

/-- A request reads `msg-1`, then a tick claims it. -/
def readThenClaim (change : Change) : List Event :=
  .find 0 "msg-1" (.val "u") change :: .check 0 :: .acquire ⟨"pod", 0⟩ ::
    claimEvents ⟨"pod", 0⟩ 60000 ["msg-1"] ["msg-1"]

/-- An update that read the message PENDING saves it after it was sent. -/
theorem stale_update_revives_sent :
    ¬ StatusesLawful (typeorm fun _ => .invalid) Machine.always := by
  intro h
  have hrun : ((machine (typeorm fun _ => .invalid)).exec (Sys.start 60000 dueTable)
      (readThenClaim (.update ⟨.val "hi", .undefined, .undefined⟩) ++
        [.send ⟨"pod", 0⟩, .ack ⟨"pod", 0⟩, .saved ⟨"pod", 0⟩])).map (fun s =>
      statusOf s.table (.val "msg-1") = some .sent &&
        ((machine (typeorm fun _ => .invalid)).exec s [.requestSaved 0 ""]).any fun s' =>
          statusOf s'.table (.val "msg-1") = some .pending) = some true := by decide
  obtain ⟨s, hs, hp⟩ := Machine.Reachable.of_exec (C := Machine.always)
    (init_start 60000 (show ∀ r ∈ dueTable.rows, _ by decide)) (fun _ _ _ => trivial) hrun
  rw [Bool.and_eq_true, decide_eq_true_eq, Option.any_eq_true] at hp
  obtain ⟨hsent, s', hs', hpend⟩ := hp
  obtain ⟨i, r, hi, hr, hst⟩ := statusOf_eq_some.mp hsent
  obtain ⟨r', hr', hst'⟩ := (h s hs i r hr).2 (by rw [hst]; rfl) s'
    (.of_exec (fun _ _ _ => trivial) hs')
  have hsent' : statusOf s'.table (.val "msg-1") = some .sent :=
    statusOf_eq_some.mpr ⟨i, r', hi, hr', hst'.trans hst⟩
  rw [hsent'] at hpend
  exact absurd hpend (by decide)

/-- A cancel that read the message PENDING saves, and resolves, while a tick
holds it; the tick then sends it. -/
theorem cancelled_message_is_sent :
    ¬ CancelIsFinal (typeorm fun _ => .invalid) Machine.always := by
  intro h
  have hrun : ((machine (typeorm fun _ => .invalid)).exec (Sys.start 60000 dueTable)
      (readThenClaim .cancel)).map (fun s =>
      (match s.request 0 with
        | .saving .cancel m => decide (m.id = .val "msg-1")
        | _ => false) &&
        ((machine (typeorm fun _ => .invalid)).step s (.requestSaved 0 "")).any fun s₁ =>
          ((machine (typeorm fun _ => .invalid)).exec s₁ [.send ⟨"pod", 0⟩]).any fun s' =>
            calls s'.trace (.val "msg-1") ≠ calls s₁.trace (.val "msg-1")) =
      some true := by decide
  obtain ⟨s, hs, hp⟩ := Machine.Reachable.of_exec (C := Machine.always)
    (init_start 60000 (show ∀ r ∈ dueTable.rows, _ by decide)) (fun _ _ _ => trivial) hrun
  rw [Bool.and_eq_true, Option.any_eq_true] at hp
  obtain ⟨hreq, s₁, hs₁, hp⟩ := hp
  rw [Option.any_eq_true] at hp
  obtain ⟨s', hs', hne⟩ := hp
  split at hreq
  · rename_i m hm
    have hid : m.id = .val "msg-1" := of_decide_eq_true hreq
    have := (h s 0 "" m s₁ hs hm trivial hs₁ s' (.of_exec (fun _ _ _ => trivial) hs')).1
    rw [hid] at this
    exact of_decide_eq_true hne this
  · exact absurd hreq (by simp)

end SchedulingService.Messages
