import SchedulingService.Messages.Handover
import SchedulingService.Messages.Work

/-!
# Claiming is exclusive

What the conditional UPDATE buys, in runs in which no owner changes a message:
whatever the lock does, a message is held by one tick at a time, a PROCESSING
row is changed by the tick that holds it only, and a row that becomes
PROCESSING is returned to the one tick whose UPDATE did it.

* `holds_step` — a tick comes to hold a message by its own UPDATE only;
* `processing_changed_by_holder`, `taken_by_claim` — who changes a row;
* `exclusive_claim` — the three together, for every run.
-/

namespace SchedulingService.Messages

open Js

variable {P : Platform} {s s' : Sys} {e : Event}

/-- No update or cancel is stored. -/
def NoOwnerSave (s : Sys) : Event → Prop
  | .requestSaved r _ => ∀ change m, s.request r ≠ .saving change m
  | _ => True

/-- A tick comes to hold a message only by claiming it, and then it was
PENDING. -/
theorem holds_step (hI : Wf P s) (hs : Step P s e s') {t : TickId} {k : MsgKey}
    (h : s'.Holds t k) :
    s.Holds t k ∨ ∃ i, k = .val i ∧ e = .claimRow t i ∧ cell s.table k = .free := by
  rcases work_step hI hs with heq | ⟨a, ha, hstep⟩
  · left
    have : k ∈ s'.work.held t := h
    rwa [heq] at this
  · rcases WorkClaim.held_step hstep h with h | ⟨hfree, rfl⟩
    · exact .inl h
    · cases ha with
      | claim => exact .inr ⟨_, rfl, rfl, hfree⟩

/-- In a run without owner changes, a row other than PENDING is changed by the
tick that holds it only. -/
theorem processing_changed_by_holder (hs : Step P s e s') (hC : NoOwnerSave s e)
    {i : Id} {r : Row} (hr : s.table.get i = some r) (hst : r.status ≠ .pending)
    (hne : s'.table.get i ≠ some r) : ∃ t, e.tick = some t ∧ s.Holds t (.val i) := by
  obtain ⟨r', hr', hrow⟩ := row_step hs hr
  cases hrow with
  | same => exact absurd hr' hne
  | claim _ _ hpend => exact absurd hpend hst
  | @tick t m site rest r' hph hm =>
    refine ⟨t, rfl, ?_⟩
    rw [Sys.Holds, hph, ← hm]
    exact List.mem_cons_self
  | owner hreq => exact absurd hreq (hC _ _)

/-- The tick whose UPDATE visits a PENDING row holds it then. -/
theorem holds_of_claimed {t : TickId} {i : Id} {r : Row} (hs : Step P s (.claimRow t i) s')
    (hr : s.table.get i = some r) (hst : r.status = .pending) : s'.Holds t (.val i) := by
  cases hs with
  | claimRow hph hi hq =>
    -- the returned row joins the tick's answer
    obtain ⟨q₀, rfl, hclaim⟩ := claimRow_spec hq
    simp [Sys.Holds, Phase.held, hclaim.id_eq]
  | missRow hph hi hq => exact absurd hst (claimRow_eq_none.mp hq r hr)

/-- A row becomes PROCESSING by an UPDATE, whose tick then holds it. -/
theorem taken_by_claim (hI : Wf P s) (hs : Step P s e s') {i : Id} {r r' : Row}
    (hr : s.table.get i = some r) (hst : r.status ≠ .processing)
    (hr' : s'.table.get i = some r') (hst' : r'.status = .processing) :
    ∃ t, e = .claimRow t i ∧ s'.Holds t (.val i) := by
  obtain ⟨q, hq, hrow⟩ := row_step hs hr
  obtain rfl := Option.some.inj (hq.symm.trans hr')
  cases hrow with
  | same => exact absurd hst' hst
  | @claim t now ids raw hph hi hpend =>
    exact ⟨t, rfl, holds_of_claimed hs hr hpend⟩
  | @tick t m site rest q hph hm hover =>
    -- a tick saves SENT, PENDING or FAILED
    obtain ⟨st, hm', hcell⟩ := (hI.saving t m site rest hph).cell
    rw [hover.status_eq hm'] at hst'
    rw [hst'] at hcell
    exact absurd hcell.symm (WorkClaim.Cell.ofOutcome_ne_taken _)
  | @owner r₀ fresh change m q hreq hm hover =>
    -- an owner saves PENDING or CANCELLED
    obtain ⟨st, hm', again, hcell, -⟩ := (hI.changing r₀ change m hreq).cell
    rw [hover.status_eq hm'] at hst'
    rw [hst'] at hcell
    exact absurd hcell.symm (WorkClaim.Cell.ofOutcome_ne_taken again)

/-- The lists of held messages are exclusive in runs without owner changes. -/
theorem exclusive_of_noOwnerSave (h : (machine P).Reachable NoOwnerSave s) :
    WorkClaim.Exclusive s.work := by
  refine WorkClaim.exclusive_of_reachable
    (reachable_work (J := fun _ => True) (fun _ _ => trivial) ?_ h)
  intro s e a _ hC ha
  cases ha with
  | write hreq => exact absurd hreq (hC _ _)
  | _ => trivial

/-- **Claiming is exclusive.** In every run without owner changes, in which the
lock may expire, saves fail and ticks overlap and crash at any point: a message
is held by one tick at most, a PROCESSING row is changed by its holder only,
and the tick whose UPDATE made a row PROCESSING is the one that holds it. -/
theorem exclusive_claim (h : (machine P).Reachable NoOwnerSave s) :
    (∀ t k, s.Holds t k → ∀ t', s.Holds t' k → t' = t) ∧
    ∀ e s', NoOwnerSave s e → (machine P).step s e = some s' →
      (∀ i r, s.table.get i = some r → r.status = .processing →
        s'.table.get i ≠ some r → ∃ t, e.tick = some t ∧ s.Holds t (.val i)) ∧
      ∀ i r r', s.table.get i = some r → r.status = .pending →
        s'.table.get i = some r' → r'.status = .processing →
        ∃ t, e = .claimRow t i ∧ ∀ t', s'.Holds t' (.val i) ↔ t' = t := by
  refine ⟨fun t k hk t' hk' => (exclusive_of_noOwnerSave h).single t' t k hk' hk,
    fun e s' hC hstep => ⟨fun i r hr hst hne => ?_, fun i r r' hr hst hr' hst' => ?_⟩⟩
  · exact processing_changed_by_holder (step_spec hstep) hC hr (by simp [hst]) hne
  · have hex' := exclusive_of_noOwnerSave (h.step hC hstep)
    obtain ⟨t, rfl, ht⟩ := taken_by_claim (wf_of_reachable h) (step_spec hstep) hr
      (by simp [hst]) hr' hst'
    refine ⟨t, rfl, fun t' => ⟨fun ht' => hex'.single t' t _ ht' ht, ?_⟩⟩
    rintro rfl
    exact ht

/-- Two ticks inside the critical section, the first one's lock having expired,
with the same candidate: the one whose UPDATE came first holds it alone. -/
theorem exclusive_claim_after_expiry :
    ∃ s, (machine (typeorm fun _ => .invalid)).Reachable NoOwnerSave s ∧
      s.Holds ⟨"pod-b", 0⟩ (.val "msg-1") ∧
      ∀ t, s.Holds t (.val "msg-1") → t = ⟨"pod-b", 0⟩ := by
  have hrun : ((machine (typeorm fun _ => .invalid)).exec (Sys.start 0 dueTable)
      [.acquire ⟨"pod-a", 0⟩, .select ⟨"pod-a", 0⟩ 0 ["msg-1"], .elapse 55000,
        .acquire ⟨"pod-b", 0⟩, .select ⟨"pod-b", 0⟩ 55000 ["msg-1"],
        .claimRow ⟨"pod-b", 0⟩ "msg-1", .claimRow ⟨"pod-a", 0⟩ "msg-1"]).map (fun s =>
      decide (.val "msg-1" ∈ (s.phase ⟨"pod-b", 0⟩).held)) = some true := by decide
  obtain ⟨s, hs, hp⟩ := Machine.Reachable.of_exec (C := NoOwnerSave)
    (init_start 0 (show ∀ r ∈ dueTable.rows, _ by decide)) (by simp [NoOwnerSave]) hrun
  rw [decide_eq_true_eq] at hp
  have hb : s.Holds ⟨"pod-b", 0⟩ (.val "msg-1") := hp
  exact ⟨s, hs, hb, fun t ht => (exclusive_claim hs).1 _ _ hb t ht⟩

end SchedulingService.Messages
