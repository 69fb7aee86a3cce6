import Mathlib.Data.List.Dedup
import SchedulingService.Lib.Total
import SchedulingService.Messages.Delivery
import SchedulingService.Messages.Lifecycle
import SchedulingService.Messages.Writes

/-!
# How often a message is handed over

On TypeORM as it is a tick never puts a message back, so a message that is PENDING
was made so by its owner, and each time this lets one call through: a message is
handed to the messaging service at most as often as its owner set it
(`calls_le_sets`). A second call needs an update.

The argument counts what is still to come: a PENDING row, and every place a message
has in a tick's list before its call.
-/

namespace SchedulingService.Messages

open Js

/-- How often `k` was created or updated. -/
def sets (trace : List Obs) (k : MsgKey) : Nat :=
  trace.countP fun
    | .created j _ => j = k
    | .updated j _ => j = k
    | _ => false

/-- How often the tick may still call the messaging service with `k`. -/
def Phase.unsent (k : MsgKey) : Phase → Nat
  | claiming _ _ raw => (raw.map fun r => Slot.val r.id).count k
  | sending m rest => ((m :: rest).map ScheduledMessage.id).count k
  | calling _ rest => (rest.map ScheduledMessage.id).count k
  | saving _ _ rest => (rest.map ScheduledMessage.id).count k
  | _ => 0

/-- Whether `k` may be claimed. -/
def free (t : Table) (k : MsgKey) : Nat := if cell t k = .free then 1 else 0

theorem free_le_one (t : Table) (k : MsgKey) : free t k ≤ 1 := by
  unfold free
  split <;> omega

@[simp] theorem Phase.unsent_loop (k : MsgKey) (ms : List ScheduledMessage) :
    (loop ms).unsent k = (ms.map ScheduledMessage.id).count k := by
  cases ms <;> rfl

theorem afterSave_unsent (k : MsgKey) (site : SaveSite) (rest : List ScheduledMessage) :
    (afterSave site rest).unsent k ≤ (rest.map ScheduledMessage.id).count k := by
  unfold afterSave
  split
  · exact Nat.le_of_eq (Phase.unsent_loop k rest)
  · exact Nat.zero_le _

/-- What is still to come: of the ticks in the list, and of the table. -/
def toCome (ticks : List TickId) (s : Sys) (k : MsgKey) : Nat :=
  total (fun t => (s.phase t).unsent k) ticks + free s.table k

section Steps

variable {newDate : String → Date} {s s' : Sys} {es : List Event} {e : Event}
  {ticks : List TickId} {k : MsgKey}

/-- A tick of the list moves on. -/
theorem total_goto (hnodup : ticks.Nodup) {t : TickId} (ht : t ∈ ticks) {p : Phase}
    (hphase : s'.phase = Function.update s.phase t p) :
    total (fun u => (s'.phase u).unsent k) ticks + (s.phase t).unsent k =
      total (fun u => (s.phase u).unsent k) ticks + p.unsent k := by
  rw [hphase]
  exact total_update (Phase.unsent k) s.phase hnodup ht p

/-- A row that is claimed was free, and is in the list of its tick instead. -/
theorem free_claimed {t t' : Table} {r r' : Row} (h : Claimed t t' r r') (k : MsgKey) :
    free t' k + (if Slot.val r.id = k then 1 else 0) = free t k := by
  have hcell : cell t' = Function.update (cell t) (.val r.id) .taken := by
    have hput : t.get r'.id = some r := by
      rw [h.id_eq]
      exact h.before
    rw [h.after, cell_put hput, h.id_eq, h.row_eq]
    rfl
  unfold free
  rw [hcell]
  by_cases hk : Slot.val r.id = k
  · subst hk
    rw [Function.update_self, if_pos ((cell_eq_free h.before).mpr h.wasPending)]
    simp
  · rw [Function.update_of_ne fun heq => hk heq.symm, if_neg hk]
    omega

/-- What a save leaves free is the row it made PENDING. -/
theorem free_saved {t t' : Table} {m : ScheduledMessage} {r r' : Row} (h : Saved t m t' r r')
    (k : MsgKey) : free t' k ≤ free t k +
      if r'.status = .pending ∧ m.id = k then 1 else 0 := by
  unfold free
  rw [h.cell]
  by_cases hk : m.id = k
  · subst hk
    rw [Function.update_self]
    cases hst : r'.status <;> simp [cellOf]
  · rw [Function.update_of_ne fun heq => hk heq.symm]
    omega

/-- What `s'` has in calls and in what is to come, beyond `s`, was set in between. -/
def Covered (ticks : List TickId) (k : MsgKey) (s s' : Sys) : Prop :=
  calls s'.trace k + toCome ticks s' k + sets s.trace k ≤
    calls s.trace k + toCome ticks s k + sets s'.trace k

/-- A tick moves on to a phase with no more to come, unseen. -/
theorem covered_goto (hnodup : ticks.Nodup) {t : TickId} (ht : t ∈ ticks) {p : Phase}
    (hphase : s'.phase = Function.update s.phase t p) (htable : s'.table = s.table)
    (htrace : s'.trace = s.trace) (hless : p.unsent k ≤ (s.phase t).unsent k) :
    Covered ticks k s s' := by
  have htotal := total_goto (k := k) hnodup ht hphase
  unfold Covered toCome
  rw [htable, htrace]
  omega

theorem covered_claimRow (hnodup : ticks.Nodup) {t : TickId} (ht : t ∈ ticks) {now : Int}
    {ids ids' : List Id} {raw : List Row} {r r' : Row}
    (hph : s.phase t = .claiming now ids raw) (hclaim : Claimed s.table s'.table r r')
    (hphase : s'.phase = Function.update s.phase t (.claiming now ids' (raw ++ [r'])))
    (htrace : s'.trace = s.trace) : Covered ticks k s s' := by
  have htotal := total_goto (k := k) hnodup ht hphase
  have hfree := free_claimed hclaim k
  have hlist : (Phase.claiming now ids' (raw ++ [r'])).unsent k =
      (s.phase t).unsent k + if Slot.val r.id = k then 1 else 0 := by
    rw [hph]
    simp only [Phase.unsent, List.map_append, List.map_cons, List.map_nil, List.count_append,
      List.count_singleton, hclaim.id_eq, beq_iff_eq]
  unfold Covered toCome
  rw [htrace]
  omega

theorem covered_send (hnodup : ticks.Nodup) {t : TickId} (ht : t ∈ ticks)
    {m : ScheduledMessage} {rest : List ScheduledMessage} {request : SendScheduledMessageRequest}
    {time : Int} (hph : s.phase t = .sending m rest)
    (hphase : s'.phase = Function.update s.phase t (.calling m rest))
    (htable : s'.table = s.table) (htrace : s'.trace = .called m.id request time :: s.trace) :
    Covered ticks k s s' := by
  have htotal := total_goto (k := k) hnodup ht hphase
  have hcalls : calls s'.trace k = calls s.trace k + if m.id = k then 1 else 0 := by
    rw [htrace]
    simp [calls, List.countP_cons]
  have hsets : sets s'.trace k = sets s.trace k := by
    rw [htrace]
    simp [sets]
  have hlist : (s.phase t).unsent k =
      (Phase.calling m rest).unsent k + if m.id = k then 1 else 0 := by
    rw [hph]
    simp only [Phase.unsent, List.map_cons, List.count_cons, beq_iff_eq]
  unfold Covered toCome
  rw [htable]
  omega

/-- A tick saves a message that is not PENDING. -/
theorem covered_saved (hnodup : ticks.Nodup) {t : TickId} (ht : t ∈ ticks)
    {m : ScheduledMessage} {site : SaveSite} {rest : List ScheduledMessage} {r r' : Row}
    (hph : s.phase t = .saving m site rest) (hsaved : Saved s.table m s'.table r r')
    (hst : r'.status ≠ .pending)
    (hphase : s'.phase = Function.update s.phase t (afterSave site rest))
    (htrace : s'.trace = s.trace) : Covered ticks k s s' := by
  have htotal := total_goto (k := k) hnodup ht hphase
  have hfree := free_saved hsaved k
  rw [if_neg fun h => hst h.1] at hfree
  have hlist : (afterSave site rest).unsent k ≤ (s.phase t).unsent k := by
    rw [hph]
    exact afterSave_unsent k site rest
  unfold Covered toCome
  rw [htrace]
  omega

/-- A message that is created may be claimed once. -/
theorem covered_inserted {m : ScheduledMessage} {row : Row} {edit : Edit}
    (hins : Inserted s.table m s'.table row) (hphase : s'.phase = s.phase)
    (htrace : s'.trace = .created (.val row.id) edit :: s.trace) : Covered ticks k s s' := by
  have hcalls : calls s'.trace k = calls s.trace k := by
    rw [htrace]
    simp [calls]
  have hsets : sets s'.trace k = sets s.trace k + if Slot.val row.id = k then 1 else 0 := by
    rw [htrace]
    simp [sets, List.countP_cons]
  have hfree : free s'.table k ≤ free s.table k + if Slot.val row.id = k then 1 else 0 := by
    by_cases hk : Slot.val row.id = k
    · have hone := free_le_one s'.table k
      rw [if_pos hk]
      omega
    · -- the other rows are as they were
      have hsame : cell s'.table k = cell s.table k := by
        cases k with
        | undefined | null => rfl
        | val i =>
          have hi : i ≠ row.id := fun h => hk (congrArg Slot.val h.symm)
          have hget := hins.after i
          rw [if_neg hi] at hget
          simp [cell, hget]
      unfold free
      rw [hsame, if_neg hk]
      omega
  unfold Covered toCome
  rw [hphase]
  omega

/-- A message that is updated may be claimed once more. -/
theorem covered_requestSaved {P : Platform} {change : Change} {m : ScheduledMessage} {r r' : Row}
    (hsaved : Saved s.table m s'.table r r') (hgave : change.Gave P m)
    (hphase : s'.phase = s.phase) (htrace : s'.trace = change.obs P m.id :: s.trace) :
    Covered ticks k s s' := by
  have hfree := free_saved hsaved k
  have hcalls : calls s'.trace k = calls s.trace k := by
    rw [htrace]
    cases change <;> simp [calls, Change.obs]
  have hsets : sets s.trace k + (if r'.status = .pending ∧ m.id = k then 1 else 0) ≤
      sets s'.trace k := by
    rw [htrace]
    rcases status_of_gave hgave with ⟨dto, rfl, hst⟩ | ⟨rfl, hst⟩
    · simp only [hsaved.status_eq hst, true_and, Change.obs, sets, List.countP_cons,
        decide_eq_true_eq]
      omega
    · simp [hsaved.status_eq hst, Change.obs, sets]
  unfold Covered toCome
  rw [hphase]
  omega

/-- **Step lemma.** -/
theorem covered_step (hknown : Known newDate es s) (hnodup : ticks.Nodup)
    (hticks : ∀ t, e.tick = some t → t ∈ ticks) (h : step (typeorm newDate) s e = some s') :
    Covered ticks k s s' := by
  cases step_spec h with
  | elapse | create | createRejected | find | findRejected | check | checkRejected
  | requestError => exact Nat.le_refl _
  | acquire | acquireRefused | acquireError | acquireLost | release | crash | claimError
  | select => exact covered_goto hnodup (hticks _ rfl) rfl rfl rfl (Nat.zero_le _)
  | missRow hph =>
    refine covered_goto hnodup (hticks _ rfl) rfl rfl rfl ?_
    rw [hph]
    exact Nat.le_refl _
  | claimed hph =>
    refine covered_goto hnodup (hticks _ rfl) rfl rfl rfl ?_
    rw [hph, Phase.unsent_loop, List.map_map]
    exact Nat.le_refl _
  | @claimRow t i now ids raw table r' hph hi hr =>
    obtain ⟨r, rfl, hclaim⟩ := claimRow_spec hr
    exact covered_claimRow hnodup (hticks _ rfl) hph hclaim rfl rfl
  | send hph => exact covered_send hnodup (hticks _ rfl) hph rfl rfl rfl
  | @ack t m rest hph =>
    have hgoto : Covered ticks k s (s.goto t (.saving (onSent m) .afterSend rest)) := by
      refine covered_goto hnodup (hticks _ rfl) rfl rfl rfl ?_
      rw [hph]
      exact Nat.le_refl _
    -- an acknowledgement is neither a call nor a set
    simpa [Covered, toCome, calls, sets] using hgoto
  | sendError hph =>
    refine covered_goto hnodup (hticks _ rfl) rfl rfl rfl ?_
    rw [hph]
    exact Nat.le_refl _
  | @saved t m site rest table r r' hph hsaved =>
    refine covered_saved hnodup (hticks _ rfl) hph hsaved ?_ rfl rfl
    rcases hknown.final t m site rest hph with hst | hst
    · rw [hsaved.status_eq hst]
      exact ScheduledMessageStatus.noConfusion
    · rw [hsaved.status_eq hst]
      exact ScheduledMessageStatus.noConfusion
  | @saveError t error m site rest hph =>
    refine covered_goto hnodup (hticks _ rfl) rfl rfl rfl ?_
    rw [hph]
    cases site with
    | afterSend => exact Nat.le_refl _
    | onError error' => exact Nat.zero_le _
  | inserted hreq hins => exact covered_inserted hins rfl rfl
  | @requestSaved q fresh change m table row row' hreq hsaved =>
    exact covered_requestSaved hsaved (hknown.wf.changing q change m hreq) rfl rfl

/-- At the start every message is set that may be claimed. -/
theorem init_covered (h : Init s) (k : MsgKey) :
    calls s.trace k + toCome ticks s k ≤ sets s.trace k := by
  obtain ⟨-, hphase, -, -, htrace⟩ := h
  have hcalls : calls s.trace k = 0 := by
    rw [htrace, calls, List.countP_map]
    exact List.countP_eq_zero.mpr fun r _ => by simp
  have hnothing : total (fun t => (s.phase t).unsent k) ticks = 0 := by
    refine total_eq_zero fun t _ => ?_
    rw [hphase t]
    rfl
  have hfree : free s.table k ≤ sets s.trace k := by
    unfold free
    by_cases hcell : cell s.table k = .free
    · rw [if_pos hcell]
      cases k with
      | undefined | null => cases hcell
      | val i =>
        cases hr : s.table.get i with
        | none =>
          rw [cell, hr] at hcell
          cases hcell
        | some r =>
          -- the row of `k` is among those that the trace starts with
          obtain ⟨hmem, hid⟩ := Keyed.get_eq_some.mp hr
          refine List.countP_pos_iff.mpr ⟨.created (.val r.id) r.edit, ?_, by simp [hid]⟩
          rw [htrace]
          exact List.mem_map_of_mem hmem
    · rw [if_neg hcell]
      exact Nat.zero_le _
  unfold toCome
  omega

/-- **Handed over at most as often as set.** On TypeORM as it is, in every run of any
number of ticks and requests, whatever fails, expires or crashes: the messaging service
is called with a message at most once for its creation and once for each update of it
that resolved. -/
theorem calls_le_sets {s₀ : Sys} (h₀ : Init s₀)
    (h : (machine (typeorm newDate)).exec s₀ es = some s) (k : MsgKey) :
    calls s.trace k ≤ sets s.trace k := by
  -- the ticks that take part
  let ticks := (es.filterMap Event.tick).dedup
  have hnodup : ticks.Nodup := List.nodup_dedup _
  have hrun : ∀ es' s', (machine (typeorm newDate)).exec s₀ es' = some s' →
      (∀ e ∈ es', ∀ t, e.tick = some t → t ∈ ticks) →
      calls s'.trace k + toCome ticks s' k ≤ sets s'.trace k := by
    intro es' s' hexec
    refine Machine.exec_history (I := fun es' s' =>
      (∀ e ∈ es', ∀ t, e.tick = some t → t ∈ ticks) →
        calls s'.trace k + toCome ticks s' k ≤ sets s'.trace k) ?_ hexec fun _ => init_covered h₀ k
    intro es₁ s₁ e s₂ hexec₁ hbound hstep htaken
    have hbefore := hbound fun e' he' => htaken e' (List.mem_append_left _ he')
    have hcovered := covered_step (k := k) (known_of_exec h₀ hexec₁) hnodup
      (htaken e (List.mem_append_right _ List.mem_cons_self)) hstep
    unfold Covered at hcovered
    omega
  have hall := hrun es s h fun e he t ht =>
    List.mem_dedup.mpr (List.mem_filterMap.mpr ⟨e, he, ht⟩)
  omega

end Steps

/-- An update that was under way while the message was sent lets a second call through,
and no third. -/
theorem calls_le_sets_twice : ∃ s, (machine (typeorm fun _ => .invalid)).exec
      (Sys.start 60000 dueTable)
      (.find 0 "msg-1" (.val "u") (.update ⟨.val "hi", .undefined, .undefined⟩) ::
        .check 0 :: tickUntilCall ⟨"pod", 0⟩ 60000 ++
        [.ack ⟨"pod", 0⟩, .saved ⟨"pod", 0⟩, .release ⟨"pod", 0⟩ true, .requestSaved 0 ""] ++
        tickUntilCall ⟨"pod", 1⟩ 60000) = some s ∧
    calls s.trace (.val "msg-1") = 2 ∧
      calls s.trace (.val "msg-1") ≤ sets s.trace (.val "msg-1") := by
  have hrun : ((machine (typeorm fun _ => .invalid)).exec (Sys.start 60000 dueTable)
      (.find 0 "msg-1" (.val "u") (.update ⟨.val "hi", .undefined, .undefined⟩) ::
        .check 0 :: tickUntilCall ⟨"pod", 0⟩ 60000 ++
        [.ack ⟨"pod", 0⟩, .saved ⟨"pod", 0⟩, .release ⟨"pod", 0⟩ true, .requestSaved 0 ""] ++
        tickUntilCall ⟨"pod", 1⟩ 60000)).map (fun s => calls s.trace (.val "msg-1")) =
          some 2 := by decide
  rw [Option.map_eq_some_iff] at hrun
  obtain ⟨s, hexec, htwo⟩ := hrun
  exact ⟨s, hexec, htwo, calls_le_sets
    (init_start 60000 (show ∀ r ∈ dueTable.rows, _ by decide)) hexec (.val "msg-1")⟩

end SchedulingService.Messages
