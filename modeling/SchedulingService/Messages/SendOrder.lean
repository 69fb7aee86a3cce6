import SchedulingService.Messages.Batch
import SchedulingService.Messages.Handover
import SchedulingService.Messages.Tick

/-!
# The order of a tick's sends

The candidates are selected by time and claimed by an UPDATE over their ids, which
answers the claimed rows in an order of its own. The loop keeps to that order.

Main results:

* `callsOf_prefix` — whatever else happens, a tick sends the rows of its UPDATE one
  after another, as they were answered;
* `inTimeOrder_iff` — when these sends are in time order.
-/

namespace SchedulingService.Messages

open Js

/-! ## What a tick sends -/

/-- The message tick `t` passes to `sendMessage` by an event. -/
def passed (t : TickId) : Phase → Event → List MsgKey
  | .sending m _, .send u => if u = t then [m.id] else []
  | _, _ => []

/-- The messages tick `t` passes to `sendMessage` along some events. -/
def callsOf (P : Platform) (t : TickId) (s : Sys) : List Event → List MsgKey
  | [] => []
  | e :: es => passed t (s.phase t) e ++ (step P s e).elim [] fun s' => callsOf P t s' es

/-- Messages sent in the order of their rows' times. -/
def InTimeOrder (raw : List Row) (keys : List MsgKey) : Prop :=
  keys.Pairwise fun k k' => ∀ r ∈ raw, ∀ r' ∈ raw, k = .val r.id → k' = .val r'.id →
    r.scheduledAt < r'.scheduledAt

/-- The messages a tick has still to send, once its UPDATE has visited every
candidate. -/
def Phase.upcoming : Phase → Option (List MsgKey)
  | .claiming _ [] raw => some (raw.map fun r => .val r.id)
  | .sending m rest => some (m.id :: rest.map ScheduledMessage.id)
  | .calling _ rest => some (rest.map ScheduledMessage.id)
  | .saving _ _ rest => some (rest.map ScheduledMessage.id)
  | .releasing => some []
  | .finished => some []
  | .crashed => some []
  | _ => none

@[simp] theorem upcoming_loop (ms : List ScheduledMessage) :
    (Phase.loop ms).upcoming = some (ms.map ScheduledMessage.id) := by
  cases ms <;> rfl

section Order

variable {P : Platform} {s s' : Sys} {t : TickId} {keys : List MsgKey}

theorem callsOf_cons {e : Event} (h : (machine P).step s e = some s') (es : List Event) :
    callsOf P t s (e :: es) = passed t (s.phase t) e ++ callsOf P t s' es := by
  have hstep : step P s e = some s' := h
  rw [callsOf, hstep, Option.elim_some]

/-- A tick that stays where it is sends nothing. -/
theorem passed_of_same {e : Event} (hs : Step P s e s') (hsame : s'.phase t = s.phase t) :
    passed t (s.phase t) e = [] := by
  unfold passed
  split
  · rename_i m rest u hsending
    by_cases hu : u = t
    · subst hu
      cases hs with
      | send hph =>
        rw [hsending] at hsame
        simp at hsame
    · exact if_neg hu
  · rfl

/-- **One step**: what is sent and what is still to be sent is the beginning of what
was to be sent. -/
theorem upcoming_step {e : Event} (hs : Step P s e s') (h : (s.phase t).upcoming = some keys) :
    ∃ keys', (s'.phase t).upcoming = some keys' ∧
      (passed t (s.phase t) e ++ keys').IsPrefix keys := by
  rcases phase_step hs t with hsame | hphase
  · refine ⟨keys, by rw [hsame, h], ?_⟩
    rw [passed_of_same hs hsame]
    exact List.prefix_rfl
  · generalize s.phase t = p at h hphase
    generalize s'.phase t = p' at hphase ⊢
    cases hphase with
    | acquire | acquireRefused | acquireError | select => cases h
    | @claimRow now i ids raw r r' hi =>
      -- no candidate is left to visit
      cases ids with
      | nil => cases hi
      | cons => cases h
    | @missRow now i ids raw =>
      cases ids with
      | nil => exact ⟨keys, h, List.prefix_rfl⟩
      | cons => cases h
    | claimed =>
      -- the entities are in the order of the rows
      refine ⟨keys, ?_, List.prefix_rfl⟩
      rw [upcoming_loop, ← h, List.map_map]
      exact congrArg some (List.map_congr_left fun r _ => P.materialize_id r)
    | send =>
      refine ⟨_, rfl, ?_⟩
      rw [← Option.some.inj h]
      simp [passed]
    | ack | sendError => exact ⟨keys, h, List.prefix_rfl⟩
    | @saved m site rest =>
      unfold afterSave
      split
      · exact ⟨keys, by rw [upcoming_loop]; exact h, List.prefix_rfl⟩
      · -- what the catch block throws ends the loop
        exact ⟨[], rfl, List.nil_prefix⟩
    | @saveError error m site rest =>
      cases site with
      | afterSend => exact ⟨keys, h, List.prefix_rfl⟩
      | onError => exact ⟨[], rfl, List.nil_prefix⟩
    | release => exact ⟨[], rfl, List.nil_prefix⟩
    | @claimError p | @crash p =>
      refine ⟨[], rfl, ?_⟩
      cases p <;> exact List.nil_prefix

/-- **A tick's sends**, whatever else happens, are the beginning of what it had to
send. -/
theorem callsOf_prefix {es : List Event} (hexec : (machine P).exec s es = some s')
    (h : (s.phase t).upcoming = some keys) : (callsOf P t s es).IsPrefix keys := by
  induction es generalizing s keys with
  | nil => exact List.nil_prefix
  | cons e es ih =>
    rw [Machine.exec, Option.bind_eq_some_iff] at hexec
    obtain ⟨s₁, hs, hrest⟩ := hexec
    obtain ⟨keys', hkeys', hprefix⟩ := upcoming_step (step_spec hs) h
    rw [callsOf_cons hs]
    have hlater : (passed t (s.phase t) e ++ callsOf P t s₁ es).IsPrefix
        (passed t (s.phase t) e ++ keys') := (List.prefix_append_right_inj _).mpr (ih hrest hkeys')
    exact hlater.trans hprefix

end Order

/-! ## The rows an UPDATE answers -/

/-- While a tick's UPDATE runs, its candidates and the rows answered so far are all
different, and the rows are stored. -/
def Answering (s : Sys) : Prop :=
  ∀ t now ids raw, s.phase t = .claiming now ids raw →
    (ids ++ raw.map Row.id).Nodup ∧ ∀ r ∈ raw, ∃ r', s.table.get r.id = some r'

theorem row_stays {P : Platform} {s s' : Sys} {e : Event} (hs : Step P s e s') {i : Id}
    (h : ∃ r, s.table.get i = some r) : ∃ r, s'.table.get i = some r := by
  obtain ⟨r, hr⟩ := h
  obtain ⟨r', hr', -⟩ := row_step hs hr
  exact ⟨r', hr'⟩

theorem rows_stay {P : Platform} {s s' : Sys} {rows : List Row} (e : Event)
    (h : (machine P).step s e = some s') (hstored : ∀ r ∈ rows, ∃ r', s.table.get r.id = some r') :
    ∀ r ∈ rows, ∃ r', s'.table.get r.id = some r' :=
  fun r hr => row_stays (step_spec h) (hstored r hr)

theorem answering_step {P : Platform} {s s' : Sys} {e : Event} (hI : Answering s)
    (hs : Step P s e s') : Answering s' := by
  intro t now ids raw hclaiming
  rcases phase_step hs t with hsame | hphase
  · rw [hsame] at hclaiming
    obtain ⟨hnodup, hstored⟩ := hI t now ids raw hclaiming
    exact ⟨hnodup, fun r hr => row_stays hs (hstored r hr)⟩
  · generalize hbefore : s.phase t = before at hphase
    generalize hafter : s'.phase t = after at hphase hclaiming
    cases hphase with
    | select hnow hsel =>
      obtain ⟨rfl, rfl, rfl⟩ := Phase.claiming.inj hclaiming
      -- the SELECT answers no id twice
      have hnodup : (candidateIds _).Nodup := hsel.nodup.sublist (List.take_sublist _ _)
      exact ⟨by simpa using hnodup, by simp⟩
    | @claimRow _ i ids₀ raw₀ r r' hi hclaimed hid =>
      obtain ⟨rfl, rfl, rfl⟩ := Phase.claiming.inj hclaiming
      obtain ⟨hnodup, hstored⟩ := hI t _ _ _ hbefore
      refine ⟨?_, fun q hq => ?_⟩
      · -- the candidate leaves the one list for the other
        have hperm : (ids₀.erase i ++ (raw₀ ++ [r']).map Row.id).Perm
            (ids₀ ++ raw₀.map Row.id) := by
          rw [List.map_append, List.map_singleton, hclaimed.id_eq, hid, ← List.append_assoc]
          exact (List.perm_append_singleton i _).trans
            ((List.perm_cons_erase hi).symm.append_right _)
        exact hperm.nodup_iff.mpr hnodup
      · rcases List.mem_append.mp hq with hq | hq
        · exact row_stays hs (hstored q hq)
        · obtain rfl := List.mem_singleton.mp hq
          exact ⟨q, by rw [hclaimed.id_eq]; exact hclaimed.get_self⟩
    | @missRow _ i =>
      obtain ⟨rfl, rfl, rfl⟩ := Phase.claiming.inj hclaiming
      obtain ⟨hnodup, hstored⟩ := hI t _ _ _ hbefore
      exact ⟨hnodup.sublist (List.erase_sublist.append_right _),
        fun r hr => row_stays hs (hstored r hr)⟩
    | @claimed _ raw₀ => cases raw₀ <;> cases hclaiming
    | @saved m site rest =>
      unfold afterSave at hclaiming
      split at hclaiming
      · cases rest <;> cases hclaiming
      · cases hclaiming
    | @saveError _ _ site => cases site <;> cases hclaiming
    | _ => cases hclaiming

theorem answering_of_reachable {P : Platform} {C : Sys → Event → Prop} {s : Sys}
    (h : (machine P).Reachable C s) : Answering s := by
  refine h.invariant (I := Answering) (fun s₀ h₀ t now ids raw hclaiming => ?_)
    fun _ _ _ hI _ hs => answering_step hI (step_spec hs)
  rw [h₀.2.1 t] at hclaiming
  cases hclaiming

/-! ## A tick without failures -/

/-- The save after a send goes through. -/
theorem save_onSent (newDate : String → Date) {T : Table} {r : Row}
    (hr : ∃ r', T.get r.id = some r') :
    ∃ T', save T (onSent ((typeorm newDate).materialize r)) = some T' := by
  obtain ⟨r', hr'⟩ := hr
  have hmaterialize : (typeorm newDate).materialize r = _ := repositoryCreate_returningAll r
  rw [hmaterialize]
  simp [save, onSent, hr', ScheduledMessage.overwrite, writeColumn, writeTimestamp]

/-- The loop can come to its end. -/
theorem exists_calls (newDate : String → Date) {s : Sys} {t : TickId} {rows : List Row}
    (hphase : s.phase t = .loop (rows.map (typeorm newDate).materialize))
    (hstored : ∀ r ∈ rows, ∃ r', s.table.get r.id = some r') :
    ∃ es s', (machine (typeorm newDate)).exec s es = some s' ∧
      callsOf (typeorm newDate) t s es = rows.map fun r => .val r.id := by
  induction rows generalizing s with
  | nil => exact ⟨[], s, rfl, rfl⟩
  | cons r rows ih =>
    -- the call resolves and the status is saved
    obtain ⟨s₁, hs₁, -, hphase₁⟩ := step_send (P := typeorm newDate) hphase
    obtain ⟨s₂, hs₂, -, hphase₂⟩ := step_ack (P := typeorm newDate) hphase₁
    have hstored₂ := rows_stay (.ack t) hs₂ (rows_stay (.send t) hs₁ hstored)
    obtain ⟨T, hsave⟩ := save_onSent newDate (hstored₂ r List.mem_cons_self)
    obtain ⟨s₃, hs₃, -, hphase₃⟩ := step_saved (P := typeorm newDate) hphase₂ hsave
    obtain ⟨es, s', hexec, hcalls⟩ := ih hphase₃ fun q hq =>
      rows_stay (.saved t) hs₃ hstored₂ q (List.mem_cons_of_mem r hq)
    refine ⟨.send t :: .ack t :: .saved t :: es, s', ?_, ?_⟩
    · rw [Machine.exec_cons hs₁, Machine.exec_cons hs₂, Machine.exec_cons hs₃, hexec]
    · have hid : ((typeorm newDate).materialize r).id = .val r.id :=
        (typeorm newDate).materialize_id r
      rw [callsOf_cons hs₁, callsOf_cons hs₂, callsOf_cons hs₃, hcalls, hphase, hphase₁, hphase₂]
      simp [Phase.loop, passed, hid]

/-! ## In time order -/

/-- Sending all the rows in their order is sending them in time order if that is
theirs. -/
theorem inTimeOrder_map_iff {raw : List Row} (hnodup : (raw.map Row.id).Nodup) :
    InTimeOrder raw (raw.map fun r => .val r.id) ↔
      raw.Pairwise fun r r' => r.scheduledAt < r'.scheduledAt := by
  -- the key of a row is that of no other
  have hinj : ∀ r ∈ raw, ∀ q ∈ raw, Slot.val q.id = Slot.val r.id → r = q := by
    intro r hr q hq hid
    exact (List.inj_on_of_nodup_map hnodup hq hr (Slot.val.inj hid)).symm
  rw [InTimeOrder, List.pairwise_map]
  constructor
  · intro h
    exact h.imp_of_mem fun hr hr' hlt => hlt _ hr _ hr' rfl rfl
  · intro h
    refine h.imp_of_mem fun hr hr' hlt q hq q' hq' hid hid' => ?_
    rw [hinj q hq _ hr hid, hinj q' hq' _ hr' hid']
    exact hlt

/-- **The sends of a tick are in time order**, whatever else happens, exactly if its
UPDATE answered the claimed rows in that order. -/
theorem inTimeOrder_iff (newDate : String → Date) {s : Sys} {t : TickId} {now : Int}
    {raw : List Row} (hs : (machine (typeorm newDate)).Reachable Machine.always s)
    (hphase : s.phase t = .claiming now [] raw) :
    (∀ es s', (machine (typeorm newDate)).exec s es = some s' →
      InTimeOrder raw (callsOf (typeorm newDate) t s es)) ↔
        raw.Pairwise fun r r' => r.scheduledAt < r'.scheduledAt := by
  obtain ⟨hnodup, hstored⟩ := answering_of_reachable hs t now [] raw hphase
  rw [← inTimeOrder_map_iff hnodup]
  constructor
  · intro h
    -- the run in which nothing fails sends all of them
    have hclaimed : (machine (typeorm newDate)).step s (.claimed t) =
        some (s.goto t (.loop (raw.map (typeorm newDate).materialize))) := by
      simp only [machine, step, hphase]
    obtain ⟨es, s', hexec, hcalls⟩ := exists_calls newDate (s := s.goto t _) (t := t)
      (Function.update_self _ _ _) hstored
    have horder := h (.claimed t :: es) s' (by rw [Machine.exec_cons hclaimed]; exact hexec)
    rw [callsOf_cons hclaimed, hcalls, hphase] at horder
    exact horder
  · intro h es s' hexec
    -- and a beginning of what is in order is in order
    have hprefix := callsOf_prefix hexec (t := t) (by rw [hphase]; rfl)
    exact h.sublist hprefix.sublist

/-- Two messages of one conversation, both due. -/
def twoDue : Table where
  rows := [{ dueMessage with id := "msg-1", scheduledAt := 1000 },
    { dueMessage with id := "msg-2", scheduledAt := 2000 }]
  nodup := by decide

/-- The tick has the ids by time, and its UPDATE comes to the later row first. -/
def laterRowFirst (t : TickId) : List Event :=
  [.acquire t, .select t 60000 ["msg-1", "msg-2"], .claimRow t "msg-2", .claimRow t "msg-1"]

/-- Then the later message is sent first. -/
theorem later_message_sent_first :
    (twoDue.rows.map Row.scheduledAt).Nodup ∧
    (∀ r ∈ twoDue.rows, r.due 60000 = true) ∧
    ((machine (typeorm fun _ => .invalid)).exec (Sys.start 60000 twoDue)
      (laterRowFirst ⟨"pod-a", 0⟩ ++ [.claimed ⟨"pod-a", 0⟩, .send ⟨"pod-a", 0⟩,
        .ack ⟨"pod-a", 0⟩, .saved ⟨"pod-a", 0⟩, .send ⟨"pod-a", 0⟩])).isSome = true ∧
    ¬ InTimeOrder twoDue.rows (callsOf (typeorm fun _ => .invalid) ⟨"pod-a", 0⟩
      (Sys.start 60000 twoDue) (laterRowFirst ⟨"pod-a", 0⟩ ++ [.claimed ⟨"pod-a", 0⟩,
        .send ⟨"pod-a", 0⟩, .ack ⟨"pod-a", 0⟩, .saved ⟨"pod-a", 0⟩, .send ⟨"pod-a", 0⟩])) := by
  have hcalls : callsOf (typeorm fun _ => .invalid) ⟨"pod-a", 0⟩ (Sys.start 60000 twoDue)
      (laterRowFirst ⟨"pod-a", 0⟩ ++ [.claimed ⟨"pod-a", 0⟩, .send ⟨"pod-a", 0⟩,
        .ack ⟨"pod-a", 0⟩, .saved ⟨"pod-a", 0⟩, .send ⟨"pod-a", 0⟩]) =
      [.val "msg-2", .val "msg-1"] := by decide
  refine ⟨by decide, by decide, by decide, fun h => ?_⟩
  rw [hcalls] at h
  have hlt := (List.pairwise_pair.mp h) { dueMessage with id := "msg-2", scheduledAt := 2000 }
    (by simp [twoDue]) { dueMessage with id := "msg-1", scheduledAt := 1000 }
    (by simp [twoDue]) rfl rfl
  simp at hlt

/-- What the UPDATE answers there. -/
theorem inTimeOrder_iff_twoDue : ∃ s,
    (machine (typeorm fun _ => .invalid)).Reachable Machine.always s ∧
    ∃ raw, s.phase ⟨"pod-a", 0⟩ = .claiming 60000 [] raw ∧
    ((∀ es s', (machine (typeorm fun _ => .invalid)).exec s es = some s' →
      InTimeOrder raw (callsOf (typeorm fun _ => .invalid) ⟨"pod-a", 0⟩ s es)) ↔
        raw.Pairwise fun r r' => r.scheduledAt < r'.scheduledAt) := by
  have hexec : (machine (typeorm fun _ => .invalid)).exec (Sys.start 60000 twoDue)
      (laterRowFirst ⟨"pod-a", 0⟩) = some _ := rfl
  have hreachable := Machine.Run.of_exec (C := Machine.always) (fun _ _ _ => trivial) hexec
  have hinit := init_start 60000 (show ∀ r ∈ twoDue.rows, _ by decide)
  exact ⟨_, ⟨_, hinit, hreachable⟩, _, rfl,
    inTimeOrder_iff (fun _ => .invalid) ⟨_, hinit, hreachable⟩ rfl⟩

end SchedulingService.Messages
