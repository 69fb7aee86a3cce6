import SchedulingService.Messages.Handover
import SchedulingService.Messages.Work

/-!
# Delivery

At most one acknowledged send per message, and no message left PROCESSING with
nobody working on it. Both hold in the runs of the work-claiming pattern that
do not do the one thing each forbids; the system does both things.

* `delivered_at_most_once` — as long as no save makes an acknowledged or a held
  message PENDING again; `stale_update_delivers_twice` is a run in which an
  update's save does;
* `nothing_stranded` — as long as no tick ends before its batch does;
  `failed_saves_strand` is a run in which two failed saves end one.
-/

namespace SchedulingService.Messages

open Js

variable {P : Platform} {s s' : Sys} {e : Event}

/-! ## At most once -/

/-- The messaging service acknowledges at most one send of each message. -/
def DeliversAtMostOnce (P : Platform) (C : Sys → Event → Prop) : Prop :=
  ∀ s, (machine P).Reachable C s → ∀ k, acks s.trace k ≤ 1

/-- No save makes a message PENDING again once it was acknowledged; nor does an
update's save while a tick holds the message. -/
def NoRequeueOfSent (s : Sys) : Event → Prop
  | .requestSaved r _ => ∀ dto m, s.request r = .saving (.update dto) m →
      acks s.trace m.id = 0 ∧ ∀ t, ¬ s.Holds t m.id
  | .saved t => ∀ m site rest, s.phase t = .saving m site rest →
      m.status = .val .pending → acks s.trace m.id = 0
  | _ => True

theorem NoRequeueOfSent.work {a : WorkClaim.Event MsgKey TickId}
    (hC : NoRequeueOfSent s e) (ha : WorkEvent s e a) :
    WorkClaim.NoSecondChance s.work a := by
  cases ha with
  | settle hph hagain =>
    intro h k hk
    -- the head of the list is the message being saved
    rw [show s.work.held _ = _ from congrArg Phase.held hph, Phase.held, List.head?_cons,
      Option.mem_some_iff] at hk
    exact hk ▸ hC _ _ _ hph (hagain h)
  | write hreq hagain =>
    intro h
    obtain ⟨dto, rfl⟩ := hagain h
    exact hC dto _ hreq
  | _ => trivial

/-- **At most once.** In every run in which nothing makes an acknowledged or a
held message PENDING again. -/
theorem delivered_at_most_once (P : Platform) : DeliversAtMostOnce P NoRequeueOfSent :=
  fun _ h => WorkClaim.delivered_le_one
    (reachable_work (J := fun _ => True) (fun _ _ => trivial)
      (fun _ _ _ _ => NoRequeueOfSent.work) h)

/-! ## Nothing stranded -/

/-- Every PROCESSING row is held by a tick still running; so when none runs, no
row is PROCESSING. -/
def NothingStranded (P : Platform) (C : Sys → Event → Prop) : Prop :=
  ∀ s, (machine P).Reachable C s →
    (∀ r ∈ s.table.rows, r.status = .processing →
      ∃ t, (s.phase t).running = true ∧ s.Holds t (.val r.id)) ∧
    ((∀ t, (s.phase t).running = false) → ∀ r ∈ s.table.rows, r.status ≠ .processing)

/-- No tick ends, by a crash, by a throw out of the catch block of `sendMessage`
or by one out of its logging, while a message it would go on with is
PROCESSING. -/
def NoEarlyEnd (s : Sys) : Event → Prop
  | .crash t => ∀ k, s.Holds t k → cell s.table k ≠ .taken
  | .saveError t _ => ∀ m error rest, s.phase t = .saving m (.onError error) rest →
      ∀ k, s.Holds t k → cell s.table k ≠ .taken
  | .saved t => ∀ m site rest, s.phase t = .saving m site rest → site.goesOn = false →
      ∀ m' ∈ rest, cell s.table m'.id ≠ .taken
  | _ => True

theorem NoEarlyEnd.work {a : WorkClaim.Event MsgKey TickId} (hC : NoEarlyEnd s e)
    (ha : WorkEvent s e a) : WorkClaim.NoEarlyStop s.work a := by
  cases ha with
  | @settle t m site rest again goOn hph hagain hgoOn =>
    cases goOn with
    | true => trivial
    | false =>
      intro k hk
      rw [show s.work.held _ = _ from congrArg Phase.held hph, Phase.held, List.tail_cons,
        List.mem_map] at hk
      obtain ⟨m', hm', rfl⟩ := hk
      exact hC m site rest hph (hgoOn rfl) m' hm'
  | stop hph => exact hC _ _ _ hph
  | crash => exact hC
  | _ => trivial

theorem running_of_held {p : Phase} {k : MsgKey} (h : k ∈ p.held) : p.running = true := by
  cases p <;> first | rfl | exact absurd h (by simp [Phase.held])

/-- **Nothing stranded.** In every run in which no tick ends early. -/
theorem nothing_stranded (P : Platform) : NothingStranded P NoEarlyEnd := by
  intro s h
  have hheld : ∀ r ∈ s.table.rows, r.status = .processing →
      ∃ t, (s.phase t).running = true ∧ s.Holds t (.val r.id) := by
    intro r hr hst
    -- a PROCESSING row is a taken item, and those are held
    have hcell : s.work.cell (.val r.id) = .taken := by
      refine (cell_eq (Keyed.get_eq_some.mpr ⟨hr, rfl⟩)).trans ?_
      rw [hst]
      rfl
    obtain ⟨t, ht⟩ := WorkClaim.taken_is_held (reachable_work (J := fun _ => True)
      (fun _ _ => trivial) (fun _ _ _ _ => NoEarlyEnd.work) h) _ hcell
    exact ⟨t, running_of_held ht, ht⟩
  refine ⟨hheld, fun hquiet r hr hst => ?_⟩
  obtain ⟨t, hrun, -⟩ := hheld r hr hst
  rw [hquiet t] at hrun
  exact absurd hrun (by simp)

/-! ## The runs that break them -/

/-- Takes the lock, claims `msg-1` and calls the messaging service for it. -/
def tickUntilCall (t : TickId) (now : Int) : List Event :=
  .acquire t :: claimEvents t now ["msg-1"] ["msg-1"] ++ [.send t]

/-- An update that read the message before the tick and saves after it makes
the sent message PENDING, and the next tick sends it again. -/
theorem stale_update_delivers_twice :
    ¬ DeliversAtMostOnce (typeorm fun _ => .invalid) Machine.always := by
  intro h
  have hrun : ∃ s, (machine (typeorm fun _ => .invalid)).Reachable Machine.always s ∧
      decide (2 ≤ acks s.trace (.val "msg-1")) = true :=
    Machine.Reachable.of_exec (init_start 60000 (show ∀ r ∈ dueTable.rows, _ by decide))
      (fun _ _ _ => trivial)
      (show ((machine _).exec (Sys.start 60000 dueTable)
        (.find 0 "msg-1" (.val "u") (.update ⟨.val "hi", .undefined, .undefined⟩) ::
          .check 0 :: tickUntilCall ⟨"pod", 0⟩ 60000 ++
          [.ack ⟨"pod", 0⟩, .saved ⟨"pod", 0⟩, .release ⟨"pod", 0⟩ true,
            .requestSaved 0 ""] ++
          tickUntilCall ⟨"pod", 1⟩ 60000 ++ [.ack ⟨"pod", 1⟩])).map _ = some true by decide)
  obtain ⟨s, hs, hp⟩ := hrun
  have hle : acks s.trace (.val "msg-1") ≤ 1 := h s hs _
  have hge : 2 ≤ acks s.trace (.val "msg-1") := of_decide_eq_true hp
  omega

/-- Both saves of `sendMessage` fail: the tick is over and its message stays
PROCESSING. -/
theorem failed_saves_strand :
    ¬ NothingStranded (typeorm fun _ => .invalid) Machine.always := by
  intro h
  have hrun : ((machine (typeorm fun _ => .invalid)).exec (Sys.start 60000 dueTable)
      (tickUntilCall ⟨"pod", 0⟩ 60000 ++
        [.ack ⟨"pod", 0⟩, .saveError ⟨"pod", 0⟩ (.obj []), .saveError ⟨"pod", 0⟩ (.obj []),
          .release ⟨"pod", 0⟩ true])).map (fun s =>
      s.table.rows.any (fun r => r.status = .processing) &&
        !(s.phase ⟨"pod", 0⟩).running) = some true := by decide
  rw [Option.map_eq_some_iff] at hrun
  obtain ⟨s, hs, hp⟩ := hrun
  rw [Bool.and_eq_true, List.any_eq_true, Bool.not_eq_true'] at hp
  obtain ⟨⟨r, hr, hst⟩, hover⟩ := hp
  have hreach : (machine (typeorm fun _ => .invalid)).Reachable Machine.always s :=
    ⟨_, init_start 60000 (show ∀ r ∈ dueTable.rows, _ by decide),
      .of_exec (fun _ _ _ => trivial) hs⟩
  -- only one tick ever started, and it is over
  refine (h s hreach).2 (fun t => ?_) r hr (of_decide_eq_true hst)
  by_cases ht : t = ⟨"pod", 0⟩
  · rw [ht, hover]
  · rw [exec_phase_frame (t := t) ?_ hs]
    · rfl
    · have ht' : (⟨"pod", 0⟩ : TickId) ≠ t := fun h => ht h.symm
      simp [tickUntilCall, claimEvents, Event.tick, ht']

end SchedulingService.Messages
