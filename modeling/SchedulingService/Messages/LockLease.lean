import SchedulingService.Messages.Handover

/-!
# The processing lock as a lease

The lock is signed with `lockOwnerId`, which belongs to the process and not to
the acquisition. Ticks of different pods are told apart, two ticks of one pod
are not: when the first outlives its 55 s and releases, it deletes the key the
second one holds.

* `lease_step` — ticks follow the protocol of `Lease`, signing with their pod;
* `lock_is_lease` — the lock is a lease as long as no release reaches Redis
  while another tick of its process has set the key that is there;
* `late_release_breaks_lease` is a run in which one does.
-/

namespace SchedulingService.Messages

open Js

variable {P : Platform} {s s' : Sys} {e : Event}

/-! ## The refinement -/

/-- The lock and the ticks as server and holders. -/
def Sys.lease (s : Sys) : Lease.State TickId Pod where
  now := s.now
  key := s.lock
  since := s.lockedAt
  released := Phase.isFinished ∘ s.phase

/-- The tick's `acquireLock` succeeded less than 55 s ago and it has not called
`releaseLock`. -/
def InLease (s : Sys) (t : TickId) : Prop := Lease.Holds LOCK_TTL_MS s.lease t

/-- No script of a `releaseLock` runs while the key is there, carries the
`lockOwnerId` of the tick's process, and was set by another tick. -/
def ReleasesOwnKey (s : Sys) : Event → Prop
  | .release t reached => reached = true →
      ∀ k, Lease.liveKey s.now s.lock = some k → k.value = t.pod → k.setBy = t
  | _ => True

/-- The lease protocol as the ticks run it. -/
abbrev leaseMachine : Machine (Lease.State TickId Pod) (Lease.Event TickId) :=
  Lease.machine LOCK_TTL_MS TickId.pod

theorem released_update {t : TickId} {p : Phase} (hp : p.isFinished = (s.phase t).isFinished) :
    Phase.isFinished ∘ Function.update s.phase t p = Phase.isFinished ∘ s.phase := by
  rw [Function.comp_update, hp]
  exact Function.update_eq_self t (Phase.isFinished ∘ s.phase)

section Moves

variable {D : Lease.State TickId Pod → Lease.Event TickId → Prop} {t : TickId} {p : Phase}

/-- A tick that moves on without finishing is no step of the protocol. -/
theorem lease_move (hphase : s'.phase = Function.update s.phase t p) (hnow : s'.now = s.now)
    (hlock : s'.lock = s.lock) (hsince : s'.lockedAt = s.lockedAt)
    (hp : p.isFinished = (s.phase t).isFinished) : leaseMachine.Run D s.lease s'.lease := by
  have heq : s'.lease = s.lease := by
    rw [Sys.lease, Sys.lease, hnow, hlock, hsince, hphase, released_update hp]
  rw [heq]
  exact .refl

/-- One that ends without releasing lets go of whatever it had. -/
theorem lease_finish (hD : D s.lease (.releaseLost t))
    (hphase : s'.phase = Function.update s.phase t .finished) (hnow : s'.now = s.now)
    (hlock : s'.lock = s.lock) (hsince : s'.lockedAt = s.lockedAt) :
    leaseMachine.Run D s.lease s'.lease := by
  refine .single hD (congrArg some ?_)
  rw [Sys.lease, Sys.lease, hnow, hlock, hsince, hphase, Function.comp_update]
  rfl

end Moves

theorem isFinished_loop (ms : List ScheduledMessage) : (Phase.loop ms).isFinished = false := by
  cases ms <;> rfl

theorem isFinished_afterSave (site : SaveSite) (rest : List ScheduledMessage) :
    (afterSave site rest).isFinished = false := by
  unfold afterSave
  split
  · exact isFinished_loop rest
  · rfl

theorem isFinished_afterSaveError (m : ScheduledMessage) (error : Value) (site : SaveSite)
    (rest : List ScheduledMessage) : (afterSaveError m error site rest).isFinished = false := by
  cases site <;> rfl

/-- **Ticks follow the lease protocol.** -/
theorem lease_step (hI : Wf P s) (hC : ReleasesOwnKey s e) (hs : Step P s e s') :
    leaseMachine.Run (Lease.OwnKeyOnly TickId.pod) s.lease s'.lease := by
  cases hs with
  | @elapse ms => exact .single (e := .elapse ms) trivial rfl
  | @acquire t k hph hk =>
    refine .single (e := .acquire t) trivial ?_
    have hsince : s.lease.since t = none := hI.unlocked t hph
    have hset : Lease.setNX s.lease.now LOCK_TTL_MS t.pod t s.lease.key = some k := hk
    have hrel : Phase.isFinished ∘ Function.update s.phase t .locked =
        Phase.isFinished ∘ s.phase := released_update (by rw [hph]; rfl)
    simp only [Lease.machine, Lease.step, hsince, hset]
    simp only [Sys.lease, Sys.goto_phase, Sys.goto_now, hrel]
  | acquireRefused hph hk => exact lease_finish trivial rfl rfl rfl rfl
  | acquireError hph => exact lease_finish trivial rfl rfl rfl rfl
  | @acquireLost t k hph hk =>
    -- the key is set but its setter does not know, and ends
    have hsince : s.lease.since t = none := hI.unlocked t hph
    have hset : Lease.setNX s.lease.now LOCK_TTL_MS t.pod t s.lease.key = some k := hk
    have hlost : leaseMachine.step s.lease (.acquireLost t) =
        some { s with lock := some k }.lease := by
      simp only [Lease.machine, Lease.step, hsince, hset]
      rfl
    exact .trans (.single (e := .acquireLost t) trivial hlost)
      (lease_finish trivial rfl rfl rfl rfl)
  | @release t reached hph =>
    cases reached with
    -- a release that never reached Redis
    | false => exact lease_finish trivial rfl rfl rfl rfl
    | true =>
      refine .single (e := .release t) (hC rfl) (congrArg some ?_)
      simp only [Sys.lease, Sys.goto_phase, Sys.goto_now, Function.comp_update]
      rfl
  | select hph | claimRow hph | missRow hph | send hph | ack hph | sendError hph =>
    exact lease_move rfl rfl rfl rfl (by rw [hph]; rfl)
  | claimed hph => exact lease_move rfl rfl rfl rfl (by rw [hph, isFinished_loop]; rfl)
  | claimError hph =>
    exact lease_move rfl rfl rfl rfl (by rcases hph with h | ⟨_, _, h⟩ <;> rw [h] <;> rfl)
  | saved hph => exact lease_move rfl rfl rfl rfl (by rw [hph, isFinished_afterSave]; rfl)
  | saveError hph =>
    exact lease_move rfl rfl rfl rfl (by rw [hph, isFinished_afterSaveError]; rfl)
  | @crash t hph =>
    -- a crashed tick never calls release and keeps its lease
    have hrun : (s.phase t).isFinished = false := by
      cases hp : s.phase t <;> first | rfl | (rw [hp] at hph; exact absurd hph (by decide))
    exact lease_move rfl rfl rfl rfl (by rw [hrun]; rfl)
  | _ => exact .refl

theorem reachable_lease (h : (machine P).Reachable ReleasesOwnKey s) :
    leaseMachine.Reachable (Lease.OwnKeyOnly TickId.pod) s.lease := by
  have hsim : Machine.Simulation (machine P) ReleasesOwnKey (Wf P) leaseMachine
      (Lease.OwnKeyOnly TickId.pod) Sys.lease :=
    ⟨fun s h₀ => ⟨wf_init h₀, h₀.2.2.1⟩, fun s e s' hI hC hstep =>
      ⟨wf_step hI (step_spec hstep), lease_step hI hC (step_spec hstep)⟩⟩
  exact (hsim.reachable h).2

/-! ## The lease -/

/-- While a tick is inside its lease no other tick's `acquireLock` succeeds; and no
`releaseLock` touches a key that another tick has set, whether or not that one is
still inside its lease. -/
structure LockIsLease (P : Platform) (C : Sys → Event → Prop) : Prop where
  exclusive : ∀ s t t' s', (machine P).Reachable C s → InLease s t → t' ≠ t →
    C s (.acquire t') → (machine P).step s (.acquire t') = some s' → s'.lockedAt t' = none
  untouched : ∀ s t k reached s', (machine P).Reachable C s → s.lock = some k → k.setBy ≠ t →
    C s (.release t reached) → (machine P).step s (.release t reached) = some s' →
    s'.lock = s.lock

/-- **The lock is a lease**, in every run in which no release reaches Redis while the
key that is there was set by another tick of its process. -/
theorem lock_is_lease (P : Platform) : LockIsLease P ReleasesOwnKey where
  exclusive := by
    intro s t t' s' h hin hne _ hstep
    have hI := wf_of_reachable h
    have hs : Step P s (.acquire t') s' := step_spec hstep
    cases hs with
    | acquire hph hk =>
      rw [show Lease.setNX s.now LOCK_TTL_MS t'.pod t' s.lock = none from
        Lease.lease_exclusive (reachable_lease h) hin] at hk
      exact absurd hk (by simp)
    | acquireRefused hph hk => exact hI.unlocked t' hph
  untouched := by
    intro s t k reached s' h hkey hother hC hstep
    have hs : Step P s (.release t reached) s' := step_spec hstep
    cases hs with
    | release hph =>
      cases reached with
      | false => rfl
      | true =>
        show Lease.compareAndDelete s.now t.pod s.lock = s.lock
        rw [hkey]
        refine Lease.compareAndDelete_eq_self_iff.mpr fun hlive hname => hother ?_
        exact hC rfl k (Lease.liveKey_eq_some.mpr ⟨hkey, hlive⟩) hname

/-! ## The run that breaks it -/

/-- The first tick of `pod-a` waits 70 s for its candidates: its lock expires at
55 s, the second tick of the same pod takes the lock at 60 s, the first one
finds nothing due, releases and so deletes it, and `pod-b` gets the lock at
71 s. -/
theorem late_release_breaks_lease :
    ¬ LockIsLease (typeorm fun _ => .invalid) Machine.always := by
  intro h
  have hrun : ((machine (typeorm fun _ => .invalid)).exec (Sys.start 0 ⟨[], by decide⟩)
      ([.acquire ⟨"pod-a", 0⟩, .elapse 60000, .acquire ⟨"pod-a", 1⟩, .elapse 10000] ++
        claimEvents ⟨"pod-a", 0⟩ 0 [] [] ++
        [.release ⟨"pod-a", 0⟩ true, .elapse 1000])).map (fun s =>
      s.lockedAt ⟨"pod-a", 1⟩ = some 60000 && !(s.phase ⟨"pod-a", 1⟩).isFinished &&
        decide (s.now < (60000 : Int) + LOCK_TTL_MS) &&
        ((machine (typeorm fun _ => .invalid)).step s (.acquire ⟨"pod-b", 0⟩)).any fun s' =>
          s'.lockedAt ⟨"pod-b", 0⟩ = some 71000) = some true := by decide
  obtain ⟨s, hs, hp⟩ := Machine.Reachable.of_exec (C := Machine.always)
    (init_start 0 (show ∀ r ∈ ([] : List Row), _ by simp)) (fun _ _ _ => trivial) hrun
  simp only [Bool.and_eq_true, Option.any_eq_true, decide_eq_true_eq, Bool.not_eq_true'] at hp
  obtain ⟨⟨⟨hT, hrel⟩, hlt⟩, s', hs', hlocked⟩ := hp
  have hnone := h.exclusive s ⟨"pod-a", 1⟩ ⟨"pod-b", 0⟩ s' hs ⟨60000, hT, hrel, hlt⟩ (by decide)
    trivial hs'
  rw [hnone] at hlocked
  exact absurd hlocked (by simp)

end SchedulingService.Messages
