import Mathlib.Data.Set.Finite.Basic
import SchedulingService.Messages.Draining
import SchedulingService.Messages.Writes

/-!
# A PENDING message can always be sent

Whatever the pods have done and wherever their ticks have stopped: a message that
is still PENDING waits for nobody. Once it is due and the stored lock has expired,
any pod whose calls go through sends it, after those that were due before it.

* `served_tick` — such a tick takes the first due messages out of the backlog;
* `pending_settles` — so from every state of every run the message is reached.
-/

namespace SchedulingService.Messages

open Js

/-- A step of the ticks of `pod`, whose statements go through, or the passing of
time; the messaging service answers as `answer` says. -/
def Served (pod : Pod) (answer : ScheduledMessage → Option Value) (s : Sys) (e : Event) : Prop :=
  (∃ n, e.smooth ⟨pod, n⟩) ∧ e.answeredBy answer s

/-- What a tick makes of a row it has claimed, on TypeORM as it is. -/
def Row.answered (newDate : String → Date) (answer : ScheduledMessage → Option Value)
    (r : Row) : Row :=
  { r with
    status := if (answer ((typeorm newDate).materialize r)).isNone then .sent else .failed }

/-! ## Ticks that have not begun -/

/-- Only finitely many ticks have begun. -/
theorem finite_begun {P : Platform} {C : Sys → Event → Prop} {s : Sys}
    (h : (machine P).Reachable C s) : {t | s.phase t ≠ .idle}.Finite := by
  refine h.invariant (I := fun s => {t | s.phase t ≠ .idle}.Finite) ?_ ?_
  · rintro s ⟨-, hidle, -⟩
    convert Set.finite_empty
    exact Set.eq_empty_of_forall_notMem fun t ht => ht (hidle t)
  · intro s e s' hfinite _ hstep
    -- a step moves one tick at most
    cases htick : e.tick with
    | none =>
      refine hfinite.subset fun t ht => ?_
      have hsame : s'.phase t = s.phase t := phase_frame (step_spec hstep) (by rw [htick]; simp)
      rwa [Set.mem_ofPred_eq, hsame] at ht
    | some u =>
      refine (hfinite.insert u).subset fun t ht => ?_
      by_cases hu : t = u
      · exact .inl hu
      · have hsame : s'.phase t = s.phase t := by
          refine phase_frame (step_spec hstep) ?_
          rw [htick]
          exact fun h => hu (Option.some.inj h).symm
        rw [Set.mem_ofPred_eq, hsame] at ht
        exact .inr ht

/-- So every pod has a tick left. -/
theorem exists_idle {P : Platform} {C : Sys → Event → Prop} {s : Sys}
    (h : (machine P).Reachable C s) (pod : Pod) : ∃ n, s.phase ⟨pod, n⟩ = .idle := by
  by_contra hnone
  have hall : ∀ n, s.phase ⟨pod, n⟩ ≠ .idle := not_exists.mp hnone
  have hinjective : Function.Injective fun n : Nat => (⟨pod, n⟩ : TickId) :=
    fun a b hab => (TickId.mk.inj hab).2
  have hfinite : (Set.univ : Set Nat).Finite :=
    ((finite_begun h).preimage hinjective.injOn).subset fun n _ => hall n
  exact Set.infinite_univ hfinite

/-! ## One tick -/

/-- The UPDATE finds every candidate PENDING. -/
theorem claimRows_pending {T : Table} {visit : List Id} (hnodup : visit.Nodup)
    (hpending : ∀ i ∈ visit, ∃ r, T.get i = some r ∧ r.status = .pending) :
    (∀ i, i ∉ visit → (claimRows T visit).1.get i = T.get i) ∧
      (claimRows T visit).2.map Row.id = visit ∧
      ∀ q ∈ (claimRows T visit).2, (claimRows T visit).1.get q.id = some q ∧
        ∃ r, T.get q.id = some r ∧ q = { r with status := .processing } := by
  induction visit generalizing T with
  | nil => exact ⟨fun _ _ => rfl, rfl, fun q hq => absurd hq List.not_mem_nil⟩
  | cons i visit ih =>
    obtain ⟨hnew, hrest⟩ := List.nodup_cons.mp hnodup
    obtain ⟨r, hr, hstatus⟩ := hpending i List.mem_cons_self
    cases hclaim : claimRow T i with
    | none => exact absurd hstatus (claimRow_eq_none.mp hclaim r hr)
    | some answer =>
      obtain ⟨T', q⟩ := answer
      obtain ⟨r', rfl, hclaimed⟩ := claimRow_spec hclaim
      have hothers : ∀ j, j ≠ r'.id → T'.get j = T.get j := fun j hj => hclaimed.get_of_ne hj
      obtain ⟨hframe, hids, hrows⟩ := ih (T := T') hrest fun j hj => by
        rw [hothers j fun hsame => hnew (hsame ▸ hj)]
        exact hpending j (List.mem_cons_of_mem _ hj)
      rw [claimRows_cons_of_some visit hclaim]
      refine ⟨fun j hj => ?_, ?_, fun p hp => ?_⟩
      · have hne : j ≠ r'.id := List.ne_of_not_mem_cons hj
        exact (hframe j (List.not_mem_of_not_mem_cons hj)).trans (hothers j hne)
      · rw [List.map_cons, hids, hclaimed.id_eq]
      · rcases List.mem_cons.mp hp with rfl | hp
        · -- the later visits leave it alone
          rw [hclaimed.id_eq]
          exact ⟨(hframe r'.id hnew).trans hclaimed.get_self, r', hclaimed.before,
            hclaimed.row_eq⟩
        · obtain ⟨hget, r₀, hr₀, hrow⟩ := hrows p hp
          have hne : p.id ≠ r'.id := by
            intro hsame
            have hmem : p.id ∈ visit := by
              rw [← hids]
              exact List.mem_map_of_mem hp
            exact hnew (hsame ▸ hmem)
          exact ⟨hget, r₀, (hothers p.id hne).symm.trans hr₀, hrow⟩

section Serve

variable {newDate : String → Date} {answer : ScheduledMessage → Option Value} {pod : Pod}
  {s : Sys} {t : TickId}

variable (newDate) in
/-- The save of a claimed entity writes its status. -/
theorem save_materialize {T : Table} {r : Row} (hr : T.get r.id = some r)
    (status : ScheduledMessageStatus) :
    save T { (typeorm newDate).materialize r with status := .val status } =
      some (T.put { r with status }) := by
  have h : (typeorm newDate).materialize r = repositoryCreate r.returningAll := rfl
  rw [h, repositoryCreate_returningAll]
  simp [save, hr, ScheduledMessage.overwrite, writeColumn, writeTimestamp]

variable (answer) in
/-- The call of one message and its save. -/
theorem served_message {r : Row} {rest : List ScheduledMessage} (hpod : t.pod = pod)
    (hp : s.phase t = .sending ((typeorm newDate).materialize r) rest)
    (hr : s.table.get r.id = some r) :
    ∃ trace, Machine.Run (machine (typeorm newDate)) (Served pod answer) s
      { s.goto t (.loop rest) with table := s.table.put (r.answered newDate answer), trace } := by
  let m := (typeorm newDate).materialize r
  have hsmooth {e : Event} (he : e.smooth t) : ∃ n, e.smooth ⟨pod, n⟩ := by
    subst hpod
    exact ⟨t.seq, he⟩
  have hbare : m.Bare := bare_materialize newDate r
  -- the call
  let s₁ : Sys := { s.goto t (.calling m rest) with
    trace := .called m.id (sendRequest m) s.now :: s.trace }
  have hsend : step (typeorm newDate) s (.send t) = some s₁ := by
    simp only [step, hp]
    rfl
  have hp₁ : s₁.phase t = .calling m rest := Function.update_self ..
  -- its answer, and the save that follows
  have hsaved (status : ScheduledMessageStatus) (site : SaveSite) (hgoes : site.goesOn = true)
      (trace : List Obs) :
      step (typeorm newDate)
        { s₁.goto t (.saving { m with status := .val status } site rest) with trace }
        (.saved t) = some { s.goto t (.loop rest) with
          table := s.table.put { r with status }, trace } := by
    have hsave := save_materialize newDate hr status
    simp only [step, Sys.goto_phase, Function.update_self, Sys.goto_table, s₁, m, hsave,
      afterSave, hgoes, if_true]
    simp only [Sys.goto, Function.update_idem]
  have hcall : Machine.Run (machine (typeorm newDate)) (Served pod answer) s s₁ :=
    .single ⟨hsmooth (e := .send t) rfl, trivial⟩ hsend
  cases hanswer : answer m with
  | none =>
    have hack : step (typeorm newDate) s₁ (.ack t) =
        some { s₁.goto t (.saving (onSent m) .afterSend rest) with
          trace := .acked m.id :: s₁.trace } := by
      simp only [step, hp₁]
    have hanswered : r.answered newDate answer = { r with status := .sent } := by
      unfold Row.answered
      rw [show answer ((typeorm newDate).materialize r) = none from hanswer]
      rfl
    rw [hanswered]
    refine ⟨_, (hcall.trans (.single ⟨hsmooth (e := .ack t) rfl, ?_⟩ hack)).trans
      (.single ⟨hsmooth (e := .saved t) rfl, trivial⟩ (hsaved .sent .afterSend rfl _))⟩
    intro m' rest' hp'
    obtain ⟨rfl, -⟩ := Phase.calling.inj (hp₁.symm.trans hp')
    exact hanswer
  | some thrown =>
    let error := clientError thrown
    have herror : step (typeorm newDate) s₁ (.sendError t error) =
        some (s₁.goto t (.saving (onSendError error m) (.onError error) rest)) := by
      simp only [step, hp₁]
    rw [hbare.onSendError error] at herror
    have hanswered : r.answered newDate answer = { r with status := .failed } := by
      unfold Row.answered
      rw [show answer ((typeorm newDate).materialize r) = some thrown from hanswer]
      rfl
    have hgoes : (SaveSite.onError error).goesOn = true := by
      simp [SaveSite.goesOn, error, clientError_isNullish]
    rw [hanswered]
    refine ⟨_, (hcall.trans (.single ⟨hsmooth (e := .sendError t error) ⟨rfl, thrown, rfl⟩, ?_⟩
      herror)).trans (.single ⟨hsmooth (e := .saved t) rfl, trivial⟩
        (hsaved .failed (.onError error) hgoes s₁.trace))⟩
    intro m' rest' hp'
    obtain ⟨rfl, -⟩ := Phase.calling.inj (hp₁.symm.trans hp')
    exact ⟨thrown, hanswer, rfl⟩

variable (answer) in
/-- By induction on the messages left. -/
theorem served_loop {rows : List Row} (hpod : t.pod = pod)
    (hp : s.phase t = .loop (rows.map (typeorm newDate).materialize))
    (hrows : ∀ r ∈ rows, s.table.get r.id = some r) (hnodup : (rows.map Row.id).Nodup) :
    ∃ s', Machine.Run (machine (typeorm newDate)) (Served pod answer) s s' ∧
      s'.phase t = .releasing ∧ s'.now = s.now ∧ s'.lock = s.lock ∧
      (∀ i, i ∉ rows.map Row.id → s'.table.get i = s.table.get i) ∧
      ∀ r ∈ rows, s'.table.get r.id = some (r.answered newDate answer) := by
  induction rows generalizing s with
  | nil =>
    exact ⟨s, .refl, hp, rfl, rfl, fun _ _ => rfl, fun r hr => absurd hr List.not_mem_nil⟩
  | cons r rows ih =>
    obtain ⟨hnew, hrest⟩ := List.nodup_cons.mp hnodup
    have hr := hrows r List.mem_cons_self
    obtain ⟨trace, hfirst⟩ := served_message answer hpod hp hr
    have hothers : ∀ i, i ≠ r.id → (s.table.put (r.answered newDate answer)).get i =
        s.table.get i := fun i hi => Keyed.get_put_of_ne _ hi
    have hself : (s.table.put (r.answered newDate answer)).get r.id =
        some (r.answered newDate answer) := Keyed.get_put_self hr
    obtain ⟨s', hrun, hreleasing, hnow, hlock, hframe, hanswered⟩ :=
      ih (s := { s.goto t (.loop (rows.map (typeorm newDate).materialize)) with
        table := s.table.put (r.answered newDate answer), trace }) (Function.update_self ..)
        (fun q hq => by
          have hne : q.id ≠ r.id := fun hsame => hnew (hsame ▸ List.mem_map_of_mem hq)
          exact (hothers q.id hne).trans (hrows q (List.mem_cons_of_mem _ hq))) hrest
    refine ⟨s', hfirst.trans hrun, hreleasing, hnow, hlock, fun i hi => ?_, fun q hq => ?_⟩
    · rw [List.map_cons] at hi
      exact (hframe i (List.not_mem_of_not_mem_cons hi)).trans
        (hothers i (List.ne_of_not_mem_cons hi))
    · rcases List.mem_cons.mp hq with rfl | hq
      · -- its row is none of those that follow
        exact (hframe q.id hnew).trans hself
      · exact hanswered q hq

variable (answer) in
/-- **A tick that finds the lock free** goes through, and has answered for the
first due messages when it has released the lock. -/
theorem served_tick (hpod : t.pod = pod) (hidle : s.phase t = .idle)
    (hfree : Lease.liveKey s.now s.lock = none) :
    ∃ s' order, Selects s.table s.now order ∧
      Machine.Run (machine (typeorm newDate)) (Served pod answer) s s' ∧ s'.now = s.now ∧
      Lease.liveKey s'.now s'.lock = none ∧
      (∀ i, i ∉ candidateIds order → s'.table.get i = s.table.get i) ∧
      ∀ i ∈ candidateIds order, ∃ r, s.table.get i = some r ∧
        s'.table.get i = some ({ r with status := .processing }.answered newDate answer) := by
  have hsmooth {e : Event} (he : e.smooth t) : ∃ n, e.smooth ⟨pod, n⟩ := by
    subst hpod
    exact ⟨t.seq, he⟩
  obtain ⟨order, hsel⟩ := exists_selects s.table s.now
  -- it takes the lock
  let key : Lease.Key TickId Pod := ⟨t.pod, s.now + LOCK_TTL_MS, t⟩
  have hset : Lease.setNX s.now LOCK_TTL_MS t.pod t s.lock = some key :=
    Lease.setNX_eq_some.mpr ⟨hfree, rfl⟩
  let s₁ : Sys := { s.goto t .locked with
    lock := some key
    lockedAt := Function.update s.lockedAt t (some s.now) }
  have hacquire : step (typeorm newDate) s (.acquire t) = some s₁ := by
    simp only [step, hidle, hset]
    rfl
  -- it claims its candidates
  have hnodup : (candidateIds order).Nodup := hsel.nodup.sublist (List.take_sublist _ _)
  have hpending : ∀ i ∈ candidateIds order, ∃ r, s.table.get i = some r ∧ r.status = .pending := by
    intro i hi
    obtain ⟨r, hr, hdue⟩ := (mem_selects hsel).mp (List.mem_of_mem_take hi)
    exact ⟨r, hr, (of_decide_eq_true hdue).1⟩
  obtain ⟨hframe, hids, hclaimed⟩ := claimRows_pending hnodup hpending
  let raw := (claimRows s.table (candidateIds order)).2
  let s₂ : Sys := { s₁.goto t (.loop (raw.map (typeorm newDate).materialize)) with
    table := (claimRows s.table (candidateIds order)).1 }
  have hclaim : (machine (typeorm newDate)).exec s₁
      (claimEvents t s.now order (candidateIds order)) = some s₂ :=
    exec_claimEvents (Function.update_self ..) (Function.update_self ..) (Int.le_refl _)
      (Int.le_refl _) hsel (.refl _)
  -- it sends them
  obtain ⟨s₃, hsends, hreleasing, hnow, hlock, hothers, hanswered⟩ :=
    served_loop answer (s := s₂) hpod (Function.update_self ..)
      (fun r hr => (hclaimed r hr).1) (by rw [hids]; exact hnodup)
  -- and releases the lock
  let s₄ : Sys := { s₃.goto t .finished with
    lock := Lease.compareAndDelete s₃.now t.pod s₃.lock }
  have hrelease : step (typeorm newDate) s₃ (.release t true) = some s₄ := by
    simp only [step, hreleasing, if_true]
    rfl
  have hdeleted : Lease.compareAndDelete s₃.now t.pod s₃.lock = none := by
    have hlive : Lease.liveKey s.now (some key) = some key :=
      Lease.liveKey_eq_some.mpr ⟨rfl, Int.lt_add_of_pos_right _ (by decide)⟩
    rw [hlock, hnow]
    show Lease.compareAndDelete s.now t.pod (some key) = none
    rw [Lease.compareAndDelete, hlive]
    exact if_pos rfl
  refine ⟨s₄, order, hsel, ?_, hnow, ?_, ?_, ?_⟩
  rotate_left
  · show Lease.liveKey s₃.now (Lease.compareAndDelete s₃.now t.pod s₃.lock) = none
    rw [hdeleted]
    rfl
  · intro i hi
    have hout : i ∉ raw.map Row.id := by rwa [hids]
    exact (hothers i hout).trans (hframe i hi)
  · intro i hi
    have hmem : i ∈ raw.map Row.id := by rwa [hids]
    obtain ⟨q, hq, rfl⟩ := List.mem_map.mp hmem
    obtain ⟨-, r, hr, hrow⟩ := hclaimed q hq
    refine ⟨r, hr, ?_⟩
    rw [← hrow]
    exact hanswered q hq
  · have hfirst : Machine.Run (machine (typeorm newDate)) (Served pod answer) s s₁ :=
      .single ⟨hsmooth (e := .acquire t) rfl, trivial⟩ hacquire
    have hsecond : Machine.Run (machine (typeorm newDate)) (Served pod answer) s₁ s₂ := by
      refine .of_exec (fun e he s => ?_) hclaim
      rw [claimEvents, List.cons_append, List.mem_cons, List.mem_append, List.mem_map,
        List.mem_singleton] at he
      rcases he with rfl | ⟨i, -, rfl⟩ | rfl
      · exact ⟨hsmooth (e := .select t _ order) rfl, trivial⟩
      · exact ⟨hsmooth (e := .claimRow t i) rfl, trivial⟩
      · exact ⟨hsmooth (e := .claimed t) rfl, trivial⟩
    exact ((hfirst.trans hsecond).trans hsends).trans
      (.single ⟨hsmooth (e := .release t true) rfl, trivial⟩ hrelease)

/-! ## The backlog -/

variable (answer pod) in
/-- **Round after round.** A message that is due is reached, by induction on the
number of messages that are. -/
theorem served_due (hreach : Machine.Reachable (machine (typeorm newDate)) Machine.always s)
    (hfree : Lease.liveKey s.now s.lock = none) {i : Id} {r : Row} (hr : s.table.get i = some r)
    (hdue : r.due s.now = true) :
    ∃ s', Machine.Run (machine (typeorm newDate)) (Served pod answer) s s' ∧ s'.now = s.now ∧
      s'.table.get i = some ({ r with status := .processing }.answered newDate answer) := by
  generalize hcount : s.dueIds.card = count
  induction count using Nat.strong_induction_on generalizing s with
  | h count ih =>
    obtain ⟨n, hidle⟩ := exists_idle hreach pod
    obtain ⟨s', order, hsel, hrun, hnow, hfree', hframe, hanswered⟩ :=
      served_tick answer (t := ⟨pod, n⟩) rfl hidle hfree
    by_cases hi : i ∈ candidateIds order
    · obtain ⟨r', hr', hfinal⟩ := hanswered i hi
      obtain rfl := Option.some.inj (hr.symm.trans hr')
      exact ⟨s', hrun, hnow, hfinal⟩
    · -- a hundred others were due before it, and are not PENDING any more
      have hmem : i ∈ order := (mem_selects hsel).mpr ⟨r, hr, hdue⟩
      obtain ⟨j, hj⟩ : ∃ j, j ∈ candidateIds order := by
        obtain ⟨j, rest, rfl⟩ := List.exists_cons_of_ne_nil (List.ne_nil_of_mem hmem)
        exact ⟨j, List.mem_cons_self⟩
      have hdone : ∀ k ∈ candidateIds order, k ∉ s'.dueIds := by
        intro k hk hmem
        obtain ⟨q, hq, hfinal⟩ := hanswered k hk
        obtain ⟨q', hq', hdue'⟩ := Sys.mem_dueIds.mp hmem
        obtain rfl := Option.some.inj (hfinal.symm.trans hq')
        have hpending := (of_decide_eq_true hdue').1
        unfold Row.answered at hpending
        split at hpending <;> cases hpending
      have hsubset : s'.dueIds ⊂ s.dueIds := by
        refine (Finset.ssubset_iff_of_subset fun k hk => ?_).mpr ⟨j, ?_, hdone j hj⟩
        · obtain ⟨q, hq, hdue'⟩ := Sys.mem_dueIds.mp hk
          have hout : k ∉ candidateIds order := fun hin => hdone k hin hk
          rw [hframe k hout] at hq
          rw [hnow] at hdue'
          exact Sys.mem_dueIds.mpr ⟨q, hq, hdue'⟩
        · obtain ⟨q, hq, hdue'⟩ := (mem_selects hsel).mp (List.mem_of_mem_take hj)
          exact Sys.mem_dueIds.mpr ⟨q, hq, hdue'⟩
      have hless : s'.dueIds.card < count := hcount ▸ Finset.card_lt_card hsubset
      have hreach' := hreach.run (hrun.mono fun _ _ _ => trivial)
      obtain ⟨s'', hrest, hnow', hfinal⟩ := ih s'.dueIds.card hless hreach' hfree'
        ((hframe i hi).trans hr) (by rw [hnow]; exact hdue) rfl
      exact ⟨s'', hrun.trans hrest, hnow'.trans hnow, hfinal⟩

/-- When the stored lock has expired. -/
def Sys.freeFrom (s : Sys) : Int :=
  match s.lock with
  | some key => max s.now key.expiresAt
  | none => s.now

theorem free_of_freeFrom_le {now : Int} (h : s.freeFrom ≤ now) :
    Lease.liveKey now s.lock = none := by
  cases hlock : s.lock with
  | none => rfl
  | some key =>
    rw [Sys.freeFrom, hlock] at h
    have hexpired : ¬ now < key.expiresAt := Int.not_lt.mpr ((le_max_right _ _).trans h)
    exact if_neg (by simpa using hexpired)

/-- **No PENDING message is out of reach.** From every state of every run, of any
number of pods that may have stopped anywhere: once the message is due and the
stored lock has expired, any pod comes to it by itself, and sends it; it is FAILED
only where that call throws. -/
theorem pending_settles {r : Row}
    (hreach : Machine.Reachable (machine (typeorm newDate)) Machine.always s)
    (hr : s.table.get r.id = some r) (hpending : r.status = .pending) (pod : Pod)
    (answer : ScheduledMessage → Option Value) :
    ∃ s', Machine.Run (machine (typeorm newDate)) (Served pod answer) s s' ∧
      s'.now = max s.freeFrom r.scheduledAt ∧
      s'.table.get r.id = some ({ r with status := .processing }.answered newDate answer) := by
  -- it waits
  have hlater : s.now ≤ max s.freeFrom r.scheduledAt := by
    refine le_trans ?_ (le_max_left _ _)
    unfold Sys.freeFrom
    split
    · exact le_max_left _ _
    · exact Int.le_refl _
  let ms : Nat := (max s.freeFrom r.scheduledAt - s.now).toNat
  let s₁ : Sys := { s with now := s.now + ms }
  have hms : s₁.now = max s.freeFrom r.scheduledAt := by
    show s.now + ((max s.freeFrom r.scheduledAt - s.now).toNat : Int) = _
    rw [Int.toNat_of_nonneg (by omega)]
    omega
  have hwait : Machine.Run (machine (typeorm newDate)) (Served pod answer) s s₁ :=
    .single (e := .elapse ms) ⟨⟨0, trivial⟩, trivial⟩ rfl
  have hfree : Lease.liveKey s₁.now s₁.lock = none := by
    refine free_of_freeFrom_le (s := s) ?_
    rw [hms]
    exact le_max_left _ _
  have hdue : r.due s₁.now = true := by
    rw [hms]
    exact decide_eq_true ⟨hpending, le_max_right _ _⟩
  -- and is served
  obtain ⟨s', hrun, hnow, hfinal⟩ := served_due answer pod (s := s₁)
    (hreach.run (hwait.mono fun _ _ _ => trivial)) hfree hr hdue
  exact ⟨s', hwait.trans hrun, hnow.trans hms, hfinal⟩

end Serve

/-- A pod has crashed with the lock in its hands; another one sends the message. -/
theorem pending_settles_crashed :
    ∃ s s', (machine (typeorm fun _ => .invalid)).exec (Sys.start 60000 dueTable)
        [.acquire ⟨"pod-a", 0⟩, .crash ⟨"pod-a", 0⟩] = some s ∧
      Machine.Run (machine (typeorm fun _ => .invalid)) (Served "pod-b" fun _ => none) s s' ∧
      s'.now = 60000 + LOCK_TTL_MS ∧
      s'.table.get dueMessage.id = some { dueMessage with status := .sent } := by
  obtain ⟨s, hexec, hmessage, htime⟩ : ∃ s,
      (machine (typeorm fun _ => .invalid)).exec (Sys.start 60000 dueTable)
        [.acquire ⟨"pod-a", 0⟩, .crash ⟨"pod-a", 0⟩] = some s ∧
      s.table.get dueMessage.id = some dueMessage ∧
      max s.freeFrom dueMessage.scheduledAt = 60000 + LOCK_TTL_MS :=
    ⟨_, rfl, rfl, by decide⟩
  have hreach : Machine.Reachable (machine (typeorm fun _ => .invalid)) Machine.always s :=
    ⟨_, init_start 60000 (by decide), .of_exec (fun _ _ _ => trivial) hexec⟩
  obtain ⟨s', hrun, hnow, hfinal⟩ := pending_settles hreach hmessage rfl "pod-b" fun _ => none
  exact ⟨s, s', hexec, hrun, hnow.trans htime, hfinal⟩

end SchedulingService.Messages
