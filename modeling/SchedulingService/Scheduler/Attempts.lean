import SchedulingService.Lib.Total
import SchedulingService.Scheduler.Integrity

/-!
# How often a schedule is run

BullMQ hands an entry to a worker again when the promise of its processor rejects
and attempts are left, and whenever a worker stalls with it. The entries of a
schedule carry a credit, the attempts they have left; a start uses one up, and
only an occurrence or a stall brings new ones.

* `Event.grants` — what an event brings;
* `potential_step` — starts and credit together grow by no more than that;
* `base_eq`, `grants_eq` — what that is for one schedule.
-/

namespace SchedulingService.Scheduler

open Js Queues

/-- It is a start for the schedule. -/
def Observation.starts (id : Uuid) : Observation → Bool
  | .started scheduleId _ => scheduleId = id
  | .cancelled _ => false

/-- The executions started for the schedule so far. -/
def System.starts (s : System) (id : Uuid) : Nat := s.trace.countP (Observation.starts id)

/-- An occurrence of an entry for the schedule. -/
def Event.fires (id : Uuid) : Event → Bool
  | .fire _ e _ => e.carries id
  | _ => false

/-- A worker that dies with an entry for the schedule. -/
def Event.stalls (id : Uuid) : Event → Bool
  | .stall _ e => e.carries id
  | _ => false

/-! ## Credit -/

/-- The starts an entry is still good for, if no worker stalls. One that a stall
put back is good for one more, whatever its attempts. -/
def creditOf (e : Entry) : Nat :=
  let left := e.opts.attempts.getD 1 - e.attemptsMade
  if e.repeatable then 0 else if e.active then left else max 1 left

/-- What an entry is good for, as far as the schedule goes. -/
def creditFor (id : Uuid) (e : Entry) : Nat := if e.carries id then creditOf e else 0

/-- What the entries of all queues are good for. -/
def Contents.credit (qs : Contents) (id : Uuid) : Nat :=
  total (creditFor id) (qs .high) + total (creditFor id) (qs .medium) +
    total (creditFor id) (qs .low)

/-- The attempts `addToQueue` will ask for. -/
def reserveFor (id : Uuid) (row : Schedule) : Nat :=
  if row.id = id ∧ row.scheduleType.oneShot = true then 3 else 0

/-- A bound on the executions so far and to come. -/
def System.potential (s : System) (id : Uuid) : Nat :=
  s.starts id + Contents.credit s.store.queues id +
    total (fun p => reserveFor id p.2) s.enqueuing

/-- What the stored schedule itself is good for. -/
def System.base (s : System) (id : Uuid) : Nat := total (reserveFor id) s.store.schedules.rows

/-- What an event brings. -/
def Event.grants (id : Uuid) : Event → Nat
  | .fire _ e _ => if e.carries id then e.opts.attempts.getD 1 else 0
  | .stall _ e => if e.carries id then 1 else 0
  | _ => 0

section Credit

variable {qs : Contents} {q : QueueName} {id : Uuid}

/-- Only the queue that changes counts. -/
theorem credit_update (qs : Contents) (q : QueueName) (entries : List Entry) (id : Uuid) :
    Contents.credit (Function.update qs q entries) id + total (creditFor id) (qs q) =
      Contents.credit qs id + total (creditFor id) entries := by
  unfold Contents.credit
  cases q with
  | high =>
    rw [Function.update_self, Function.update_of_ne (by decide), Function.update_of_ne (by decide)]
    omega
  | medium =>
    rw [Function.update_self, Function.update_of_ne (by decide), Function.update_of_ne (by decide)]
    omega
  | low =>
    rw [Function.update_self, Function.update_of_ne (by decide), Function.update_of_ne (by decide)]
    omega

theorem credit_append (qs : Contents) (q : QueueName) (e : Entry) (id : Uuid) :
    Contents.credit (qs.append q e) id = Contents.credit qs id + creditFor id e := by
  have h := credit_update qs q (qs q ++ [e]) id
  rw [total_append, total_cons, total_nil] at h
  unfold Contents.append
  omega

theorem credit_sublist {entries : List Entry} (h : entries.Sublist (qs q)) (id : Uuid) :
    Contents.credit (Function.update qs q entries) id ≤ Contents.credit qs id := by
  have hle := total_sublist (creditFor id) h
  have hupdate := credit_update qs q entries id
  omega

theorem credit_swap (hnodup : ((qs q).map Entry.id).Nodup) {e : Entry} (he : e ∈ qs q)
    (e' : Entry) (id : Uuid) :
    Contents.credit (qs.swap q e e') id + creditFor id e =
      Contents.credit qs id + creditFor id e' := by
  have hreplace := total_replace (creditFor id) (List.Nodup.of_map Entry.id hnodup) he e'
  have hupdate := credit_update qs q ((qs q).map fun x => if x = e then e' else x) id
  unfold Contents.swap
  omega

variable (id) in
/-- A start uses one up. -/
theorem creditFor_taken {e : Entry} {now : Int} (hready : e.ready now = true) :
    creditFor id e.taken + (if e.carries id then 1 else 0) ≤ creditFor id e := by
  simp only [Entry.ready, Bool.and_eq_true, Bool.not_eq_true'] at hready
  obtain ⟨⟨hrep, hactive⟩, -⟩ := hready
  have hcarries : e.taken.carries id = e.carries id := rfl
  have hrep' : e.taken.repeatable = false := hrep
  unfold creditFor creditOf
  rw [hcarries, hrep', hrep, hactive]
  cases e.carries id with
  | false => exact Nat.le_refl _
  | true =>
    simp only [Entry.taken, if_true, Bool.false_eq_true, if_false]
    omega

variable (id) in
/-- An entry that waits again for another attempt is good for what it was. -/
theorem creditFor_back {e : Entry} (hactive : e.active = true)
    (hleft : e.attemptsMade < e.opts.attempts.getD 1) :
    creditFor id e.back ≤ creditFor id e := by
  have hcarries : e.back.carries id = e.carries id := rfl
  have hrep : e.back.repeatable = e.repeatable := rfl
  unfold creditFor creditOf
  rw [hcarries, hrep, hactive]
  simp only [Entry.back, if_true, Bool.false_eq_true, if_false]
  split
  · split
    · exact Nat.le_refl _
    · omega
  · exact Nat.le_refl _

variable (id) in
/-- One that comes back from a stalled worker may be good for one more. -/
theorem creditFor_stalled {e : Entry} (hactive : e.active = true) :
    creditFor id e.back ≤ creditFor id e + (if e.carries id then 1 else 0) := by
  have hcarries : e.back.carries id = e.carries id := rfl
  have hrep : e.back.repeatable = e.repeatable := rfl
  unfold creditFor creditOf
  rw [hcarries, hrep, hactive]
  simp only [Entry.back, if_true, Bool.false_eq_true, if_false]
  split
  · split
    · omega
    · omega
  · exact Nat.le_refl _

/-- A source of occurrences is run itself never. -/
theorem creditFor_repeatable {e : Entry} (hrep : e.repeatable = true) : creditFor id e = 0 := by
  unfold creditFor creditOf
  rw [hrep]
  split
  · rfl
  · rfl

/-- An entry of a repeatable one repeats, any other has three attempts. -/
theorem creditFor_newEntry {now : Int} {row : Schedule} {job : Job} {opts : JobsOptions}
    {stamp : Stamp} {name : String} (hopts : optionsFor now row = some opts) :
    creditFor id (newEntry stamp q name ⟨job.id, row.id⟩ opts) = reserveFor id row := by
  have hcarries : ∀ opts, (newEntry stamp q name ⟨job.id, row.id⟩ opts).carries id =
      decide (row.id = id) := fun _ => rfl
  unfold creditFor reserveFor
  rw [hcarries]
  by_cases hid : row.id = id
  · simp only [hid, decide_true, if_true, true_and]
    unfold optionsFor at hopts
    split at hopts
    case h_1 htype =>
      obtain rfl := Option.some.inj hopts
      rw [htype]
      cases q <;> rfl
    case h_2 htype =>
      obtain ⟨scheduledAt, -, rfl⟩ := Option.map_eq_some_iff.mp hopts
      rw [htype]
      cases q <;> rfl
    case h_3 htype =>
      obtain ⟨cronExpression, -, rfl⟩ := Option.map_eq_some_iff.mp hopts
      rw [htype]
      cases q <;> rfl
    case h_4 htype =>
      obtain ⟨intervalSeconds, -, rfl⟩ := Option.map_eq_some_iff.mp hopts
      rw [htype]
      cases q <;> rfl
  · simp [hid]

end Credit

/-! ## Steps -/

section Steps

variable {env : Env} {s s' : System} {id : Uuid}

/-- What an event brings covers the starts it makes and the credit it gives. -/
theorem potential_step {event : Event} (hsane : Sane s) (hwhole : Whole s)
    (hstep : step env s event = some s') (id : Uuid) :
    s'.potential id + s.base id ≤ s.potential id + s'.base id + event.grants id := by
  cases step_cases hstep with
  | elapse d => exact Nat.le_add_right _ _
  | createJob jobId dto jobs => exact Nat.le_add_right _ _
  | notSaved dto calls => exact Nat.le_add_right _ _
  | saved dto calls job row schedules enqueuing hfresh hsaved henqueuing =>
    -- the row is good for what its entry will be
    have hbase : total (reserveFor id) schedules.rows =
        reserveFor id row + total (reserveFor id) s.store.schedules.rows := by
      rw [Keyed.rows_insert hsaved.inserted, total_cons]
    simp only [System.potential, System.base, System.starts, Event.grants, hbase]
    rcases henqueuing with rfl | rfl
    · omega
    · have hcall : total (fun p => reserveFor id p.2) (s.enqueuing ++ [(job, row)]) =
          total (fun p => reserveFor id p.2) s.enqueuing + reserveFor id row := total_append ..
      omega
  | enqueued n calls job row stamp queues hn hnow hfresh hqueues =>
    have hcall : total (fun p => reserveFor id p.2) (s.enqueuing.eraseIdx n) +
        reserveFor id row = total (fun p => reserveFor id p.2) s.enqueuing :=
      total_eraseIdx (fun p : Job × Schedule => reserveFor id p.2) hn
    rcases hqueues with rfl | ⟨opts, -, hopts, rfl⟩
    · simp only [System.potential, System.base, System.starts, System.withQueues, Event.grants]
      omega
    · obtain ⟨-, hfree⟩ := hsane.enqueued (q := getQueueName job.priority)
        (List.mem_of_getElem? hn) hopts hfresh
      have hadd : s.store.queues.add stamp (getQueueName job.priority) "execute-job"
          ⟨job.id, row.id⟩ opts = _ := Contents.add_eq hfree
      have hcredit := credit_append s.store.queues (getQueueName job.priority)
        (newEntry stamp (getQueueName job.priority) "execute-job" ⟨job.id, row.id⟩ opts) id
      rw [creditFor_newEntry hopts] at hcredit
      simp only [System.potential, System.base, System.starts, System.withQueues, Event.grants]
      unfold Contents.append at hcredit
      rw [hadd]
      omega
  | notDeactivated scheduleId calls => exact Nat.le_add_right _ _
  | deactivated scheduleId calls row removing hfound hremoving =>
    -- a row is good for the same whether it is active or not
    have hbase : total (reserveFor id)
        (s.store.schedules.put { row with isActive := false }).rows =
        total (reserveFor id) s.store.schedules.rows := by
      have hmem := mem_of_findOneById hfound
      have hnodup := List.Nodup.of_map Schedule.id s.store.schedules.nodup
      have hput : (s.store.schedules.put { row with isActive := false }).rows =
          s.store.schedules.rows.map fun x =>
            if x = row then { row with isActive := false } else x := by
        refine List.map_congr_left fun x hx => ?_
        by_cases hid : x.id = row.id
        · rw [if_pos hid, if_pos (s.store.schedules.eq_of_key_eq hx hmem hid)]
        · rw [if_neg hid, if_neg fun h => hid (congrArg Schedule.id h)]
      have h := total_replace (reserveFor id) hnodup hmem { row with isActive := false }
      have hsame : reserveFor id { row with isActive := false } = reserveFor id row := rfl
      rw [hput]
      omega
    simp only [System.potential, System.base, System.starts, hbase]
    omega
  | searched n calls scheduleId given q rest hn =>
    have hle : Contents.credit (searchQueue given calls q s.store.queues).1 id ≤
        Contents.credit s.store.queues id := by
      unfold searchQueue
      split
      · exact credit_sublist (removeFrom_sublist _ _ _) id
      · exact Nat.le_refl _
    simp only [System.potential, System.base, System.starts, System.withQueues, Event.grants]
    omega
  | resolved n scheduleId given hn =>
    -- a cancellation is no start
    simp only [System.potential, System.base, System.starts, List.countP_cons,
      Observation.starts, Event.grants]
    simp
  | fired q e stamp stamp' he hfires hnow hfresh =>
    have hrep : e.repeatable = true := by
      unfold Entry.firesAt at hfires
      rw [Entry.repeatable]
      cases hr : e.opts.repeatOpts with
      | none => simp [hr] at hfires
      | some r => rfl
    have hnoted : (e.noted s.now).repeatable = true := hrep
    have hswap := credit_swap (hsane.nodup q) he (e.noted s.now) id
    rw [creditFor_repeatable hrep, creditFor_repeatable hnoted] at hswap
    have happend := credit_append (s.store.queues.swap q e (e.noted s.now)) q
      (occurrence stamp' e) id
    -- the occurrence has the attempts of its source
    obtain ⟨row, -, job, -, hstands⟩ := hwhole.entries q e he
    have hattempts : e.opts.attempts.getD 1 ≥ 1 := by
      rw [hstands.attempts, Option.getD_some]
      unfold attemptsOf
      split
      · omega
      · split <;> omega
    have hoccurrence : creditFor id (occurrence stamp' e) =
        if e.carries id then e.opts.attempts.getD 1 else 0 := by
      have hcarries : (occurrence stamp' e).carries id = e.carries id := rfl
      unfold creditFor creditOf
      rw [hcarries]
      simp only [occurrence, Entry.repeatable, Option.isSome_none, Bool.false_eq_true, if_false]
      split
      · omega
      · rfl
    simp only [System.potential, System.base, System.starts, System.withQueues, Event.grants]
    omega
  | taken q e trace he hready htrace =>
    have hswap := credit_swap (hsane.nodup q) he e.taken id
    have htaken := creditFor_taken id hready
    -- the start is one for the schedule exactly if the entry is
    have hstarts : trace.countP (Observation.starts id) ≤
        s.trace.countP (Observation.starts id) + (if e.carries id then 1 else 0) := by
      rcases htrace with rfl | rfl
      · rw [List.countP_cons]
        exact Nat.le_refl _
      · exact Nat.le_add_right _ _
    simp only [System.potential, System.base, System.starts, System.withQueues, Event.grants]
    omega
  | dropped q e calls he hactive =>
    have hle : Contents.credit (s.store.queues.drop q e) id ≤ Contents.credit s.store.queues id :=
      credit_sublist List.filter_sublist id
    simp only [System.potential, System.base, System.starts, System.withQueues, Event.grants]
    omega
  | retried q e calls he hactive hretries =>
    have hswap := credit_swap (hsane.nodup q) he e.back id
    simp only [retries, Bool.and_eq_true, decide_eq_true_eq] at hretries
    have hback := creditFor_back id hactive hretries.2
    simp only [System.potential, System.base, System.starts, System.withQueues, Event.grants]
    omega
  | stalled q e he hactive =>
    have hswap := credit_swap (hsane.nodup q) he e.back id
    have hback := creditFor_stalled id hactive
    simp only [System.potential, System.base, System.starts, System.withQueues, Event.grants]
    omega

end Steps

/-! ## One schedule -/

section Rows

variable {s : System} {id : Uuid}

/-- The rows are keyed, so one schedule is good for what its type says. -/
theorem base_eq {row : Schedule} (hrow : row ∈ s.store.schedules.rows) :
    s.base row.id = if row.scheduleType.oneShot then 3 else 0 := by
  have hnodup := List.Nodup.of_map Schedule.id s.store.schedules.nodup
  have hothers : ∀ x ∈ s.store.schedules.rows, x ≠ row → reserveFor row.id x = 0 := by
    intro x hx hne
    refine if_neg fun h => hne ?_
    exact s.store.schedules.eq_of_key_eq hx hrow h.1
  rw [System.base, total_single _ hnodup hrow hothers, reserveFor]
  simp

/-- An occurrence brings the attempts its queue gives, a stalled worker one. -/
theorem grants_eq {row : Schedule} {job : Job} (hrow : row ∈ s.store.schedules.rows)
    (hjob : job ∈ s.store.jobs.rows) (howner : row.jobId = job.id) {event : Event}
    (hfired : ∀ q e stamp, event = .fire q e stamp → s.Accounted q e ∧ e.repeatable = true) :
    event.grants row.id =
      (if event.fires row.id then
        if row.scheduleType.oneShot then 0
        else attemptsOf (getQueueName job.priority) row.scheduleType
      else 0) + (if event.stalls row.id then 1 else 0) := by
  cases event with
  | fire q e stamp =>
    show (if e.carries row.id then _ else 0) = (if e.carries row.id then _ else 0) +
      (if false then 1 else 0)
    by_cases hcarries : e.carries row.id = true
    · obtain ⟨⟨x, hx, y, hy, hstands⟩, hrep⟩ := hfired q e stamp rfl
      -- the entry is for this schedule and this job
      have hid : x.id = row.id := hstands.scheduleId.symm.trans (of_decide_eq_true hcarries)
      obtain rfl := s.store.schedules.eq_of_key_eq hx hrow hid
      have hid' : y.id = job.id := hstands.owner.symm.trans howner
      obtain rfl := s.store.jobs.eq_of_key_eq hy hjob hid'
      rw [if_pos hcarries, if_pos hcarries, hstands.repeats hrep, hstands.attempts,
        ← hstands.queue]
      rfl
    · rw [if_neg hcarries, if_neg hcarries]
      rfl
  | stall q e =>
    show (if e.carries row.id then 1 else 0) = (if false then _ else 0) +
      (if e.carries row.id then 1 else 0)
    rw [if_neg Bool.false_ne_true]
    omega
  | _ => rfl

end Rows

end SchedulingService.Scheduler
