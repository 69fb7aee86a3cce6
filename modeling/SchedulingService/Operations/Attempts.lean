import SchedulingService.Operations.Shelved
import SchedulingService.Scheduler.Attempts

/-!
# How often a schedule is run, all told

An entry that has failed for good has used up its attempts. `retryFailedJobs` puts it
back with those it has made, so that each time it is good for one start, and it fails
for good again if that rejects. What is listed as failed carries its credit with it
until then.

* `Bounded.step` — starts and credit together grow by what the events bring, and by one
  for each entry that is put back;
* `executions_bounded` — so the executions of a schedule are bounded by its attempts,
  for each of its occurrences, by the stalls and by how often it was put back.
-/

namespace SchedulingService.Operations

open Js Queues
open Scheduler (Uuid System Schedule Job creditFor attemptsOf getQueueName credit_update)

/-- An occurrence of an entry for the schedule. -/
def Event.fires (id : Uuid) : Event → Bool
  | .schedule event => event.fires id
  | _ => false

/-- A worker that dies with an entry for the schedule. -/
def Event.stalls (id : Uuid) : Event → Bool
  | .schedule event => event.stalls id
  | _ => false

/-- How often an entry for the schedule was put back. -/
def Sys.putBacks (s : Sys) (id : Uuid) : Nat := s.notices.countP fun n => decide (n = .putBack id)

/-! ## Credit -/

/-- The entries that have failed, as contents of the queues. -/
def shelf (failed : Listing) : Contents := fun q => (failed q).map Finished.entry

/-- A bound on the executions so far and to come. -/
def Sys.potential (s : Sys) (id : Uuid) : Nat :=
  s.base.potential id + Scheduler.Contents.credit (shelf s.failed) id

def Event.grants (id : Uuid) : Event → Nat
  | .schedule event => event.grants id
  | _ => 0

section Credit

variable {failed : Listing} {q : QueueName} {f : Finished} {qs : Contents} {e : Entry}
  (id : Uuid)

theorem shelf_update (failed : Listing) (q : QueueName) (finished : List Finished) :
    shelf (Function.update failed q finished) =
      Function.update (shelf failed) q (finished.map Finished.entry) := by
  funext q'
  unfold shelf
  by_cases hq : q' = q
  · subst hq
    rw [Function.update_self, Function.update_self]
  · rw [Function.update_of_ne hq, Function.update_of_ne hq]

theorem credit_push (failed : Listing) (q : QueueName) (f : Finished) (type : FinishedType) :
    Scheduler.Contents.credit (shelf (failed.push type q f)) id ≤
      Scheduler.Contents.credit (shelf failed) id + creditFor id f.entry := by
  have hupdate := credit_update (shelf failed) q
    ((retain type.kept (failed q ++ [f])).map Finished.entry) id
  have hkept : total (creditFor id) ((retain type.kept (failed q ++ [f])).map Finished.entry) ≤
      total (creditFor id) (shelf failed q) + creditFor id f.entry := by
    refine (total_sublist _ ((List.drop_sublist _ _).map _)).trans_eq ?_
    rw [List.map_append, total_append, List.map_singleton, total_cons, total_nil]
    rfl
  unfold Listing.push
  rw [shelf_update]
  omega

theorem credit_without (hf : f ∈ failed q) :
    Scheduler.Contents.credit (shelf (failed.without q f.entry.id)) id + creditFor id f.entry ≤
      Scheduler.Contents.credit (shelf failed) id := by
  have hupdate := credit_update (shelf failed) q
    (((failed q).filter fun x => decide (x.entry.id ≠ f.entry.id)).map Finished.entry) id
  have hrest := total_filter_add (fun x => creditFor id x.entry)
    (p := fun x : Finished => decide (x.entry.id ≠ f.entry.id)) hf (by simp)
  rw [total_map] at hupdate
  have hall : total (creditFor id) (shelf failed q) =
      total (fun x => creditFor id x.entry) (failed q) := total_map ..
  unfold Listing.without
  rw [shelf_update]
  omega

/-- The lists only lose. -/
theorem credit_lists {failed' : Listing} (h : ∀ q, (failed' q).Sublist (failed q)) :
    Scheduler.Contents.credit (shelf failed') id ≤
      Scheduler.Contents.credit (shelf failed) id := by
  have hle : ∀ q, total (creditFor id) (shelf failed' q) ≤
      total (creditFor id) (shelf failed q) := fun q => total_sublist _ ((h q).map _)
  have hhigh := hle .high
  have hmedium := hle .medium
  have hlow := hle .low
  unfold Scheduler.Contents.credit
  omega

/-- An entry takes its credit with it. -/
theorem credit_drop (he : e ∈ qs q) :
    Scheduler.Contents.credit (qs.drop q e) id + creditFor id e ≤
      Scheduler.Contents.credit qs id := by
  have hupdate := credit_update qs q ((qs q).filter (· ≠ e)) id
  have hrest := total_filter_add (creditFor id) (p := fun x => decide (x ≠ e)) he (by simp)
  unfold Contents.drop
  omega

end Credit

/-! ## Steps -/

section Steps

variable {env : Scheduler.Env} {s s' : Sys} {event : Event}

/-- What is not of the queues stays. -/
theorem potential_aside {base base' : System} (h : Aside base base') (id : Uuid) :
    base'.potential id + Scheduler.Contents.credit base.store.queues id =
      base.potential id + Scheduler.Contents.credit base'.store.queues id := by
  unfold System.potential System.starts
  rw [h.trace, h.enqueuing]
  omega

theorem base_aside {base base' : System} (h : Aside base base') (id : Uuid) :
    base'.base id = base.base id := by
  unfold System.base
  rw [h.schedules]

/-- **Step lemma.** -/
theorem potential_step (h : Sound env s) (hstep : Stepped env s event s') (id : Uuid) :
    s'.potential id + s.base.base id + s.putBacks id ≤
      s.potential id + s'.base.base id + event.grants id + s'.putBacks id := by
  cases hstep with
  | base event base hfresh hbase hretries hstall hsearch =>
    have hgrown := Scheduler.potential_step h.sane h.traceable.whole hbase id
    simp only [Sys.potential, Sys.putBacks, Event.grants]
    omega
  | stalled q e base he hactive hstalls hbase =>
    have hgrown := Scheduler.potential_step h.sane h.traceable.whole hbase id
    simp only [Sys.potential, Sys.putBacks, Event.grants]
    omega
  | finished event type q e he hactive hends =>
    have hdrop := credit_drop id he
    cases type with
    | completed =>
      have haside : Aside s.base (s.finish .completed q e).base := ⟨rfl, rfl, rfl, rfl, rfl⟩
      have hpotential := potential_aside haside id
      have hbase := base_aside haside id
      simp only [Sys.potential, Sys.putBacks, Sys.finish, System.withQueues] at *
      omega
    | failed =>
      have haside : Aside s.base (s.finish .failed q e).base := ⟨rfl, rfl, rfl, rfl, rfl⟩
      have hpotential := potential_aside haside id
      have hbase := base_aside haside id
      -- its credit goes to the list
      have hpush := credit_push id s.failed q ⟨e, s.base.now⟩ .failed
      have hnotices : (s.finish .failed q e).putBacks id = s.putBacks id := by
        simp [Sys.putBacks, Sys.finish]
      simp only [Sys.potential, Sys.finish, System.withQueues] at *
      omega
  | removed n calls scheduleId id' q rest f hn hf hid =>
    have hlists := credit_lists id (remove_failed s n
      ⟨scheduleId, .str id', if calls.remove.returned then [] else rest⟩ q id' calls.remove.stored)
    have hnotices : (s.remove n ⟨scheduleId, .str id', if calls.remove.returned then [] else rest⟩
        q id' calls.remove.stored).putBacks id = s.putBacks id := by
      cases calls.remove.stored <;> rfl
    have hpotential : ∀ removing, System.potential { s.base with removing } id =
        s.base.potential id := fun _ => rfl
    have hbase : ∀ removing, System.base { s.base with removing } id = s.base.base id :=
      fun _ => rfl
    simp only [Sys.potential, hnotices, remove_base, hpotential, hbase]
    omega
  | cleaned q grace clean =>
    have hlists := credit_lists id (s.failed.clean_sublist q · s.base.now grace)
    simp only [Sys.potential, Sys.putBacks]
    omega
  | putBack n retry r f left retriedCount hn hf hstored hcount =>
    have haside : Aside s.base (s.putBack r.queue f).base := ⟨rfl, rfl, rfl, rfl, rfl⟩
    have hpotential := potential_aside haside id
    have hbase := base_aside haside id
    have hlist := credit_without id hf
    have happend := Scheduler.credit_append s.base.store.queues r.queue f.entry.back id
    -- it is good for one more start than it was
    have hheld := (h.shelved r.queue f (mem_listed.mpr (.inr hf))).held
    have hback := Scheduler.creditFor_stalled id hheld
    have hnotices : Sys.putBacks { s.putBack r.queue f with
        retrying := s.retrying.set n { r with left, retriedCount } } id =
        s.putBacks id + (if f.entry.carries id then 1 else 0) := by
      simp [Sys.putBacks, Sys.putBack, List.countP_cons, Entry.carries]
    rw [hnotices]
    simp only [Sys.potential, Sys.putBack, System.withQueues, Event.grants] at *
    omega
  | answered n r hn =>
    have hnotices : Sys.putBacks { s with
        retrying := s.retrying.eraseIdx n
        notices := .retried r.retriedCount :: s.notices } id = s.putBacks id := by
      simp [Sys.putBacks]
    simp only [Sys.potential, hnotices]
    omega
  | _ =>
    simp only [Sys.potential, Sys.putBacks]
    omega

end Steps

/-! ## Runs -/

section Runs

variable {env : Scheduler.Env} {s₀ s : Sys} {es : List Event} {id : Uuid}

/-- What the events of a run have brought. -/
structure Bounded (env : Scheduler.Env) (id : Uuid) (es : List Event) (s : Sys) : Prop where
  sound : Sound env s
  potential : s.potential id ≤ s.base.base id + total (Event.grants id) es + s.putBacks id
  /-- What has fired stands for rows that are stored. -/
  fired : ∀ q e stamp, .schedule (.fire q e stamp) ∈ es →
    s.base.Accounted q e ∧ e.repeatable = true

theorem accounted_step {q : QueueName} {e : Entry} {event : Event} {s' : Sys}
    (h : s.base.Accounted q e) (hstep : Stepped env s event s') : s'.base.Accounted q e := by
  rcases hstep.scheduler_or with ⟨event', -, hbase⟩ | haside
  · exact h.kept (Scheduler.kept_step hbase)
  · obtain ⟨row, hrow, job, hjob, hstands⟩ := h
    exact ⟨row, haside.schedules ▸ hrow, job, haside.jobs ▸ hjob, hstands⟩

/-- What fires repeats. -/
theorem fires_of_step {q : QueueName} {e : Entry} {stamp : Stamp} {base base' : System}
    (hstep : Scheduler.step env base (.fire q e stamp) = some base') :
    e ∈ base.store.queues q ∧ e.repeatable = true := by
  cases Scheduler.step_cases hstep with
  | fired _ _ _ stamp' he hfires hnow hfresh =>
    refine ⟨he, ?_⟩
    unfold Entry.firesAt at hfires
    rw [Entry.repeatable]
    cases hr : e.opts.repeatOpts with
    | none => simp [hr] at hfires
    | some r => rfl

/-- **History.** -/
theorem Bounded.step {event : Event} {s' : Sys} (h : Bounded env id es s)
    (hstep : Stepped env s event s') : Bounded env id (es ++ [event]) s' where
  sound := h.sound.step hstep
  potential := by
    have hpotential := h.potential
    have hgrown := potential_step h.sound hstep id
    rw [total_append, total_cons, total_nil]
    omega
  fired q e stamp hfire := by
    rcases List.mem_append.mp hfire with hfire | hfire
    · obtain ⟨hstands, hrep⟩ := h.fired q e stamp hfire
      exact ⟨accounted_step hstands hstep, hrep⟩
    · obtain rfl := List.mem_singleton.mp hfire
      rcases hstep.scheduler_or with ⟨event', heq, hbase⟩ | haside
      · obtain rfl := Event.schedule.inj heq
        obtain ⟨he, hrep⟩ := fires_of_step hbase
        exact ⟨accounted_step (h.sound.traceable.whole.entries q e he) hstep, hrep⟩
      · -- an occurrence is a step of the scheduler
        cases hstep with
        | base event base hfresh hbase hretries hstall hsearch =>
          obtain ⟨he, hrep⟩ := fires_of_step hbase
          have hstands := h.sound.traceable.whole.entries q e he
          exact ⟨hstands.kept (Scheduler.kept_step hbase), hrep⟩
        | finished event type q' e' he hactive hends => cases hends
        | quiet event paused completed hother hcompleted => exact absurd rfl (hother _)

theorem Initial.bounded (h₀ : Initial s₀) (id : Uuid) : Bounded env id [] s₀ where
  sound := Initial.sound h₀
  potential := by
    have hcredit : Scheduler.Contents.credit s₀.base.store.queues id = 0 := by
      simp [Scheduler.Contents.credit, h₀.base.queues]
    have hshelf : Scheduler.Contents.credit (shelf s₀.failed) id = 0 := by
      simp [Scheduler.Contents.credit, shelf, h₀.failed]
    simp [Sys.potential, System.potential, System.starts, h₀.base.trace, h₀.base.enqueuing,
      hcredit, hshelf]
  fired q e stamp hfire := by cases hfire

/-- **Executions are bounded.** However calls, workers, failures, cancellations and
operators interleave, a one-shot schedule is started at most three times, whatever its
queue, and a repeating one at most as often as its queue gives attempts to each of its
occurrences; each worker that stalls may add one, and so may each time that an entry is
put back which had failed for good. -/
theorem executions_bounded (h₀ : Initial s₀) (hexec : (machine env).exec s₀ es = some s)
    {row : Schedule} (hrow : row ∈ s.base.store.schedules.rows) {job : Job}
    (hjob : job ∈ s.base.store.jobs.rows) (howner : row.jobId = job.id) :
    s.base.starts row.id ≤
      (if row.scheduleType.oneShot then 3
        else attemptsOf (getQueueName job.priority) row.scheduleType *
          es.countP (Event.fires row.id)) +
      es.countP (Event.stalls row.id) + s.putBacks row.id := by
  have h : Bounded env row.id es s := by
    refine Machine.exec_history (I := Bounded env row.id) ?_ hexec (Initial.bounded h₀ row.id)
    intro es s e s' _ hs hstep
    exact hs.step (step_cases hstep)
  have hpotential := h.potential
  have hstarts : s.base.starts row.id ≤ s.potential row.id := by
    unfold Sys.potential System.potential
    omega
  have hgrants : ∀ event ∈ es, event.grants row.id =
      (if event.fires row.id then
        if row.scheduleType.oneShot then 0
        else attemptsOf (getQueueName job.priority) row.scheduleType
      else 0) + (if event.stalls row.id then 1 else 0) := by
    intro event hevent
    cases event with
    | schedule event =>
      refine Scheduler.grants_eq hrow hjob howner ?_
      rintro q e stamp rfl
      exact h.fired q e stamp hevent
    | _ => rfl
  rw [Scheduler.base_eq hrow, total_congr hgrants, total_add, total_countP, total_countP]
    at hpotential
  cases htype : row.scheduleType.oneShot with
  | true =>
    simp only [htype, if_true, Nat.zero_mul] at hpotential ⊢
    omega
  | false =>
    simp only [htype, Bool.false_eq_true, if_false] at hpotential ⊢
    omega

end Runs

/-- An IMMEDIATE schedule whose three attempts fail, and which is put back then. -/
theorem executions_bounded_putBack :
    ∃ s : Sys, s.base.starts (Scheduler.callsWith .done).id = 4 ∧
      s.base.starts (Scheduler.callsWith .done).id ≤ 3 + 0 + 1 := by
  let e := Scheduler.immediateEntry 0
  let es := scheduled (Scheduler.scheduling (Scheduler.bareDto Scheduler.cleanupJob .immediate) ++
    failingForGood e) ++ [.getFailed .medium, .retry 0 e.id .done] ++
      scheduled [.take .medium e.taken.back.taken.back.taken.back]
  have hexec : ((machine Scheduler.smallEnv).exec atRest es).map (fun s =>
      (s.base.store.schedules.rows.any fun row =>
        decide (row.id = (Scheduler.callsWith .done).id) && row.scheduleType.oneShot &&
          s.base.store.jobs.rows.any fun job => decide (row.jobId = job.id)) &&
      decide (s.base.starts (Scheduler.callsWith .done).id = 4 ∧
        s.putBacks (Scheduler.callsWith .done).id = 1)) = some true := by decide
  obtain ⟨s, hs, hthere⟩ := Option.map_eq_some_iff.mp hexec
  simp only [Bool.and_eq_true, List.any_eq_true, decide_eq_true_eq] at hthere
  obtain ⟨⟨row, hrow, ⟨hid, htype⟩, job, hjob, howner⟩, hstarts, hputBacks⟩ := hthere
  have hbound := executions_bounded initial_atRest hs hrow hjob howner
  have hstalls : es.countP (Event.stalls row.id) = 0 := by
    rw [hid]
    decide
  rw [hstalls, hid, htype, if_pos rfl, hputBacks] at hbound
  exact ⟨s, hstarts, hbound⟩

end SchedulingService.Operations
