import SchedulingService.Scheduler.Conservation

/-!
# The queues under an operator

The routes of `MonitoringController` work on the queues while the scheduler and its
workers do: `pauseQueue` and `resumeQueue`, `cleanQueue`, and `retryFailedJobs`. What
they are about is what BullMQ keeps of the entries it is done with. So here an entry
that no worker will take again stays listed, as completed or as failed, until newer
ones push it out, a `clean` removes it, a cancellation finds it under its id, or, if
it has failed, an operator has it retried.

The scheduler's own steps are those of `Scheduler.step`. Added to them are a pause, the
two lists, and the limit on how often an entry may come back from a stalled worker.

`step_cases` says once what each step does.
-/

namespace SchedulingService.Operations

open Js Queues
open Scheduler (Uuid System Removal retries rejects keysFresh)

/-! ## What BullMQ keeps -/

/-- `maxStalledCount` of the workers. -/
def MAX_STALLED_COUNT : Nat := 5

/-- An entry BullMQ is done with. -/
structure Finished where
  entry : Entry
  finishedOn : Int
  deriving DecidableEq

inductive FinishedType
  | completed
  | failed
  deriving DecidableEq

/-- `removeOnComplete` and `removeOnFail`, which `addJob` and `addRepeatableJob` give
alike: that many are kept. -/
def FinishedType.kept : FinishedType → Nat
  | completed => 50
  | failed => 100

/-- What the three queues list of one type, the oldest first. -/
abbrev Listing := QueueName → List Finished

/-- The newest are kept. -/
def retain (n : Nat) (finished : List Finished) : List Finished :=
  finished.drop (finished.length - n)

/-- One more, in place of the oldest if there are too many. -/
def Listing.push (listing : Listing) (type : FinishedType) (q : QueueName) (f : Finished) :
    Listing :=
  Function.update listing q (retain type.kept (listing q ++ [f]))

/-- `queue.clean(grace, 100, type)`: the oldest of those that finished that long ago. -/
def due (now grace : Int) (finished : List Finished) : List Finished :=
  (finished.filter fun f => decide (f.finishedOn ≤ now - grace)).take 100

def Listing.clean (listing : Listing) (q : QueueName) (now grace : Int) : Listing :=
  Function.update listing q ((listing q).filter fun f => decide (f ∉ due now grace (listing q)))

/-- One is taken off. -/
def Listing.without (listing : Listing) (q : QueueName) (id : Uuid) : Listing :=
  Function.update listing q ((listing q).filter fun f => decide (f.entry.id ≠ id))

section Listings

variable (listing : Listing) (q q' : QueueName)

theorem Listing.push_sublist (type : FinishedType) (f : Finished) :
    (listing.push type q f q').Sublist (if q' = q then listing q ++ [f] else listing q') := by
  unfold Listing.push
  by_cases hq : q' = q
  · subst hq
    rw [Function.update_self, if_pos rfl]
    exact List.drop_sublist _ _
  · rw [Function.update_of_ne hq, if_neg hq]

theorem Listing.clean_sublist (now grace : Int) :
    (listing.clean q now grace q').Sublist (listing q') := by
  unfold Listing.clean
  by_cases hq : q' = q
  · subst hq
    rw [Function.update_self]
    exact List.filter_sublist
  · rw [Function.update_of_ne hq]

theorem Listing.without_sublist (id : Uuid) :
    (listing.without q id q').Sublist (listing q') := by
  unfold Listing.without
  by_cases hq : q' = q
  · subst hq
    rw [Function.update_self]
    exact List.filter_sublist
  · rw [Function.update_of_ne hq]

variable {listing q q'}

theorem Listing.mem_push {type : FinishedType} {f x : Finished}
    (h : x ∈ listing.push type q f q') : x ∈ listing q' ∨ q' = q ∧ x = f := by
  have hx := (listing.push_sublist q q' type f).subset h
  by_cases hq : q' = q
  · subst hq
    rw [if_pos rfl, List.mem_append, List.mem_singleton] at hx
    exact hx.imp_right fun hx => ⟨rfl, hx⟩
  · rw [if_neg hq] at hx
    exact .inl hx

theorem Listing.mem_without {id : Uuid} {x : Finished} (h : x ∈ listing.without q id q') :
    x ∈ listing q' ∧ (q' = q → x.entry.id ≠ id) := by
  refine ⟨(listing.without_sublist q q' id).subset h, ?_⟩
  rintro rfl
  rw [Listing.without, Function.update_self] at h
  exact of_decide_eq_true (List.mem_filter.mp h).2

end Listings

/-! ## States -/

/-- A `retryFailedJobs` that has called `getFailed`. -/
structure Retrying where
  queue : QueueName
  totalFailed : Nat
  /-- The ids of the entries whose `retry` has not settled. -/
  left : List Uuid
  retriedCount : Nat

/-- What an observer sees beside the executions. -/
inductive Notice
  /-- An entry for the schedule has failed for good. -/
  | failed (scheduleId : Uuid)
  /-- It waits again. -/
  | putBack (scheduleId : Uuid)
  /-- `retryFailedJobs` resolved with this count. -/
  | retried (retriedCount : Nat)
  deriving DecidableEq

structure Sys where
  base : System
  paused : QueueName → Bool
  completed : Listing
  failed : Listing
  /-- How often an entry has come back from a stalled worker. -/
  stalls : QueueName → Uuid → Nat
  retrying : List Retrying
  /-- The latest first. -/
  notices : List Notice

inductive Event
  /-- A step of the scheduler or of a worker. -/
  | schedule (event : Scheduler.Event)
  | pauseQueue (q : QueueName) (pause : Write)
  | resumeQueue (q : QueueName) (resume : Write)
  /-- One of the two calls that `cleanQueue` makes. -/
  | clean (q : QueueName) (type : FinishedType) (grace : Int) (clean : Write)
  /-- `retryFailedJobs` lists what has failed. -/
  | getFailed (q : QueueName)
  /-- The `n`-th of them under way calls `retry` on an entry. -/
  | retry (n : Nat) (id : Uuid) (retry : Write)
  /-- It resolves. -/
  | retried (n : Nat)

/-! ## Steps -/

section Step

variable (env : Scheduler.Env) (s : Sys)

/-- What a queue lists beside its entries. -/
def Sys.listed (q : QueueName) : List Finished := s.completed q ++ s.failed q

/-- No entry that is listed has this id. -/
def Sys.unlisted (id : Uuid) : Bool :=
  searchOrder.all fun q => decide (s.stalls q id = 0) &&
    (s.listed q).all fun f => decide (f.entry.id ≠ id)

/-- BullMQ and the database generate ids that no entry has had, and keys that no
other entry has. -/
def Sys.fresh : Scheduler.Event → Bool
  | .save _ calls => s.unlisted calls.id &&
      searchOrder.all fun q => (s.listed q).all fun f => decide (f.entry.key ≠ calls.id)
  | .enqueue n calls => s.unlisted calls.stamp.id && keysFresh s.base (.enqueue n calls)
  | .fire _ _ stamp => s.unlisted stamp.id
  | _ => true

/-- A worker is done with the entry. -/
def Sys.finish (type : FinishedType) (q : QueueName) (e : Entry) : Sys :=
  let base := s.base.withQueues (s.base.store.queues.drop q e)
  let f : Finished := ⟨e, s.base.now⟩
  match type with
  | .completed => { s with base, completed := s.completed.push .completed q f }
  | .failed =>
    { s with
      base
      failed := s.failed.push .failed q f
      notices := .failed e.data.scheduleId :: s.notices }

/-- The `n`-th cancellation under way has found an entry that is listed, and goes on
with the queues that are left. -/
def Sys.remove (n : Nat) (removal : Removal) (q : QueueName) (id : Uuid) (stored : Bool) : Sys :=
  let base := { s.base with removing := s.base.removing.set n removal }
  if stored then { s with
    base
    completed := s.completed.without q id
    failed := s.failed.without q id }
  else { s with base }

/-- Whatever the lists, the search goes on. -/
theorem remove_base (n : Nat) (removal : Removal) (q : QueueName) (id : Uuid) (stored : Bool) :
    (s.remove n removal q id stored).base =
      { s.base with removing := s.base.removing.set n removal } := by
  cases stored <;> rfl

theorem remove_completed (n : Nat) (removal : Removal) (q : QueueName) (id : Uuid)
    (stored : Bool) (q' : QueueName) :
    ((s.remove n removal q id stored).completed q').Sublist (s.completed q') := by
  cases stored with
  | true => exact s.completed.without_sublist q q' id
  | false => exact .refl _

theorem remove_failed (n : Nat) (removal : Removal) (q : QueueName) (id : Uuid)
    (stored : Bool) (q' : QueueName) :
    ((s.remove n removal q id stored).failed q').Sublist (s.failed q') := by
  cases stored with
  | true => exact s.failed.without_sublist q q' id
  | false => exact .refl _

/-- `job.retry()`: the entry waits again, with the attempts it has made. -/
def Sys.putBack (q : QueueName) (f : Finished) : Sys :=
  { s with
    base := s.base.withQueues (s.base.store.queues.append q f.entry.back)
    failed := s.failed.without q f.entry.id
    notices := .putBack f.entry.data.scheduleId :: s.notices }

/-- A step of the scheduler, as far as the lists and the pause have no part in it. -/
def Sys.plain (event : Scheduler.Event) : Option Sys :=
  (Scheduler.step env s.base event).map fun base => { s with base }

def Sys.schedule (event : Scheduler.Event) : Option Sys :=
  match event with
  | .take q _ => if s.paused q then none else s.plain env event
  | .settle q e calls =>
    if e ∈ s.base.store.queues q ∧ e.active = true then
      if retries env s.base e calls then s.plain env event
      else if rejects env.rt env.db s.base.store.jobs.rows e calls then some (s.finish .failed q e)
      else some (s.finish .completed q e)
    else none
  | .stall q e =>
    if e ∈ s.base.store.queues q ∧ e.active = true then
      if s.stalls q e.id < MAX_STALLED_COUNT then
        (s.plain env event).map fun s => { s with
          stalls := Function.update s.stalls q
            (Function.update (s.stalls q) e.id (s.stalls q e.id + 1)) }
      else some (s.finish .failed q e)
    else none
  | .search n calls =>
    match s.base.removing[n]? with
    | some ⟨scheduleId, .str id, q :: rest⟩ =>
      -- `getJob` finds an entry in any state, and only one that is held is locked
      if calls.getJob && (s.listed q).any fun f => decide (f.entry.id = id) then
        some (s.remove n ⟨scheduleId, .str id, if calls.remove.returned then [] else rest⟩ q id
          calls.remove.stored)
      else s.plain env event
    | _ => s.plain env event
  | _ => if s.fresh event then s.plain env event else none

def step : Event → Option Sys
  | .schedule event => s.schedule env event
  | .pauseQueue q pause =>
    some { s with paused := if pause.stored then Function.update s.paused q true else s.paused }
  | .resumeQueue q resume =>
    some { s with paused := if resume.stored then Function.update s.paused q false else s.paused }
  | .clean q type grace clean =>
    if clean.stored then
      match type with
      | .completed => some { s with completed := s.completed.clean q s.base.now grace }
      | .failed => some { s with failed := s.failed.clean q s.base.now grace }
    else some s
  | .getFailed q =>
    let failedJobs := s.failed q
    some { s with retrying :=
      s.retrying ++ [⟨q, failedJobs.length, failedJobs.map fun f => f.entry.id, 0⟩] }
  | .retry n id retry => do
    let r ← s.retrying[n]?
    if id ∈ r.left then
      let left := r.left.erase id
      match (s.failed r.queue).find? fun f => decide (f.entry.id = id) with
      | some f =>
        let retriedCount := if retry.returned then r.retriedCount + 1 else r.retriedCount
        some { (if retry.stored then s.putBack r.queue f else s) with
          retrying := s.retrying.set n { r with left, retriedCount } }
      -- it is not in the failed state, and `retry` throws
      | none => some { s with retrying := s.retrying.set n { r with left } }
    else none
  | .retried n => do
    let r ← s.retrying[n]?
    if r.left.isEmpty then
      some { s with
        retrying := s.retrying.eraseIdx n
        notices := .retried r.retriedCount :: s.notices }
    else none

end Step

/-- At first the lists are empty, and nothing is paused or under way. -/
structure Initial (s : Sys) : Prop where
  base : Scheduler.Initial s.base
  completed : ∀ q, s.completed q = []
  failed : ∀ q, s.failed q = []
  retrying : s.retrying = []
  notices : s.notices = []

def machine (env : Scheduler.Env) : Machine Sys Event where
  Init := Initial
  step := step env

/-! ## What a step does -/

/-- Why a worker is done with an entry. -/
inductive Ends (env : Scheduler.Env) (s : Sys) (q : QueueName) (e : Entry) :
    Scheduler.Event → FinishedType → Prop
  | completed (calls : Scheduler.ExecutionCalls)
      (hrejects : rejects env.rt env.db s.base.store.jobs.rows e calls = false) :
      Ends env s q e (.settle q e calls) .completed
  | failed (calls : Scheduler.ExecutionCalls)
      (hattempts : e.opts.attempts.getD 1 ≤ e.attemptsMade) :
      Ends env s q e (.settle q e calls) .failed
  /-- It has come back from stalled workers too often. -/
  | stalled (hstalls : MAX_STALLED_COUNT ≤ s.stalls q e.id) : Ends env s q e (.stall q e) .failed

/-- The steps by what they do to the state. -/
inductive Stepped (env : Scheduler.Env) (s : Sys) : Event → Sys → Prop
  | base (event : Scheduler.Event) (base : System) (hfresh : s.fresh event = true)
      (hstep : Scheduler.step env s.base event = some base)
      (hretries : ∀ q e calls, event = .settle q e calls → retries env s.base e calls = true)
      (hstall : ∀ q e, event ≠ .stall q e)
      (hsearch : ∀ n calls scheduleId id q rest, event = .search n calls →
        s.base.removing[n]? = some ⟨scheduleId, .str id, q :: rest⟩ → calls.getJob = true →
          ∀ f ∈ s.listed q, f.entry.id ≠ id) : Stepped env s (.schedule event) { s with base }
  | stalled (q : QueueName) (e : Entry) (base : System) (he : e ∈ s.base.store.queues q)
      (hactive : e.active = true) (hstalls : s.stalls q e.id < MAX_STALLED_COUNT)
      (hstep : Scheduler.step env s.base (.stall q e) = some base) :
      Stepped env s (.schedule (.stall q e)) { s with
        base
        stalls := Function.update s.stalls q
          (Function.update (s.stalls q) e.id (s.stalls q e.id + 1)) }
  | finished (event : Scheduler.Event) (type : FinishedType) (q : QueueName) (e : Entry)
      (he : e ∈ s.base.store.queues q) (hactive : e.active = true)
      (hends : Ends env s q e event type) :
      Stepped env s (.schedule event) (s.finish type q e)
  | removed (n : Nat) (calls : RemovalCalls) (scheduleId id : Uuid) (q : QueueName)
      (rest : List QueueName) (f : Finished)
      (hn : s.base.removing[n]? = some ⟨scheduleId, .str id, q :: rest⟩)
      (hf : f ∈ s.listed q) (hid : f.entry.id = id) :
      Stepped env s (.schedule (.search n calls))
        (s.remove n ⟨scheduleId, .str id, if calls.remove.returned then [] else rest⟩ q id
          calls.remove.stored)
  | quiet (event : Event) (paused : QueueName → Bool) (completed : Listing)
      (hother : ∀ e, event ≠ .schedule e)
      (hcompleted : ∀ q, (completed q).Sublist (s.completed q)) :
      Stepped env s event { s with paused, completed }
  | cleaned (q : QueueName) (grace : Int) (clean : Write) :
      Stepped env s (.clean q .failed grace clean)
        { s with failed := s.failed.clean q s.base.now grace }
  | listed (q : QueueName) :
      Stepped env s (.getFailed q) { s with retrying := s.retrying ++
        [⟨q, (s.failed q).length, (s.failed q).map fun f => f.entry.id, 0⟩] }
  | putBack (n : Nat) (retry : Write) (r : Retrying) (f : Finished) (left : List Uuid)
      (retriedCount : Nat) (hn : s.retrying[n]? = some r) (hf : f ∈ s.failed r.queue)
      (hstored : retry.stored = true) (hcount : retriedCount ≤ r.retriedCount + 1) :
      Stepped env s (.retry n f.entry.id retry) { s.putBack r.queue f with
        retrying := s.retrying.set n { r with left, retriedCount } }
  | notPutBack (n : Nat) (id : Uuid) (retry : Write) (r : Retrying) (left : List Uuid)
      (hn : s.retrying[n]? = some r) :
      Stepped env s (.retry n id retry) { s with retrying := s.retrying.set n { r with left } }
  | answered (n : Nat) (r : Retrying) (hn : s.retrying[n]? = some r) :
      Stepped env s (.retried n) { s with
        retrying := s.retrying.eraseIdx n
        notices := .retried r.retriedCount :: s.notices }

section Inversion

variable {env : Scheduler.Env} {s s' : Sys}

theorem stepped_plain {event : Scheduler.Event} (h : s.plain env event = some s')
    (hfresh : s.fresh event = true)
    (hretries : ∀ q e calls, event = .settle q e calls → retries env s.base e calls = true)
    (hstall : ∀ q e, event ≠ .stall q e)
    (hsearch : ∀ n calls scheduleId id q rest, event = .search n calls →
      s.base.removing[n]? = some ⟨scheduleId, .str id, q :: rest⟩ → calls.getJob = true →
        ∀ f ∈ s.listed q, f.entry.id ≠ id) : Stepped env s (.schedule event) s' := by
  obtain ⟨base, hstep, rfl⟩ := Option.map_eq_some_iff.mp h
  exact .base event base hfresh hstep hretries hstall hsearch

theorem stepped_settle {q : QueueName} {e : Entry} {calls : Scheduler.ExecutionCalls}
    (h : s.schedule env (.settle q e calls) = some s') :
    Stepped env s (.schedule (.settle q e calls)) s' := by
  simp only [Sys.schedule] at h
  split at h
  case isFalse => cases h
  case isTrue hheld =>
    obtain ⟨he, hactive⟩ := hheld
    split at h
    case isTrue hretries =>
      refine stepped_plain h rfl ?_ (by simp) (by simp)
      intro q' e' calls' heq
      obtain ⟨-, rfl, rfl⟩ := Scheduler.Event.settle.inj heq
      exact hretries
    case isFalse hretries =>
      split at h
      case isTrue hrejects =>
        obtain rfl := Option.some.inj h
        refine .finished _ .failed q e he hactive (.failed calls ?_)
        -- it rejected, so no attempt is left
        by_contra hleft
        apply hretries
        rw [retries, hrejects, Bool.true_and]
        exact decide_eq_true (Nat.lt_of_not_le hleft)
      case isFalse hrejects =>
        obtain rfl := Option.some.inj h
        exact .finished _ .completed q e he hactive (.completed calls (by simpa using hrejects))

theorem stepped_stall {q : QueueName} {e : Entry} (h : s.schedule env (.stall q e) = some s') :
    Stepped env s (.schedule (.stall q e)) s' := by
  simp only [Sys.schedule] at h
  split at h
  case isFalse => cases h
  case isTrue hheld =>
    obtain ⟨he, hactive⟩ := hheld
    split at h
    case isTrue hstalls =>
      obtain ⟨s₁, hplain, rfl⟩ := Option.map_eq_some_iff.mp h
      obtain ⟨base, hstep, rfl⟩ := Option.map_eq_some_iff.mp hplain
      exact .stalled q e base he hactive hstalls hstep
    case isFalse hstalls =>
      obtain rfl := Option.some.inj h
      exact .finished _ .failed q e he hactive (.stalled (Nat.le_of_not_lt hstalls))

theorem stepped_search {n : Nat} {calls : RemovalCalls}
    (h : s.schedule env (.search n calls) = some s') :
    Stepped env s (.schedule (.search n calls)) s' := by
  simp only [Sys.schedule] at h
  split at h
  · rename_i scheduleId id q rest hn
    split at h
    case isTrue hfound =>
      obtain rfl := Option.some.inj h
      simp only [Bool.and_eq_true, List.any_eq_true, decide_eq_true_eq] at hfound
      obtain ⟨-, f, hf, hid⟩ := hfound
      exact .removed n calls scheduleId id q rest f hn hf hid
    case isFalse hnotFound =>
      refine stepped_plain h rfl (by simp) (by simp) ?_
      intro n' calls' scheduleId' id' q' rest' heq hn' hgetJob f hf hid
      obtain ⟨rfl, rfl⟩ := Scheduler.Event.search.inj heq
      rw [hn, Option.some.injEq, Scheduler.Removal.mk.injEq, List.cons.injEq] at hn'
      obtain ⟨rfl, hsame, rfl, rfl⟩ := hn'
      obtain rfl := Value.str.inj hsame
      apply hnotFound
      rw [hgetJob, Bool.true_and, List.any_eq_true]
      exact ⟨f, hf, decide_eq_true hid⟩
  · rename_i hnone
    refine stepped_plain h rfl (by simp) (by simp) ?_
    intro n' calls' scheduleId' id' q' rest' heq hn'
    obtain ⟨rfl, rfl⟩ := Scheduler.Event.search.inj heq
    exact absurd hn' (hnone _ _ _ _)

theorem stepped_schedule {event : Scheduler.Event} (h : s.schedule env event = some s') :
    Stepped env s (.schedule event) s' := by
  cases event with
  | take q e =>
    simp only [Sys.schedule] at h
    split at h
    · cases h
    · exact stepped_plain h rfl (by simp) (by simp) (by simp)
  | settle q e calls => exact stepped_settle h
  | stall q e => exact stepped_stall h
  | search n calls => exact stepped_search h
  | _ =>
    simp only [Sys.schedule] at h
    split at h
    case isFalse => cases h
    case isTrue hfresh => exact stepped_plain h hfresh (by simp) (by simp) (by simp)

theorem stepped_retry {n : Nat} {id : Uuid} {retry : Write}
    (h : step env s (.retry n id retry) = some s') : Stepped env s (.retry n id retry) s' := by
  simp only [step, Option.bind_eq_bind, Option.bind_eq_some_iff] at h
  obtain ⟨r, hn, h⟩ := h
  split at h
  case isFalse => cases h
  case isTrue hleft =>
    split at h
    · rename_i f hfound
      have hid := List.find?_some hfound
      obtain rfl := of_decide_eq_true hid
      obtain rfl := Option.some.inj h
      have hf := List.mem_of_find?_eq_some hfound
      -- what returned has taken effect
      cases retry with
      | done => exact .putBack n _ r f _ _ hn hf rfl (Nat.le_refl _)
      | threw stored =>
        cases stored with
        | true => exact .putBack n _ r f _ _ hn hf rfl (Nat.le_succ _)
        | false => exact .notPutBack n _ _ r _ hn
    · obtain rfl := Option.some.inj h
      exact .notPutBack n id retry r _ hn

/-- Every step is one of these. -/
theorem step_cases {event : Event} (h : step env s event = some s') : Stepped env s event s' := by
  cases event with
  | schedule event => exact stepped_schedule h
  | pauseQueue q pause =>
    obtain rfl := Option.some.inj h
    exact .quiet _ _ s.completed (by simp) fun q => .refl _
  | resumeQueue q resume =>
    obtain rfl := Option.some.inj h
    exact .quiet _ _ s.completed (by simp) fun q => .refl _
  | clean q type grace clean =>
    simp only [step] at h
    split at h
    · split at h
      · obtain rfl := Option.some.inj h
        exact .quiet _ s.paused _ (by simp) fun q' => s.completed.clean_sublist q q' _ grace
      · obtain rfl := Option.some.inj h
        exact .cleaned q grace clean
    · obtain rfl := Option.some.inj h
      exact .quiet _ s.paused s.completed (by simp) fun q => .refl _
  | getFailed q =>
    obtain rfl := Option.some.inj h
    exact .listed q
  | retry n id retry => exact stepped_retry h
  | retried n =>
    simp only [step, Option.bind_eq_bind, Option.bind_eq_some_iff] at h
    obtain ⟨r, hn, h⟩ := h
    split at h
    case isFalse => cases h
    case isTrue hleft =>
      obtain rfl := Option.some.inj h
      exact .answered n r hn

/-- What a step that is not the scheduler's leaves of it. -/
structure Aside (base base' : System) : Prop where
  now : base'.now = base.now
  schedules : base'.store.schedules = base.store.schedules
  jobs : base'.store.jobs = base.store.jobs
  enqueuing : base'.enqueuing = base.enqueuing
  trace : base'.trace = base.trace

/-- Either the scheduler takes a step, or only its queues and searches change. -/
theorem Stepped.scheduler_or {event : Event} (h : Stepped env s event s') :
    (∃ event', event = .schedule event' ∧
      Scheduler.step env s.base event' = some s'.base) ∨ Aside s.base s'.base := by
  cases h with
  | base event base hfresh hstep hretries hstall hsearch => exact .inl ⟨event, rfl, hstep⟩
  | stalled q e base he hactive hstalls hstep => exact .inl ⟨.stall q e, rfl, hstep⟩
  | finished event type q e he hactive hends =>
    right
    cases type <;> exact ⟨rfl, rfl, rfl, rfl, rfl⟩
  | removed n calls scheduleId id q rest f hn hf hid =>
    right
    rw [remove_base]
    exact ⟨rfl, rfl, rfl, rfl, rfl⟩
  | putBack n retry r f left retriedCount hn hf hstored hcount =>
    exact .inr ⟨rfl, rfl, rfl, rfl, rfl⟩
  | _ => exact .inr ⟨rfl, rfl, rfl, rfl, rfl⟩

end Inversion

/-! ## A small start -/

/-- One job, nothing scheduled, and nothing listed. -/
def atRest : Sys where
  base := Scheduler.atRest
  paused _ := false
  completed _ := []
  failed _ := []
  stalls _ _ := 0
  retrying := []
  notices := []

theorem initial_atRest : Initial atRest :=
  ⟨Scheduler.initial_atRest, fun _ => rfl, fun _ => rfl, rfl, rfl⟩

def scheduled (events : List Scheduler.Event) : List Event := events.map .schedule

/-- A ONCE schedule for one minute past the epoch. -/
def onceDto : Scheduler.ScheduleJobDto :=
  { Scheduler.bareDto Scheduler.cleanupJob .once with
    scheduledAt := .str "1970-01-01T00:01:00.000Z" }

/-- Its entry. -/
def onceEntry : Entry :=
  newEntry (Scheduler.callsWith .done).stamp .medium "execute-job"
    ⟨Scheduler.cleanupJob.id, (Scheduler.callsWith .done).id⟩
    (jobOptions { JobsOptions.none with
      delay := some 60000
      jobId := some (Scheduler.callsWith .done).id })

/-- The database is down when the job is looked up. -/
def dbDown : Scheduler.ExecutionCalls := { Scheduler.completeThrows with lookup := false }

/-- A worker takes an entry of the MEDIUM queue, and fails with it. -/
def failing (e : Entry) : List Scheduler.Event :=
  [.take .medium e, .settle .medium e.taken dbDown]

/-- It fails for good. -/
def failingForGood (e : Entry) : List Scheduler.Event :=
  failing e ++ failing e.taken.back ++ failing e.taken.back.taken.back

end SchedulingService.Operations
