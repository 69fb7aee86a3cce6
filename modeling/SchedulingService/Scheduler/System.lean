import SchedulingService.Lib.Transition
import SchedulingService.Scheduler.Scheduling
import SchedulingService.Scheduler.Retries

/-!
# The scheduler and its workers

One machine for the whole life of a schedule. `scheduleJob` takes two steps, the
save of the row and the call of the queue; `cancelSchedule` takes one for the
save and one for each queue its search visits; BullMQ fires repeatable entries
and hands entries to workers in between. Any number of calls are under way at
once, and their steps interleave in any order.

A worker starts `executeJob` in the step in which it takes an entry. What the
call does then is `executeJob` of the model; that it may reject, and that a
worker may stall, puts the entry back into its queue. An entry that a worker is
done with for good is out of the machine; `Operations.machine` goes on with what
BullMQ keeps of it.

`step_cases` says once what each step does to the state. `exec_scheduleJob` and
`exec_cancelSchedule` say that a call with nothing in between is what the
function of the model computes.
-/

namespace SchedulingService.Scheduler

open Js Queues

/-- What the machine is given: the runtime, the database and the calendar of
BullMQ's repeatable entries. -/
structure Env where
  rt : Runtime
  db : Database
  calendar : Calendar

/-- What an observer sees. -/
inductive Observation
  /-- A worker started `executeJob` for the schedule. -/
  | started (scheduleId : Uuid) (time : Int)
  /-- `cancelSchedule` resolved for the schedule. -/
  | cancelled (scheduleId : Uuid)
  deriving DecidableEq

/-- A `cancelSchedule` that has saved its schedule: the schedule's id, the id it
was given, and the queues it has still to search. -/
structure Removal where
  scheduleId : Uuid
  given : Value
  left : List QueueName

structure System where
  now : Int
  store : Store
  /-- The calls of `scheduleJob` between the save and the queue. -/
  enqueuing : List (Job × Schedule)
  removing : List Removal
  /-- The latest first. -/
  trace : List Observation

/-! ## Steps -/

inductive Event
  | elapse (d : Nat)
  | createJob (id : Uuid) (dto : CreateJobDto)
  /-- `scheduleJob` up to its save. -/
  | save (dto : ScheduleJobDto) (calls : SchedulingCalls)
  /-- The `n`-th `scheduleJob` under way asks the queue. -/
  | enqueue (n : Nat) (calls : SchedulingCalls)
  /-- `cancelSchedule` up to its save. -/
  | deactivate (scheduleId : Value) (calls : CancellingCalls)
  /-- The `n`-th `cancelSchedule` under way searches its next queue. -/
  | search (n : Nat) (calls : RemovalCalls)
  /-- It has no queue left and resolves. -/
  | resolve (n : Nat)
  /-- A repeatable entry has an occurrence. -/
  | fire (q : QueueName) (e : Entry) (stamp : Stamp)
  /-- A worker takes an entry. -/
  | take (q : QueueName) (e : Entry)
  /-- What it runs settles. -/
  | settle (q : QueueName) (e : Entry) (calls : ExecutionCalls)
  /-- It died with the entry. -/
  | stall (q : QueueName) (e : Entry)

namespace System

def withQueues (s : System) (queues : Contents) : System :=
  { s with store := { s.store with queues } }

/-- BullMQ generates ids no entry has, and neither they nor its keys are ids of
schedules. -/
def freshStamp (s : System) (stamp : Stamp) : Prop :=
  (∀ q, ∀ e ∈ s.store.queues q, e.id ≠ stamp.id) ∧
    ∀ row ∈ s.store.schedules.rows, row.id ≠ stamp.id ∧ row.id ≠ stamp.key

instance (s : System) (stamp : Stamp) : Decidable (s.freshStamp stamp) :=
  inferInstanceAs (Decidable (_ ∧ _))

/-- The database generates ids that are neither. -/
def freshRow (s : System) (id : Uuid) : Prop :=
  ∀ q, ∀ e ∈ s.store.queues q, e.id ≠ id ∧ e.key ≠ id

instance (s : System) (id : Uuid) : Decidable (s.freshRow id) :=
  inferInstanceAs (Decidable (∀ q, ∀ e ∈ s.store.queues q, _))

end System

/-- The promise of the processor rejects, and the entry has attempts left. -/
def retries (env : Env) (s : System) (e : Entry) (calls : ExecutionCalls) : Bool :=
  rejects env.rt env.db s.store.jobs.rows e calls &&
    decide (e.attemptsMade < e.opts.attempts.getD 1)

def step (env : Env) (s : System) : Event → Option System
  | .elapse d => some { s with now := s.now + d }
  | .createJob id dto => some { s with store := (createJob env.db id dto s.store).1 }
  | .save dto calls =>
    if s.freshRow calls.id then
      match saveSchedule { env.rt with now := s.now } env.db calls dto s.store with
      | (store, .ok call) => some { s with store, enqueuing := s.enqueuing ++ [call] }
      | (store, .error _) => some { s with store }
    else none
  | .enqueue n calls => do
    let (job, schedule) ← s.enqueuing[n]?
    let calls := { calls with stamp := { calls.stamp with now := s.now } }
    if s.freshStamp calls.stamp then
      some { s.withQueues (addToQueue calls s.now job schedule s.store.queues).1 with
        enqueuing := s.enqueuing.eraseIdx n }
    else none
  | .deactivate scheduleId calls =>
    match deactivate env.db calls scheduleId s.store with
    | (store, .ok schedule) =>
      some { s with store, removing := s.removing ++ [⟨schedule.id, scheduleId, searchOrder⟩] }
    | (store, .error _) => some { s with store }
  | .search n calls =>
    match s.removing[n]? with
    | some ⟨scheduleId, given, q :: rest⟩ =>
      let (queues, left) := searchQueue given calls q s.store.queues
      some { s.withQueues queues with
        removing := s.removing.set n ⟨scheduleId, given, if left then [] else rest⟩ }
    | _ => none
  | .resolve n =>
    match s.removing[n]? with
    | some ⟨scheduleId, _, []⟩ =>
      some { s with
        removing := s.removing.eraseIdx n
        trace := .cancelled scheduleId :: s.trace }
    | _ => none
  | .fire q e stamp =>
    let stamp := { stamp with now := s.now }
    if e ∈ s.store.queues q ∧ e.firesAt env.calendar s.now = true ∧ s.freshStamp stamp then
      let queues := s.store.queues.swap q e (e.noted s.now)
      some (s.withQueues (queues.append q (occurrence stamp e)))
    else none
  | .take q e =>
    if e ∈ s.store.queues q ∧ e.ready s.now = true then
      some { s.withQueues (s.store.queues.swap q e e.taken) with
        -- entries of another name are not executed
        trace :=
          if e.name = "execute-job" then .started e.data.scheduleId s.now :: s.trace
          else s.trace }
    else none
  | .settle q e calls =>
    if e ∈ s.store.queues q ∧ e.active = true then
      if retries env s e calls = true then
        some (s.withQueues (s.store.queues.swap q e e.back))
      else some (s.withQueues (s.store.queues.drop q e))
    else none
  | .stall q e =>
    if e ∈ s.store.queues q ∧ e.active = true then
      some (s.withQueues (s.store.queues.swap q e e.back))
    else none

/-- At first nothing is scheduled; which jobs and categories there are is open. -/
structure Initial (s : System) : Prop where
  schedules : s.store.schedules.rows = []
  queues : ∀ q, s.store.queues q = []
  enqueuing : s.enqueuing = []
  removing : s.removing = []
  trace : s.trace = []

def machine (env : Env) : Machine System Event where
  Init := Initial
  step := step env

/-! ## What a step does -/

/-- The steps by what they do to the state. -/
inductive Stepped (env : Env) (s : System) : Event → System → Prop
  | elapse (d : Nat) : Stepped env s (.elapse d) { s with now := s.now + d }
  | createJob (id : Uuid) (dto : CreateJobDto) (jobs : Keyed Job.id) :
      Stepped env s (.createJob id dto) { s with store := { s.store with jobs } }
  | notSaved (dto : ScheduleJobDto) (calls : SchedulingCalls) : Stepped env s (.save dto calls) s
  | saved (dto : ScheduleJobDto) (calls : SchedulingCalls) (job : Job) (row : Schedule)
      (schedules : Keyed Schedule.id) (enqueuing : List (Job × Schedule))
      (hfresh : s.freshRow calls.id)
      (hsaved : Saved { env.rt with now := s.now } env.db calls dto s.store job row schedules)
      (henqueuing : enqueuing = s.enqueuing ∨ enqueuing = s.enqueuing ++ [(job, row)]) :
      Stepped env s (.save dto calls) { s with store := { s.store with schedules }, enqueuing }
  | enqueued (n : Nat) (calls : SchedulingCalls) (job : Job) (row : Schedule) (stamp : Stamp)
      (queues : Contents) (hn : s.enqueuing[n]? = some (job, row)) (hnow : stamp.now = s.now)
      (hfresh : s.freshStamp stamp)
      (hqueues : queues = s.store.queues ∨ ∃ opts, calls.add.stored = true ∧
        optionsFor s.now row = some opts ∧
        queues = s.store.queues.add stamp (getQueueName job.priority) "execute-job"
          ⟨job.id, row.id⟩ opts) :
      Stepped env s (.enqueue n calls)
        { s.withQueues queues with enqueuing := s.enqueuing.eraseIdx n }
  | notDeactivated (scheduleId : Value) (calls : CancellingCalls) :
      Stepped env s (.deactivate scheduleId calls) s
  | deactivated (scheduleId : Value) (calls : CancellingCalls) (row : Schedule)
      (removing : List Removal)
      (hfound : findOneById env.db Schedule.id s.store.schedules.rows scheduleId = .ok (some row))
      (hremoving : removing = s.removing ∨ calls.lookup = true ∧ calls.save.returned = true ∧
        removing = s.removing ++ [⟨row.id, scheduleId, searchOrder⟩]) :
      Stepped env s (.deactivate scheduleId calls)
        { s with
          store :=
            { s.store with schedules := s.store.schedules.put { row with isActive := false } }
          removing }
  | searched (n : Nat) (calls : RemovalCalls) (scheduleId : Uuid) (given : Value) (q : QueueName)
      (rest : List QueueName) (hn : s.removing[n]? = some ⟨scheduleId, given, q :: rest⟩) :
      Stepped env s (.search n calls)
        { s.withQueues (searchQueue given calls q s.store.queues).1 with
          removing := s.removing.set n ⟨scheduleId, given,
            if (searchQueue given calls q s.store.queues).2 then [] else rest⟩ }
  | resolved (n : Nat) (scheduleId : Uuid) (given : Value)
      (hn : s.removing[n]? = some ⟨scheduleId, given, []⟩) :
      Stepped env s (.resolve n)
        { s with
          removing := s.removing.eraseIdx n
          trace := .cancelled scheduleId :: s.trace }
  | fired (q : QueueName) (e : Entry) (stamp stamp' : Stamp) (he : e ∈ s.store.queues q)
      (hfires : e.firesAt env.calendar s.now = true) (hnow : stamp'.now = s.now)
      (hfresh : s.freshStamp stamp') :
      Stepped env s (.fire q e stamp)
        (s.withQueues ((s.store.queues.swap q e (e.noted s.now)).append q
          (occurrence stamp' e)))
  | taken (q : QueueName) (e : Entry) (trace : List Observation) (he : e ∈ s.store.queues q)
      (hready : e.ready s.now = true)
      (htrace : trace = .started e.data.scheduleId s.now :: s.trace ∨ trace = s.trace) :
      Stepped env s (.take q e)
        { s.withQueues (s.store.queues.swap q e e.taken) with trace }
  | dropped (q : QueueName) (e : Entry) (calls : ExecutionCalls) (he : e ∈ s.store.queues q)
      (hactive : e.active = true) :
      Stepped env s (.settle q e calls) (s.withQueues (s.store.queues.drop q e))
  | retried (q : QueueName) (e : Entry) (calls : ExecutionCalls) (he : e ∈ s.store.queues q)
      (hactive : e.active = true)
      (hretries : retries env s e calls = true) :
      Stepped env s (.settle q e calls) (s.withQueues (s.store.queues.swap q e e.back))
  | stalled (q : QueueName) (e : Entry) (he : e ∈ s.store.queues q) (hactive : e.active = true) :
      Stepped env s (.stall q e) (s.withQueues (s.store.queues.swap q e e.back))

section Inversion

variable {env : Env} {s s' : System}

/-- `createJob` adds to the jobs, if to anything. -/
theorem createJob_store (db : Database) (id : Uuid) (dto : CreateJobDto) (st : Store) :
    ∃ jobs, (createJob db id dto st).1 = { st with jobs } := by
  unfold createJob
  split
  · exact ⟨st.jobs, rfl⟩
  · exact ⟨st.jobs, rfl⟩
  · split
    · exact ⟨st.jobs, rfl⟩
    · split
      · exact ⟨st.jobs, rfl⟩
      · exact ⟨_, rfl⟩

theorem stepped_save {dto : ScheduleJobDto} {calls : SchedulingCalls}
    (h : step env s (.save dto calls) = some s') : Stepped env s (.save dto calls) s' := by
  simp only [step] at h
  split at h
  case isFalse => cases h
  case isTrue hfresh =>
    rcases turnedDown_or_saved { env.rt with now := s.now } env.db calls dto s.store with
      hdown | ⟨job, row, schedules, hsaved⟩
    · obtain ⟨e, hsave⟩ := saveSchedule_of_turnedDown hdown
      rw [hsave] at h
      obtain rfl := Option.some.inj h
      exact .notSaved dto calls
    · rw [saveSchedule_of_saved hsaved] at h
      -- a save that threw may have taken effect all the same
      cases hwrite : calls.save with
      | done =>
        rw [hwrite] at h
        obtain rfl := Option.some.inj h
        exact .saved dto calls job row schedules _ hfresh hsaved (.inr rfl)
      | threw stored =>
        rw [hwrite] at h
        obtain rfl := Option.some.inj h
        cases stored with
        | true => exact .saved dto calls job row schedules _ hfresh hsaved (.inl rfl)
        | false => exact .notSaved dto calls

theorem stepped_enqueue {n : Nat} {calls : SchedulingCalls}
    (h : step env s (.enqueue n calls) = some s') : Stepped env s (.enqueue n calls) s' := by
  simp only [step, Option.bind_eq_bind, Option.bind_eq_some_iff] at h
  obtain ⟨⟨job, row⟩, hn, h⟩ := h
  split at h
  case isFalse => cases h
  case isTrue hfresh =>
    obtain rfl := Option.some.inj h
    refine .enqueued n calls job row { calls.stamp with now := s.now } _ hn rfl hfresh ?_
    unfold addToQueue
    rw [enqueue_eq]
    cases hopts : optionsFor s.now row with
    | none => exact .inl rfl
    | some opts =>
      cases hstored : calls.add.stored with
      | true => exact .inr ⟨opts, rfl, rfl, by simp⟩
      | false => exact .inl (by simp)

theorem stepped_deactivate {scheduleId : Value} {calls : CancellingCalls}
    (h : step env s (.deactivate scheduleId calls) = some s') :
    Stepped env s (.deactivate scheduleId calls) s' := by
  simp only [step, deactivate] at h
  cases hlookup : calls.lookup with
  | false =>
    simp only [hlookup, Bool.not_false, if_true] at h
    obtain rfl := Option.some.inj h
    exact .notDeactivated scheduleId calls
  | true =>
    -- the call gets to its save only with a row
    simp only [hlookup, Bool.not_true, Bool.false_eq_true, if_false] at h
    cases hfound : findOneById env.db Schedule.id s.store.schedules.rows scheduleId with
    | error e =>
      rw [hfound] at h
      obtain rfl := Option.some.inj h
      exact .notDeactivated scheduleId calls
    | ok found =>
      rw [hfound] at h
      cases found with
      | none =>
        obtain rfl := Option.some.inj h
        exact .notDeactivated scheduleId calls
      | some row =>
        cases hwrite : calls.save with
        | done =>
          rw [hwrite] at h
          obtain rfl := Option.some.inj h
          exact .deactivated scheduleId calls row _ hfound
            (.inr ⟨hlookup, by rw [hwrite]; rfl, rfl⟩)
        | threw stored =>
          rw [hwrite] at h
          obtain rfl := Option.some.inj h
          -- the save may have taken effect all the same
          cases stored with
          | true => exact .deactivated scheduleId calls row _ hfound (.inl rfl)
          | false => exact .notDeactivated scheduleId calls

theorem stepped_settle {q : QueueName} {e : Entry} {calls : ExecutionCalls}
    (h : step env s (.settle q e calls) = some s') : Stepped env s (.settle q e calls) s' := by
  simp only [step] at h
  split at h
  case isFalse => cases h
  case isTrue hheld =>
    split at h
    case isTrue hretry =>
      obtain rfl := Option.some.inj h
      exact .retried q e calls hheld.1 hheld.2 hretry
    case isFalse =>
      obtain rfl := Option.some.inj h
      exact .dropped q e calls hheld.1 hheld.2

/-- Every step is one of these. -/
theorem step_cases {event : Event} (h : step env s event = some s') :
    Stepped env s event s' := by
  cases event with
  | elapse d =>
    obtain rfl := Option.some.inj h
    exact .elapse d
  | createJob id dto =>
    obtain rfl := Option.some.inj h
    obtain ⟨jobs, hjobs⟩ := createJob_store env.db id dto s.store
    rw [hjobs]
    exact .createJob id dto jobs
  | save dto calls => exact stepped_save h
  | enqueue n calls => exact stepped_enqueue h
  | deactivate scheduleId calls => exact stepped_deactivate h
  | search n calls =>
    simp only [step] at h
    split at h
    case h_1 scheduleId given q rest hn =>
      obtain rfl := Option.some.inj h
      exact .searched n calls scheduleId given q rest hn
    case h_2 => cases h
  | resolve n =>
    simp only [step] at h
    split at h
    case h_1 scheduleId given hn =>
      obtain rfl := Option.some.inj h
      exact .resolved n scheduleId given hn
    case h_2 => cases h
  | fire q e stamp =>
    simp only [step] at h
    split at h
    case isFalse => cases h
    case isTrue hfires =>
      obtain rfl := Option.some.inj h
      exact .fired q e stamp { stamp with now := s.now } hfires.1 hfires.2.1 rfl hfires.2.2
  | take q e =>
    simp only [step] at h
    split at h
    case isFalse => cases h
    case isTrue hready =>
      obtain rfl := Option.some.inj h
      refine .taken q e _ hready.1 hready.2 ?_
      split
      · exact .inl rfl
      · exact .inr rfl
  | settle q e calls => exact stepped_settle h
  | stall q e =>
    simp only [step] at h
    split at h
    case isFalse => cases h
    case isTrue hheld =>
      obtain rfl := Option.some.inj h
      exact .stalled q e hheld.1 hheld.2

end Inversion

/-! ## The calls as runs -/

section Calls

variable {env : Env} {s : System}

/-- A `scheduleJob` that saves its row is two steps of the machine. -/
theorem exec_scheduleJob {dto : ScheduleJobDto} {calls : SchedulingCalls} {job : Job}
    {row : Schedule} {schedules : Keyed Schedule.id}
    (hsaved : Saved { env.rt with now := s.now } env.db calls dto s.store job row schedules)
    (hsave : calls.save = .done) (hnow : calls.stamp.now = s.now) (hrow : s.freshRow calls.id)
    (hstamp : System.freshStamp { s with store := { s.store with schedules } } calls.stamp) :
    (machine env).exec s [.save dto calls, .enqueue s.enqueuing.length calls] =
      some { s with
        store := (scheduleJob { env.rt with now := s.now } env.db calls dto s.store).1 } := by
  have hfirst : (machine env).step s (.save dto calls) =
      some { s with
        store := { s.store with schedules }
        enqueuing := s.enqueuing ++ [(job, row)] } := by
    simp [machine, step, hrow, saveSchedule_of_saved hsaved, hsave, Write.stored, Write.returned]
  -- nothing comes between the two, so the clock is where it was
  have hfresh : System.freshStamp { s with
      store := { s.store with schedules }
      enqueuing := s.enqueuing ++ [(job, row)] } { calls.stamp with now := s.now } := hstamp
  have hcalls : { calls with stamp := { calls.stamp with now := s.now } } = calls := by
    rw [← hnow]
  have hsecond : (machine env).step { s with
        store := { s.store with schedules }
        enqueuing := s.enqueuing ++ [(job, row)] } (.enqueue s.enqueuing.length calls) =
      some { s with store := { s.store with
        schedules
        queues := (addToQueue calls s.now job row s.store.queues).1 } } := by
    simp [machine, step, hcalls, hfresh, System.withQueues, List.eraseIdx_append_of_length_le]
  rw [Machine.exec_cons hfirst, Machine.exec_cons hsecond, scheduleJob_of_saveDone hsaved hsave]
  rfl

/-- The searches the loop of `removeJob` makes, for the `n`-th cancellation under
way. -/
def searches (given : Value) (calls : QueueName → RemovalCalls) (n : Nat) :
    List QueueName → Contents → List Event
  | [], _ => []
  | q :: rest, qs =>
    .search n (calls q) ::
      if (searchQueue given (calls q) q qs).2 then []
      else searches given calls n rest (searchQueue given (calls q) q qs).1

/-- By induction on the queues that are left. -/
theorem exec_searches (removing : List Removal) (scheduleId : Uuid) (given : Value)
    (calls : QueueName → RemovalCalls) (left : List QueueName) :
    (machine env).exec { s with removing := removing ++ [⟨scheduleId, given, left⟩] }
        (searches given calls removing.length left s.store.queues) =
      some { s.withQueues (removeJobIn given calls left s.store.queues) with
        removing := removing ++ [⟨scheduleId, given, []⟩] } := by
  induction left generalizing s with
  | nil => rfl
  | cons q rest ih =>
    cases hsearch : searchQueue given (calls q) q s.store.queues with
    | mk queues found =>
    have hstep : (machine env).step
          { s with removing := removing ++ [⟨scheduleId, given, q :: rest⟩] }
          (.search removing.length (calls q)) =
        some { s.withQueues queues with
          removing := removing ++ [⟨scheduleId, given, if found then [] else rest⟩] } := by
      simp [machine, step, hsearch, System.withQueues]
    rw [searches, removeJobIn, hsearch, Machine.exec_cons hstep]
    cases found with
    | true =>
      -- the loop is left
      rfl
    | false => exact ih (s := s.withQueues queues)

/-- A `cancelSchedule` that saves its schedule is a run: the save, the searches,
and that it resolves. -/
theorem exec_cancelSchedule {scheduleId : Value} {calls : CancellingCalls} {store : Store}
    {row : Schedule} (h : deactivate env.db calls scheduleId s.store = (store, .ok row)) :
    (machine env).exec s (.deactivate scheduleId calls ::
        (searches scheduleId calls.removal s.removing.length searchOrder store.queues ++
          [.resolve s.removing.length])) =
      some { s with
        store := (cancelSchedule env.db calls scheduleId s.store).1
        trace := .cancelled row.id :: s.trace } := by
  have hfirst : (machine env).step s (.deactivate scheduleId calls) =
      some { s with
        store
        removing := s.removing ++ [⟨row.id, scheduleId, searchOrder⟩] } := by
    simp [machine, step, h]
  have hsearches := @exec_searches env { s with store } s.removing row.id scheduleId
    calls.removal searchOrder
  rw [Machine.exec_cons hfirst, Machine.exec_append, hsearches, Option.bind_some]
  simp [Machine.exec, machine, step, System.withQueues, cancelSchedule, h, removeJob,
    List.eraseIdx_append_of_length_le]

end Calls

/-! ## A small start -/

/-- The quiet runtime, and repeatable entries that fire at any time. -/
def smallEnv : Env where
  rt := quietRuntime
  db := plainDatabase
  calendar _ _ _ := true

/-- The quiet runtime, with a parser that knows one minute past the epoch. -/
def minuteEnv : Env :=
  { smallEnv with
    rt := { quietRuntime with
      newDate := fun v => match v with
        | .str "1970-01-01T00:01:00.000Z" => .ms 60000
        | _ => .invalid } }

/-- One job and nothing scheduled. -/
def atRest : System where
  now := 0
  store := oneJob cleanupJob
  enqueuing := []
  removing := []
  trace := []

theorem initial_atRest : Initial atRest := ⟨rfl, fun _ => rfl, rfl, rfl, rfl⟩

/-- A `scheduleJob` of which nothing goes wrong. -/
def scheduling (dto : ScheduleJobDto) : List Event :=
  [.save dto (callsWith .done), .enqueue 0 (callsWith .done)]

/-- A `cancelSchedule` of which nothing goes wrong, with this many searches. -/
def cancelling (id : Uuid) (searches : Nat) : List Event :=
  .deactivate (.str id) { lookup := true, save := .done, removal := fun _ => .fine } ::
    List.replicate searches (.search 0 .fine) ++ [.resolve 0]

/-- The entry of an IMMEDIATE schedule for `cleanupJob` that is added at `now`. -/
def immediateEntry (now : Int) : Entry :=
  newEntry { (callsWith .done).stamp with now } .medium "execute-job"
    ⟨cleanupJob.id, (callsWith .done).id⟩ (jobOptions .none)

end SchedulingService.Scheduler
