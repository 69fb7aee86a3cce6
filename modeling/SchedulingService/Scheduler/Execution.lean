import SchedulingService.Scheduler.Service
import SchedulingService.Scheduler.Targets

/-!
# `executeJob` and the records it leaves

An execution is one entity that is saved up to three times: RUNNING before the
target is called, COMPLETED after it answered, FAILED from the catch block. The
catch block also covers the save of COMPLETED, and writes over the entity as
the try block left it.

`executeJob` returns the versions of the record that were stored, in order,
next to what the call settles with.

Main results:

* `executeJob_of_starts`, `mem_executeJob_of_not_starts` — the ways a call goes;
* `records_consistent_iff` — exactly when no stored record contradicts itself
  or the target.
-/

namespace SchedulingService.Scheduler

open Js Queues

/-- What `executeJob` rejects with. -/
inductive Rejection
  | notFound (message : String)
  /-- A call threw, or the code did. -/
  | threw (error : Value)

/-- How the calls that `executeJob` awaits come out, and what it takes from its
surroundings. -/
structure ExecutionCalls where
  lookup : Bool
  /-- The save of RUNNING. -/
  create : Write
  target : Target
  /-- The save of COMPLETED. -/
  complete : Write
  /-- The save of FAILED. -/
  fail : Write
  /-- What a call of the database throws. -/
  dbError : Value
  executionId : Uuid
  /-- The correlation id that is generated when none is given. -/
  correlationId : Uuid
  /-- `Date.now()` at the start, `new Date()` for the record, and `Date.now()`
  once the target has settled. -/
  startTime : Int
  startedAt : Int
  settledAt : Int

/-! ## The record's three versions -/

/-- The row of a new execution. -/
def newExecution (db : Database) (calls : ExecutionCalls)
    (jobId scheduleId correlationId : Value) : Option Execution := do
  let jobId ← notNull none db.readUuid jobId
  let scheduleId ← nullable db.readUuid (truthyOr scheduleId .null)
  let correlationId ←
    nullable (readVarchar 100) (truthyOr correlationId (.str calls.correlationId))
  some {
    id := calls.executionId
    jobId
    scheduleId
    status := .running
    startedAt := calls.startedAt
    completedAt := none
    failedAt := none
    attemptNumber := 1
    resultData := none
    errorData := none
    durationMs := none
    correlationId }

/-- The row after the success path was saved over `execution`. -/
def onCompleted (db : Database) (calls : ExecutionCalls) (result : Value)
    (execution : Execution) : Option Execution := do
  let resultData ← nullable db.jsonb result
  some { execution with
    status := .completed
    completedAt := some calls.settledAt
    resultData
    durationMs := some (calls.settledAt - calls.startTime) }

/-- `{ error: error.message, code: error.code ?? null }`. -/
def errorData (error : Value) : Value :=
  .obj [("error", error.get "message"), ("code", (error.get "code").orElse .null)]

/-- The row after the catch block was saved over `execution`, which keeps what
else the entity has by then. -/
def onFailed (db : Database) (calls : ExecutionCalls) (error : Value)
    (execution : Execution) : Option Execution := do
  let errorData ← db.jsonb (errorData error)
  some { execution with
    status := .failed
    failedAt := some calls.settledAt
    errorData := some errorData
    durationMs := some (calls.settledAt - calls.startTime) }

/-! ## The call -/

/-- The catch block. The entity is `none` when it has a result that no column
takes, which is in this save's statement too. -/
def handleError (db : Database) (calls : ExecutionCalls) (error : Value)
    (execution : Option Execution) : List Execution × Except Rejection Execution :=
  -- reading `message` of these throws, before the save
  if error.isNullish then ([], .error (.threw (errorObject "Cannot read properties")))
  else match execution.bind (onFailed db calls error) with
    | none => ([], .error (.threw calls.dbError))
    | some failed =>
      (if calls.fail.stored then [failed] else [],
        if calls.fail.returned then .ok failed else .error (.threw calls.dbError))

/-- The call from the target on. -/
def runTarget (rt : Runtime) (db : Database) (calls : ExecutionCalls) (job : Job)
    (execution : Execution) : List Execution × Except Rejection Execution :=
  match executeWithTimeout rt calls.target job with
  | .rejected error => handleError db calls error (some execution)
  | .resolved result =>
    match onCompleted db calls result execution with
    | none => handleError db calls calls.dbError none
    | some completed =>
      match calls.complete with
      | .done => ([completed], .ok completed)
      -- the entity goes into the catch block as it is
      | .threw stored =>
        let (records, settled) := handleError db calls calls.dbError (some completed)
        (if stored then completed :: records else records, settled)

/-- `executeJob`: the stored versions of the record, and what it settles
with. -/
def executeJob (rt : Runtime) (db : Database) (calls : ExecutionCalls) (jobs : List Job)
    (jobId scheduleId correlationId : Value) : List Execution × Except Rejection Execution :=
  if !calls.lookup then ([], .error (.threw calls.dbError))
  else match findOneById db Job.id jobs jobId with
    | .error () => ([], .error (.threw calls.dbError))
    | .ok none => ([], .error (.notFound ("Job with ID " ++ idText jobId ++ " not found")))
    | .ok (some job) =>
      match newExecution db calls jobId scheduleId correlationId with
      | none => ([], .error (.threw calls.dbError))
      | some execution =>
        if !calls.create.returned then
          (if calls.create.stored then [execution] else [], .error (.threw calls.dbError))
        else
          let (records, settled) := runTarget rt db calls job execution
          (execution :: records, settled)

/-! ## The versions one by one -/

/-- What is set agrees with the status. -/
structure Consistent (e : Execution) : Prop where
  running : e.status = .running →
    e.completedAt = none ∧ e.failedAt = none ∧ e.resultData = none ∧ e.errorData = none
  completed : e.status = .completed →
    e.completedAt.isSome = true ∧ e.failedAt = none ∧ e.errorData = none
  failed : e.status = .failed →
    e.failedAt.isSome = true ∧ e.errorData.isSome = true ∧ e.completedAt = none ∧
      e.resultData = none

/-- A record of an execution that has not ended. -/
structure Running (e : Execution) : Prop where
  status : e.status = .running
  completedAt : e.completedAt = none
  failedAt : e.failedAt = none
  resultData : e.resultData = none
  errorData : e.errorData = none

section Versions

variable {db : Database} {calls : ExecutionCalls}

theorem running_of_newExecution {jobId scheduleId correlationId : Value} {e : Execution}
    (h : newExecution db calls jobId scheduleId correlationId = some e) : Running e := by
  simp only [newExecution, Option.bind_eq_bind, Option.bind_eq_some_iff, Option.some.injEq] at h
  obtain ⟨jobId, -, scheduleId, -, correlationId, -, rfl⟩ := h
  exact ⟨rfl, rfl, rfl, rfl, rfl⟩

theorem Running.consistent {e : Execution} (h : Running e) : Consistent e where
  running _ := ⟨h.completedAt, h.failedAt, h.resultData, h.errorData⟩
  completed hs := by rw [h.status] at hs; cases hs
  failed hs := by rw [h.status] at hs; cases hs

/-- The success path fills a running record in. -/
theorem consistent_of_onCompleted {result : Value} {e e' : Execution} (he : Running e)
    (h : onCompleted db calls result e = some e') :
    Consistent e' ∧ e'.status = .completed ∧ e'.completedAt.isSome = true := by
  simp only [onCompleted, Option.bind_eq_bind, Option.bind_eq_some_iff, Option.some.injEq] at h
  obtain ⟨resultData, -, rfl⟩ := h
  refine ⟨⟨fun hs => ?_, fun _ => ⟨rfl, he.failedAt, he.errorData⟩, fun hs => ?_⟩, rfl, rfl⟩
  · cases hs
  · cases hs

/-- The catch block leaves what the try block has set. -/
theorem onFailed_spec {error : Value} {e e' : Execution}
    (h : onFailed db calls error e = some e') :
    e'.status = .failed ∧ e'.failedAt.isSome = true ∧ e'.errorData.isSome = true ∧
      e'.completedAt = e.completedAt ∧ e'.resultData = e.resultData := by
  simp only [onFailed, Option.bind_eq_bind, Option.bind_eq_some_iff, Option.some.injEq] at h
  obtain ⟨errorData, -, rfl⟩ := h
  exact ⟨rfl, rfl, rfl, rfl, rfl⟩

/-- On a running record it is a consistent failure. -/
theorem consistent_of_onFailed {error : Value} {e e' : Execution} (he : Running e)
    (h : onFailed db calls error e = some e') : Consistent e' := by
  obtain ⟨hstatus, hfailed, herror, hcompleted, hresult⟩ := onFailed_spec h
  refine ⟨fun hs => ?_, fun hs => ?_, fun _ => ?_⟩
  · rw [hstatus] at hs
    cases hs
  · rw [hstatus] at hs
    cases hs
  · exact ⟨hfailed, herror, hcompleted.trans he.completedAt, hresult.trans he.resultData⟩

/-- On a completed one it is a contradiction. -/
theorem not_consistent_of_onFailed {error : Value} {e e' : Execution}
    (he : e.completedAt.isSome = true) (h : onFailed db calls error e = some e') :
    ¬ Consistent e' := by
  intro hc
  obtain ⟨hstatus, -, -, hcompleted, -⟩ := onFailed_spec h
  obtain ⟨-, -, hnone, -⟩ := hc.failed hstatus
  rw [← hcompleted, hnone] at he
  cases he

/-- Neither statement is refused when its document is not. -/
theorem exists_onCompleted (e : Execution) {result : Value}
    (h : (nullable db.jsonb result).isSome = true) :
    ∃ e', onCompleted db calls result e = some e' ∧ e'.completedAt.isSome = true := by
  obtain ⟨resultData, hresult⟩ := Option.isSome_iff_exists.mp h
  simp [onCompleted, hresult]

theorem exists_onFailed (e : Execution) {error : Value}
    (h : (db.jsonb (errorData error)).isSome = true) :
    ∃ e', onFailed db calls error e = some e' := by
  obtain ⟨document, hdocument⟩ := Option.isSome_iff_exists.mp h
  simp [onFailed, hdocument]

/-- What the catch block stores, if it stores anything. -/
theorem mem_handleError {error : Value} {e : Option Execution} {row : Execution} :
    row ∈ (handleError db calls error e).1 ↔
      error.isNullish = false ∧ calls.fail.stored = true ∧
        e.bind (onFailed db calls error) = some row := by
  unfold handleError
  cases hnullish : error.isNullish with
  | true => simp
  | false =>
    cases hrow : e.bind (onFailed db calls error) with
    | none => simp
    | some failed =>
      cases hstored : calls.fail.stored with
      | true =>
        simp only [Bool.false_eq_true, if_false, if_true, List.mem_singleton, true_and,
          Option.some.injEq]
        exact eq_comm
      | false => simp

end Versions

/-! ## The records of a call -/

section Records

variable (rt : Runtime) (db : Database) (calls : ExecutionCalls) (jobs : List Job)
  (jobId scheduleId correlationId : Value)

/-- The execution of `job` is recorded as RUNNING, and goes on. -/
structure Starts (job : Job) (execution : Execution) : Prop where
  lookup : calls.lookup = true
  found : findOneById db Job.id jobs jobId = .ok (some job)
  row : newExecution db calls jobId scheduleId correlationId = some execution
  created : calls.create.returned = true

/-- The target call itself fails or times out. -/
def TargetFails (job : Job) : Prop := (executeWithTimeout rt calls.target job).isRejected = true

/-- The target call succeeds, the save of COMPLETED throws, and the save of
FAILED takes effect. -/
structure FailsLate (job : Job) : Prop where
  succeeded : ∃ result, executeWithTimeout rt calls.target job = .resolved result ∧
    (nullable db.jsonb result).isSome = true
  completeThrew : calls.complete.returned = false
  caught : calls.dbError.isNullish = false ∧ (db.jsonb (errorData calls.dbError)).isSome = true
  failStored : calls.fail.stored = true

/-- A record agrees with itself, and is FAILED only if the target failed. -/
structure Sound (row : Execution) : Prop where
  consistent : Consistent row
  truthful : row.status = .failed →
    ∃ job, findOneById db Job.id jobs jobId = .ok (some job) ∧ TargetFails rt calls job

variable {rt db calls jobs jobId scheduleId correlationId}

theorem executeJob_of_starts {job : Job} {execution : Execution}
    (h : Starts db calls jobs jobId scheduleId correlationId job execution) :
    executeJob rt db calls jobs jobId scheduleId correlationId =
      (execution :: (runTarget rt db calls job execution).1,
        (runTarget rt db calls job execution).2) := by
  simp [executeJob, h.lookup, h.found, h.row, h.created]

/-- A call that does not get to the target leaves at most the new record. -/
theorem mem_executeJob_of_not_starts {row : Execution}
    (h : ¬ ∃ job execution, Starts db calls jobs jobId scheduleId correlationId job execution)
    (hrow : row ∈ (executeJob rt db calls jobs jobId scheduleId correlationId).1) :
    newExecution db calls jobId scheduleId correlationId = some row := by
  unfold executeJob at hrow
  cases hlookup : calls.lookup with
  | false => simp [hlookup] at hrow
  | true =>
    cases hfound : findOneById db Job.id jobs jobId with
    | error e => simp [hlookup, hfound] at hrow
    | ok found =>
      cases found with
      | none => simp [hlookup, hfound] at hrow
      | some job =>
        cases hnew : newExecution db calls jobId scheduleId correlationId with
        | none => simp [hlookup, hfound, hnew] at hrow
        | some execution =>
          cases hcreated : calls.create.returned with
          | true => exact absurd ⟨job, execution, hlookup, hfound, hnew, hcreated⟩ h
          | false =>
            -- the save of RUNNING threw, and may have taken effect
            cases hstored : calls.create.stored with
            | false => simp [hlookup, hfound, hnew, hcreated, hstored] at hrow
            | true =>
              simp only [hlookup, hfound, hnew, hcreated, hstored, Bool.not_true,
                Bool.false_eq_true, if_false, Bool.not_false, if_true, List.mem_singleton] at hrow
              rw [hrow]

theorem Running.sound {row : Execution} (h : Running row) :
    Sound rt db calls jobs jobId row where
  consistent := h.consistent
  truthful hs := by rw [h.status] at hs; cases hs

/-- When the target fails, what is stored after RUNNING says so. -/
theorem sound_of_targetFails {job : Job} {execution : Execution}
    (h : Starts db calls jobs jobId scheduleId correlationId job execution) {error : Value}
    (hfails : executeWithTimeout rt calls.target job = .rejected error) {row : Execution}
    (hrow : row ∈ (runTarget rt db calls job execution).1) :
    Sound rt db calls jobs jobId row := by
  unfold runTarget at hrow
  rw [hfails] at hrow
  obtain ⟨-, -, hfailed⟩ := mem_handleError.mp hrow
  have hrunning := running_of_newExecution h.row
  exact ⟨consistent_of_onFailed hrunning hfailed, fun _ => ⟨job, h.found, by
    rw [TargetFails, hfails]; rfl⟩⟩

theorem mem_runTarget_of_resolved {job : Job} {execution : Execution} {result : Value}
    (hresolved : executeWithTimeout rt calls.target job = .resolved result) {row : Execution} :
    row ∈ (runTarget rt db calls job execution).1 ↔
      ∃ completed, onCompleted db calls result execution = some completed ∧
        (calls.complete.stored = true ∧ row = completed ∨
          calls.complete.returned = false ∧
            row ∈ (handleError db calls calls.dbError (some completed)).1) := by
  unfold runTarget
  rw [hresolved]
  cases hcompleted : onCompleted db calls result execution with
  | none =>
    -- the result is in the second statement as it was in the first
    simp only [hcompleted, mem_handleError, Option.bind_none, reduceCtorEq, and_false, false_and,
      exists_false]
  | some completed =>
    cases hcomplete : calls.complete with
    | done => simp [hcompleted, Write.stored, Write.returned]
    | threw stored => cases stored <;> simp [hcompleted, Write.stored, Write.returned]

/-- The record that a late failure leaves contradicts itself. -/
theorem not_sound_of_failsLate {job : Job} (execution : Execution)
    (h : FailsLate rt db calls job) :
    ∃ row ∈ (runTarget rt db calls job execution).1, ¬ Consistent row := by
  obtain ⟨result, hresolved, hstorable⟩ := h.succeeded
  -- both statements are accepted, one after the other
  obtain ⟨completed, hcompleted, hset⟩ :=
    exists_onCompleted execution hstorable
  obtain ⟨failed, hfailed⟩ := exists_onFailed completed h.caught.2
  refine ⟨failed, ?_, not_consistent_of_onFailed hset hfailed⟩
  rw [mem_runTarget_of_resolved hresolved]
  exact ⟨completed, hcompleted, .inr ⟨h.completeThrew,
    mem_handleError.mpr ⟨h.caught.1, h.failStored, hfailed⟩⟩⟩

/-- Without one, a target that succeeded leaves no record of a failure. -/
theorem sound_of_resolved {job : Job} {execution : Execution}
    (h : Starts db calls jobs jobId scheduleId correlationId job execution) {result : Value}
    (hresolved : executeWithTimeout rt calls.target job = .resolved result)
    (hlate : ¬ FailsLate rt db calls job) {row : Execution}
    (hrow : row ∈ (runTarget rt db calls job execution).1) :
    Sound rt db calls jobs jobId row := by
  obtain ⟨completed, hcompleted, hcase⟩ := (mem_runTarget_of_resolved hresolved).mp hrow
  rcases hcase with ⟨-, rfl⟩ | ⟨hthrew, hfailed⟩
  · obtain ⟨hconsistent, hstatus, -⟩ :=
      consistent_of_onCompleted (running_of_newExecution h.row) hcompleted
    refine ⟨hconsistent, fun hs => ?_⟩
    rw [hstatus] at hs
    cases hs
  · -- the save of COMPLETED threw, so a record of the catch block is a late failure
    obtain ⟨hnullish, hstored, hbind⟩ := mem_handleError.mp hfailed
    simp only [onCompleted, Option.bind_eq_bind, Option.bind_eq_some_iff] at hcompleted
    obtain ⟨resultData, hresult, -⟩ := hcompleted
    simp only [Option.bind_some, onFailed, Option.bind_eq_bind, Option.bind_eq_some_iff] at hbind
    obtain ⟨document, hdocument, -⟩ := hbind
    exact absurd
      ⟨⟨result, hresolved, by rw [hresult]; rfl⟩, hthrew, ⟨hnullish, by rw [hdocument]; rfl⟩,
        hstored⟩ hlate

/-- **Execution records.** Every stored version of a call's record agrees with
itself and with the target, unless the target succeeded, the save of COMPLETED
threw and the save of FAILED took effect. -/
theorem records_consistent_iff :
    (∀ row ∈ (executeJob rt db calls jobs jobId scheduleId correlationId).1,
        Sound rt db calls jobs jobId row) ↔
      ¬ ∃ job execution, Starts db calls jobs jobId scheduleId correlationId job execution ∧
        FailsLate rt db calls job := by
  constructor
  · rintro hall ⟨job, execution, hstarts, hlate⟩
    obtain ⟨row, hrow, hnot⟩ := not_sound_of_failsLate execution hlate
    rw [executeJob_of_starts hstarts] at hall
    exact hnot (hall row (List.mem_cons_of_mem _ hrow)).consistent
  · intro hnone row hrow
    by_cases hstarts : ∃ job execution,
        Starts db calls jobs jobId scheduleId correlationId job execution
    · obtain ⟨job, execution, hstarts⟩ := hstarts
      rw [executeJob_of_starts hstarts] at hrow
      rcases List.mem_cons.mp hrow with rfl | hrow
      · exact (running_of_newExecution hstarts.row).sound
      · cases hends : executeWithTimeout rt calls.target job with
        | rejected error => exact sound_of_targetFails hstarts hends hrow
        | resolved result =>
          exact sound_of_resolved hstarts hends
            (fun hlate => hnone ⟨job, execution, hstarts, hlate⟩) hrow
    · exact (running_of_newExecution (mem_executeJob_of_not_starts hstarts hrow)).sound

end Records

/-- The calls of an execution whose target answers `{}` and in which the first
save of the outcome throws. -/
def completeThrows : ExecutionCalls where
  lookup := true
  create := .done
  target := { answer := fun _ => .resolved (.obj []), timedOut := false }
  complete := .threw false
  fail := .done
  dbError := errorObject "Connection terminated unexpectedly"
  executionId := "00000000-0000-4000-8000-00000000000e"
  correlationId := "00000000-0000-4000-8000-00000000000c"
  startTime := 0
  startedAt := 0
  settledAt := 40

/-- The target answered, and its record is FAILED with a result and both end
times. -/
theorem answered_job_is_recorded_failed :
    ¬ ∀ row ∈ (executeJob quietRuntime plainDatabase completeThrows [cleanupJob]
        (.str cleanupJob.id) .undefined .undefined).1,
      Sound quietRuntime plainDatabase completeThrows [cleanupJob] (.str cleanupJob.id) row := by
  intro h
  have hlast := (h _ (List.mem_cons_of_mem _ (List.mem_singleton.mpr rfl))).consistent
  obtain ⟨-, -, hcompletedAt, -⟩ := hlast.failed rfl
  cases hcompletedAt

end SchedulingService.Scheduler
