import SchedulingService.Lib.Retry
import SchedulingService.Scheduler.Execution

/-!
# What becomes of a failed execution

`BaseJobProcessor.process` hands an entry to `executeJob` and lets what that
throws through. BullMQ runs an entry again exactly when the promise of its
processor rejected and the entry's `attempts` are not used up. But `executeJob`
catches what the target throws, and resolves with the record of the failure.

Main results:

* `executeJob_undisturbed` — where only the target can fail, the call resolves
  whatever the target does;
* `executionsStarted_undisturbed` — so an entry is run once;
* `retriedAsPromised_iff` — exactly when that is what was promised.
-/

namespace SchedulingService.Scheduler

open Js Queues

section Process

variable (rt : Runtime) (db : Database) (jobs : List Job) (e : Entry)

/-- `executeJob(jobId, scheduleId, correlationId)` with what the entry holds. -/
def executeEntry (calls : ExecutionCalls) : List Execution × Except Rejection Execution :=
  executeJob rt db calls jobs (.str e.data.jobId) (.str e.data.scheduleId)
    (.str ("bull-" ++ e.id))

/-- `process`: only jobs of this name are processed. -/
def process (calls : ExecutionCalls) : List Execution × Except Rejection (Option Execution) :=
  if e.name ≠ "execute-job" then ([], .ok none)
  else ((executeEntry rt db jobs e calls).1, (executeEntry rt db jobs e calls).2.map some)

/-- Its promise rejects. -/
def rejects (calls : ExecutionCalls) : Bool := !(process rt db jobs e calls).2.isOk

/-- The execution it ran ended FAILED. -/
def endsFailed (calls : ExecutionCalls) : Bool :=
  (executeEntry rt db jobs e calls).2.toOption.any fun row => row.status = .failed

/-- How often the entry is run, when the calls of run `k` come out as
`calls k`. -/
def executionsStarted (calls : Nat → ExecutionCalls) : Nat :=
  Retry.attempts (fun k => rejects rt db jobs e (calls k)) (e.opts.attempts.getD 1 - 1)

/-- A job with `maxRetries` is run up to its first success, and at most that
often again; a run that failed and may be followed by another rejects. -/
structure RetriedAsPromised (maxRetries : Int) (calls : Nat → ExecutionCalls) : Prop where
  retryable : 0 ≤ maxRetries
  started : Retry.Exhausts (fun k => endsFailed rt db jobs e (calls k)) maxRetries.toNat
    (executionsStarted rt db jobs e calls)
  rejecting : ∀ k < executionsStarted rt db jobs e calls,
    endsFailed rt db jobs e (calls k) = true → k < maxRetries →
      rejects rt db jobs e (calls k) = true

/-- Nothing but the target can go wrong: the job is there, every statement is
accepted and every call of the database returns. -/
structure Undisturbed (job : Job) (calls : ExecutionCalls) : Prop where
  named : e.name = "execute-job"
  starts : ∃ execution, Starts db calls jobs (.str e.data.jobId) (.str e.data.scheduleId)
    (.str ("bull-" ++ e.id)) job execution
  complete : calls.complete = .done
  fail : calls.fail = .done
  result : ∀ v, executeWithTimeout rt calls.target job = .resolved v →
    (nullable db.jsonb v).isSome = true
  error : ∀ v, executeWithTimeout rt calls.target job = .rejected v →
    v.isNullish = false ∧ (db.jsonb (errorData v)).isSome = true

variable {rt db jobs e}

/-- **Every outcome of the target resolves the call**: its record says how the
target ended. -/
theorem executeJob_undisturbed {job : Job} {calls : ExecutionCalls}
    (h : Undisturbed rt db jobs e job calls) :
    ∃ row, (executeEntry rt db jobs e calls).2 = .ok row ∧
      (row.status = .failed ↔ TargetFails rt calls job) := by
  obtain ⟨execution, hstarts⟩ := h.starts
  rw [executeEntry, executeJob_of_starts hstarts]
  simp only [runTarget, TargetFails]
  cases hends : executeWithTimeout rt calls.target job with
  | rejected v =>
    -- the catch block saves FAILED and returns it
    obtain ⟨hnullish, hstorable⟩ := h.error v hends
    obtain ⟨failed, hfailed⟩ : ∃ row, onFailed db calls v execution = some row :=
      exists_onFailed execution hstorable
    refine ⟨failed, ?_, iff_of_true (onFailed_spec hfailed).1 rfl⟩
    simp [handleError, hnullish, hfailed, h.fail, Write.returned]
  | resolved v =>
    obtain ⟨completed, hcompleted, -⟩ : ∃ row, onCompleted db calls v execution = some row ∧
        row.completedAt.isSome = true := exists_onCompleted execution (h.result v hends)
    have hrunning := running_of_newExecution hstarts.row
    obtain ⟨-, hstatus, -⟩ := consistent_of_onCompleted hrunning hcompleted
    refine ⟨completed, ?_, iff_of_false ?_ Bool.false_ne_true⟩
    · simp [hcompleted, h.complete]
    · rw [hstatus]
      decide

theorem rejects_undisturbed {job : Job} {calls : ExecutionCalls}
    (h : Undisturbed rt db jobs e job calls) : rejects rt db jobs e calls = false := by
  obtain ⟨row, hrow, -⟩ := executeJob_undisturbed h
  rw [rejects, process, if_neg (by simp [h.named]), hrow]
  rfl

theorem endsFailed_undisturbed {job : Job} {calls : ExecutionCalls}
    (h : Undisturbed rt db jobs e job calls) :
    endsFailed rt db jobs e calls = true ↔ TargetFails rt calls job := by
  obtain ⟨row, hrow, hstatus⟩ := executeJob_undisturbed h
  rw [endsFailed, hrow, ← hstatus]
  simp [Except.toOption]

/-- No run asks for another, whatever its `attempts` option. -/
theorem executionsStarted_undisturbed {job : Job} {calls : Nat → ExecutionCalls}
    (h : ∀ k, Undisturbed rt db jobs e job (calls k)) :
    executionsStarted rt db jobs e calls = 1 := by
  have hspec := Retry.attempts_spec (fun k => rejects rt db jobs e (calls k))
    (e.opts.attempts.getD 1 - 1)
  have hpos := hspec.pos
  -- a second run would mean that the first one rejected
  by_contra hmore
  have hasked := hspec.asked 0 (by unfold executionsStarted at hmore; omega)
  rw [rejects_undisturbed (h 0)] at hasked
  cases hasked

/-- **Retries.** A failed execution is retried as promised exactly when none was
promised, or the first execution did not fail. -/
theorem retriedAsPromised_iff {job : Job} {calls : Nat → ExecutionCalls}
    (h : ∀ k, Undisturbed rt db jobs e job (calls k)) :
    RetriedAsPromised rt db jobs e job.maxRetries calls ↔
      0 ≤ job.maxRetries ∧ (job.maxRetries = 0 ∨ ¬ TargetFails rt (calls 0) job) := by
  have hone := executionsStarted_undisturbed h
  have hfirst := endsFailed_undisturbed (h 0)
  constructor
  · intro hp
    refine ⟨hp.retryable, ?_⟩
    have hnonneg := hp.retryable
    have hstarted := hp.started
    rw [hone] at hstarted
    rcases hstarted.stop with hall | hstop
    · -- all promised runs were made, and there was one
      exact .inl (by omega)
    · refine .inr fun hfails => ?_
      rw [hfirst.mpr hfails] at hstop
      cases hstop
  · rintro ⟨hnonneg, hcase⟩
    refine ⟨hnonneg, ?_, ?_⟩
    · rw [hone]
      refine ⟨Nat.one_pos, by omega, fun k hk => by omega, ?_⟩
      rcases hcase with hzero | hfine
      · exact .inl (by omega)
      · exact .inr (by simpa using fun hfails => hfine (hfirst.mp hfails))
    · -- only the first execution is there to have failed
      intro k hk hfails hleft
      rw [hone] at hk
      obtain rfl : k = 0 := by omega
      rcases hcase with hzero | hfine
      · omega
      · exact absurd (hfirst.mp hfails) hfine

end Process

/-! ## The counterexample -/

/-- An IMMEDIATE entry for `cleanupJob`. -/
def cleanupEntry : Entry :=
  newEntry { id := "1", key := "", now := 0 } .medium "execute-job"
    { jobId := cleanupJob.id, scheduleId := "00000000-0000-4000-8000-00000000000b" }
    (jobOptions .none)

/-- Calls of which none goes wrong but that of the target, if it times out. -/
def callsOfRun (timedOut : Bool) : ExecutionCalls :=
  { completeThrows with
    complete := .done
    target := { answer := fun _ => .resolved (.obj []), timedOut } }

theorem undisturbed_callsOfRun (timedOut : Bool) :
    Undisturbed quietRuntime plainDatabase [cleanupJob] cleanupEntry cleanupJob
      (callsOfRun timedOut) where
  named := rfl
  starts := ⟨_, rfl, rfl, rfl, rfl⟩
  complete := rfl
  fail := rfl
  result v hv := by cases v <;> rfl
  error v hv := by
    cases timedOut with
    | true =>
      obtain rfl := (Outcome.rejected.inj hv).symm
      exact ⟨rfl, rfl⟩
    | false => cases hv

/-- A job with three retries whose target times out is run once. -/
theorem timed_out_job_is_not_retried :
    executionsStarted quietRuntime plainDatabase [cleanupJob] cleanupEntry
        (fun _ => callsOfRun true) = 1 ∧
      ¬ RetriedAsPromised quietRuntime plainDatabase [cleanupJob] cleanupEntry
        cleanupJob.maxRetries (fun _ => callsOfRun true) := by
  have hone := executionsStarted_undisturbed fun _ : Nat => undisturbed_callsOfRun true
  refine ⟨hone, fun h => ?_⟩
  have hrejects := h.rejecting 0 (by rw [hone]; exact Nat.one_pos)
    ((endsFailed_undisturbed (undisturbed_callsOfRun true)).mpr rfl) (by decide)
  rw [rejects_undisturbed (undisturbed_callsOfRun true)] at hrejects
  cases hrejects

/-- The same job when its target answers. -/
theorem retriedAsPromised_iff_cleanup :
    RetriedAsPromised quietRuntime plainDatabase [cleanupJob] cleanupEntry
        cleanupJob.maxRetries (fun _ => callsOfRun false) ↔
      0 ≤ cleanupJob.maxRetries ∧ (cleanupJob.maxRetries = 0 ∨
        ¬ TargetFails quietRuntime (callsOfRun false) cleanupJob) :=
  retriedAsPromised_iff fun _ => undisturbed_callsOfRun false

end SchedulingService.Scheduler
