import Mathlib.Algebra.Order.Field.Basic
import Mathlib.Data.Rat.Floor
import Mathlib.Tactic.Linarith
import SchedulingService.Js.Arithmetic
import SchedulingService.Queues.Queue

/-!
# The health of the queues

`queueHealthIndicator` adds up what `getQueueStats` counts in the three queues and
reports them healthy if enough of it is not failed jobs. One of the counts is no
count of jobs: `paused` is 1 for a paused queue.

Main result: `queueHealth_true_iff` — when the report is about the jobs alone, and
stays what it is however queues are paused and resumed.
-/

namespace SchedulingService.Monitoring

open Js Queues

/-! ## `QueueService` -/

/-- What a queue lists by state, and whether it is paused. `getWaiting` lists the
waiting jobs of a paused queue as well. -/
structure QueueContents (ι : Type*) where
  waiting : List ι
  active : List ι
  completed : List ι
  failed : List ι
  delayed : List ι
  isPaused : Bool

structure Counts where
  waiting : Nat
  active : Nat
  completed : Nat
  failed : Nat
  delayed : Nat
  paused : Nat
  deriving DecidableEq

/-- `Object.values(counts)`. -/
def Counts.values (counts : Counts) : List Nat :=
  [counts.waiting, counts.active, counts.completed, counts.failed, counts.delayed,
    counts.paused]

/-- The first jobs of a queue, by state. -/
structure Preview (ι : Type*) where
  waiting : List ι
  active : List ι
  failed : List ι

structure QueueStats (ι : Type*) where
  queueName : String
  counts : Counts
  jobs : Preview ι

section Stats

variable {ι : Type*}

def getQueueStats (queueName : QueueName) (queue : QueueContents ι) : QueueStats ι where
  queueName := queueName.text
  counts :=
    { waiting := queue.waiting.length
      active := queue.active.length
      completed := queue.completed.length
      failed := queue.failed.length
      delayed := queue.delayed.length
      paused := if queue.isPaused then 1 else 0 }
  jobs :=
    { waiting := queue.waiting.take 10
      active := queue.active.take 10
      failed := queue.failed.take 10 }

/-- The queues as the calls on them return them, or what one of these throws. -/
abbrev Reads (ι : Type*) := Except Value (QueueName → QueueContents ι)

def getAllQueueStats (reads : Reads ι) : Except Value (List (QueueStats ι)) :=
  reads.map fun queues => [.high, .medium, .low].map fun name => getQueueStats name (queues name)

/-- BullMQ's `pause` and `resume`; the getters list the same jobs as before. -/
def setPaused (paused : Bool) (queueName : QueueName) (queues : QueueName → QueueContents ι) :
    QueueName → QueueContents ι :=
  Function.update queues queueName { queues queueName with isPaused := paused }

def pauseQueue (queueName : QueueName) (queues : QueueName → QueueContents ι) :
    QueueName → QueueContents ι :=
  setPaused true queueName queues

def resumeQueue (queueName : QueueName) (queues : QueueName → QueueContents ι) :
    QueueName → QueueContents ι :=
  setPaused false queueName queues

/-- A call of one of the two. -/
inductive Switch
  | pause (queueName : QueueName)
  | resume (queueName : QueueName)

def Switch.apply (queues : QueueName → QueueContents ι) : Switch → QueueName → QueueContents ι
  | .pause queueName => pauseQueue queueName queues
  | .resume queueName => resumeQueue queueName queues

end Stats

/-! ## `CustomHealthService` -/

inductive HealthIndicatorStatus
  | up
  | down
  deriving DecidableEq

/-- What is reported beside the status. -/
inductive HealthData
  | queues (message : String) (totalJobs failedJobs : Nat) (successRate : String)
      (queues : List (String × Counts))
  | error (message : String) (error : Value)

structure HealthIndicatorResult where
  key : String
  status : HealthIndicatorStatus
  data : HealthData

/-- Terminus' `getStatus`. -/
def getStatus (key : String) (isHealthy : Bool) (data : HealthData) : HealthIndicatorResult where
  key := key
  status := if isHealthy then .up else .down
  data := data

/-- `x.toFixed(2)` for `0 ≤ x`; a half is rounded up. -/
def toFixed2 (x : ℚ) : String :=
  let hundredths := (x * 100 + 1 / 2).floor.toNat
  toString (hundredths / 100) ++ "." ++
    String.ofList ((Nat.toDigits 10 (hundredths % 100)).leftpad 2 '0')

/-- `(ratio * 100).toFixed(2)`, of the double that the product is. -/
def percentText (ratio : ℚ) : String :=
  match Arithmetic.doubles.mul (Number.nearest ratio) 100 with
  | .fin percent => toFixed2 percent
  | .inf negative => if negative then "-Infinity" else "Infinity"
  | .nan => "NaN"

/-- The double is a little less than 60.625. -/
example : percentText (97 / 160) = "60.62" := by decide +kernel

def healthRatio (totalJobs failedJobs : Nat) : ℚ :=
  if totalJobs > 0 then ((totalJobs : ℚ) - failedJobs) / totalJobs else 1

section Health

variable {ι : Type*}

/-- The report about the statistics. -/
def queueReport (queueStats : List (QueueStats ι)) : HealthIndicatorResult :=
  let totalJobs := queueStats.foldl (fun sum queue => sum + queue.counts.values.foldl (· + ·) 0) 0
  let failedJobs := queueStats.foldl (fun sum queue => sum + queue.counts.failed) 0
  let ratio := healthRatio totalJobs failedJobs
  let isHealthy := decide (ratio ≥ 95 / 100)
  getStatus "queues" isHealthy
    (.queues (if isHealthy then "Queues are healthy" else "Queue health degraded") totalJobs
      failedJobs (percentText ratio ++ "%")
      (queueStats.map fun q => (q.queueName, q.counts)))

/-- `none` is a TypeError: the handler reads `error.message`. -/
def queueHealthIndicator (reads : Reads ι) : Option HealthIndicatorResult :=
  match getAllQueueStats reads with
  | .ok queueStats => some (queueReport queueStats)
  | .error error =>
    if error.isNullish then none
    else some (getStatus "queues" false
      (.error "Queue health check failed" (error.get "message")))

/-! ## What is reported -/

/-- Over the three queues. -/
def overQueues (f : QueueName → Nat) : Nat := f .high + f .medium + f .low

/-- The waiting, active, completed, failed and delayed jobs. -/
def QueueContents.size (queue : QueueContents ι) : Nat :=
  queue.waiting.length + queue.active.length + queue.completed.length + queue.failed.length +
    queue.delayed.length

def jobCount (queues : QueueName → QueueContents ι) : Nat :=
  overQueues fun q => (queues q).size

def failedCount (queues : QueueName → QueueContents ι) : Nat :=
  overQueues fun q => (queues q).failed.length

def pausedCount (queues : QueueName → QueueContents ι) : Nat :=
  overQueues fun q => if (queues q).isPaused then 1 else 0

/-- At least 95 percent have not failed, if there are any. -/
def Succeeding (jobs failed : Nat) : Prop :=
  jobs = 0 ∨ 95 / 100 * (jobs : ℚ) ≤ (jobs : ℚ) - failed

/-- `totalJobs` of a report that has it. -/
def HealthIndicatorResult.totalJobs (result : HealthIndicatorResult) : Option Nat :=
  match result.data with
  | .queues _ totalJobs _ _ _ => some totalJobs
  | .error _ _ => none

/-- The total that is reported of the queues. -/
def reportedTotal (queues : QueueName → QueueContents ι) : Option Nat :=
  (queueHealthIndicator (.ok queues)).bind HealthIndicatorResult.totalJobs

/-- The queues are reported healthy. -/
def ReportedHealthy (queues : QueueName → QueueContents ι) : Prop :=
  (queueHealthIndicator (.ok queues)).map HealthIndicatorResult.status = some .up

/-! ## What the report says -/

/-- The statistics of the three queues. -/
abbrev statsOf (queues : QueueName → QueueContents ι) : List (QueueStats ι) :=
  [.high, .medium, .low].map fun name => getQueueStats name (queues name)

theorem values_sum (name : QueueName) (queue : QueueContents ι) :
    (getQueueStats name queue).counts.values.foldl (· + ·) 0 =
      queue.size + if queue.isPaused then 1 else 0 := by
  simp only [getQueueStats, Counts.values, QueueContents.size, List.foldl_cons, List.foldl_nil,
    Nat.zero_add]

theorem totalJobs_eq (queues : QueueName → QueueContents ι) :
    (statsOf queues).foldl (fun sum queue => sum + queue.counts.values.foldl (· + ·) 0) 0 =
      jobCount queues + pausedCount queues := by
  simp only [List.map_cons, List.map_nil, List.foldl_cons, List.foldl_nil, values_sum, jobCount,
    pausedCount, overQueues]
  omega

theorem failedJobs_eq (queues : QueueName → QueueContents ι) :
    (statsOf queues).foldl (fun sum queue => sum + queue.counts.failed) 0 =
      failedCount queues := by
  simp only [List.map_cons, List.map_nil, List.foldl_cons, List.foldl_nil, getQueueStats,
    failedCount, overQueues, Nat.zero_add]

theorem reportedTotal_eq (queues : QueueName → QueueContents ι) :
    reportedTotal queues = some (jobCount queues + pausedCount queues) := by
  rw [← totalJobs_eq]
  rfl

theorem failedCount_le (queues : QueueName → QueueContents ι) :
    failedCount queues ≤ jobCount queues := by
  simp only [failedCount, jobCount, overQueues, QueueContents.size]
  omega

/-- The threshold in whole numbers. -/
theorem threshold_iff {jobs failed : Nat} :
    95 / 100 * (jobs : ℚ) ≤ (jobs : ℚ) - failed ↔ 20 * failed ≤ jobs := by
  rw [← Nat.cast_le (α := ℚ)]
  push_cast
  constructor
  · intro hle
    linarith
  · intro hle
    linarith

theorem healthRatio_ge_iff {totalJobs failedJobs : Nat} (h : failedJobs ≤ totalJobs) :
    healthRatio totalJobs failedJobs ≥ 95 / 100 ↔ 20 * failedJobs ≤ totalJobs := by
  unfold healthRatio
  split
  case isTrue hpos =>
    have hpos' : (0 : ℚ) < totalJobs := by exact_mod_cast hpos
    rw [ge_iff_le, le_div_iff₀ hpos', threshold_iff]
  case isFalse hzero =>
    -- no jobs and so no failed ones: the ratio is 1
    have hfailed : failedJobs = 0 := by omega
    subst hfailed
    norm_num

theorem succeeding_iff {jobs failed : Nat} (h : failed ≤ jobs) :
    Succeeding jobs failed ↔ 20 * failed ≤ jobs := by
  unfold Succeeding
  rw [threshold_iff]
  omega

/-- **The verdict.** A paused queue is one more job, and not a failed one. -/
theorem reportedHealthy_iff (queues : QueueName → QueueContents ι) :
    ReportedHealthy queues ↔ 20 * failedCount queues ≤ jobCount queues + pausedCount queues := by
  have hstatus : (queueHealthIndicator (.ok queues)).map HealthIndicatorResult.status =
      some (if decide (healthRatio (jobCount queues + pausedCount queues) (failedCount queues) ≥
        95 / 100) then .up else .down) := by
    rw [← totalJobs_eq, ← failedJobs_eq]
    rfl
  have hfailed : failedCount queues ≤ jobCount queues + pausedCount queues :=
    (failedCount_le queues).trans (Nat.le_add_right _ _)
  rw [ReportedHealthy, hstatus, ← healthRatio_ge_iff hfailed, Option.some.injEq]
  split
  case isTrue hup => exact iff_of_true rfl (of_decide_eq_true hup)
  case isFalse hdown => exact iff_of_false (by decide) (fun h => hdown (decide_eq_true h))

/-- The verdict is wrong exactly where the paused queues make up for what the jobs lack
of the threshold. -/
theorem verdict_right_iff (queues : QueueName → QueueContents ι) :
    (ReportedHealthy queues ↔ Succeeding (jobCount queues) (failedCount queues)) ↔
      ¬ (jobCount queues < 20 * failedCount queues ∧
        20 * failedCount queues ≤ jobCount queues + pausedCount queues) := by
  rw [reportedHealthy_iff, succeeding_iff (failedCount_le queues)]
  omega

/-! ## Pausing and resuming -/

theorem pausedCount_le (queues : QueueName → QueueContents ι) : pausedCount queues ≤ 3 := by
  have hone : ∀ q, (if (queues q).isPaused then 1 else 0) ≤ 1 := by
    intro q
    split <;> omega
  have hhigh := hone .high
  have hmedium := hone .medium
  have hlow := hone .low
  simp only [pausedCount, overQueues]
  omega

theorem pausedCount_eq_zero_iff {queues : QueueName → QueueContents ι} :
    pausedCount queues = 0 ↔ ∀ q, (queues q).isPaused = false := by
  constructor
  · intro h q
    simp only [pausedCount, overQueues, Nat.add_eq_zero_iff, ite_eq_right_iff, one_ne_zero,
      imp_false, Bool.not_eq_true] at h
    obtain ⟨⟨hhigh, hmedium⟩, hlow⟩ := h
    cases q with
    | high => exact hhigh
    | medium => exact hmedium
    | low => exact hlow
  · intro h
    simp [pausedCount, overQueues, h]

/-- What does not look at the flag is the same over the queues. -/
theorem overQueues_setPaused {f : QueueContents ι → Nat}
    (hf : ∀ queue paused, f { queue with isPaused := paused } = f queue) (paused : Bool)
    (queueName : QueueName) (queues : QueueName → QueueContents ι) :
    (overQueues fun q => f (setPaused paused queueName queues q)) =
      overQueues fun q => f (queues q) := by
  have hsame : ∀ q, f (setPaused paused queueName queues q) = f (queues q) := by
    intro q
    unfold setPaused
    by_cases h : q = queueName
    · subst h
      rw [Function.update_self, hf]
    · rw [Function.update_of_ne h]
  simp only [hsame]

theorem overQueues_apply {f : QueueContents ι → Nat}
    (hf : ∀ queue paused, f { queue with isPaused := paused } = f queue)
    (queues : QueueName → QueueContents ι) (s : Switch) :
    (overQueues fun q => f (Switch.apply queues s q)) = overQueues fun q => f (queues q) := by
  cases s with
  | pause queueName => exact overQueues_setPaused hf true queueName queues
  | resume queueName => exact overQueues_setPaused hf false queueName queues

theorem counts_foldl (queues : QueueName → QueueContents ι) (switches : List Switch) :
    jobCount (switches.foldl Switch.apply queues) = jobCount queues ∧
      failedCount (switches.foldl Switch.apply queues) = failedCount queues := by
  induction switches generalizing queues with
  | nil => exact ⟨rfl, rfl⟩
  | cons s switches ih =>
    obtain ⟨hjobs, hfailed⟩ := ih (Switch.apply queues s)
    have hjobs' : jobCount (Switch.apply queues s) = jobCount queues :=
      overQueues_apply (f := QueueContents.size) (fun _ _ => rfl) queues s
    have hfailed' : failedCount (Switch.apply queues s) = failedCount queues :=
      overQueues_apply (f := fun queue => queue.failed.length) (fun _ _ => rfl) queues s
    exact ⟨hjobs.trans hjobs', hfailed.trans hfailed'⟩

/-- However the queues are paused and resumed, the verdict is the same, exactly if
three more jobs would not make the difference. -/
theorem verdict_stable_iff {queues : QueueName → QueueContents ι} (h : pausedCount queues = 0) :
    (∀ switches : List Switch,
        (ReportedHealthy (switches.foldl Switch.apply queues) ↔ ReportedHealthy queues)) ↔
      ¬ (jobCount queues < 20 * failedCount queues ∧
        20 * failedCount queues ≤ jobCount queues + 3) := by
  constructor
  · rintro hstable ⟨hlow, hhigh⟩
    -- with all three paused, three jobs are added
    have hall := hstable [.pause .high, .pause .medium, .pause .low]
    obtain ⟨hjobs, hfailed⟩ := counts_foldl queues [.pause .high, .pause .medium, .pause .low]
    have hthree : pausedCount (List.foldl Switch.apply queues
        [.pause .high, .pause .medium, .pause .low]) = 3 := by
      simp [pausedCount, overQueues, Switch.apply, pauseQueue, setPaused]
    rw [reportedHealthy_iff, reportedHealthy_iff, hjobs, hfailed, hthree, h] at hall
    omega
  · intro hfar switches
    obtain ⟨hjobs, hfailed⟩ := counts_foldl queues switches
    -- no switching adds more than three
    have hpaused := pausedCount_le (switches.foldl Switch.apply queues)
    rw [reportedHealthy_iff, reportedHealthy_iff, hjobs, hfailed, h]
    omega

/-- **The health of the queues.** The report is of the jobs, healthy exactly if enough
of them have not failed, and no pausing or resuming changes the verdict: this holds
exactly while no queue is paused and three more jobs would not reach the threshold. -/
theorem queueHealth_true_iff (queues : QueueName → QueueContents ι) :
    (reportedTotal queues = some (jobCount queues) ∧
      (ReportedHealthy queues ↔ Succeeding (jobCount queues) (failedCount queues)) ∧
      ∀ switches : List Switch,
        (ReportedHealthy (switches.foldl Switch.apply queues) ↔ ReportedHealthy queues)) ↔
    (∀ q, (queues q).isPaused = false) ∧
      ¬ (jobCount queues < 20 * failedCount queues ∧
        20 * failedCount queues ≤ jobCount queues + 3) := by
  rw [← pausedCount_eq_zero_iff, reportedTotal_eq]
  constructor
  · rintro ⟨htotal, -, hstable⟩
    have hzero : pausedCount queues = 0 := by
      rw [Option.some.injEq] at htotal
      omega
    exact ⟨hzero, (verdict_stable_iff hzero).mp hstable⟩
  · rintro ⟨hzero, hfar⟩
    refine ⟨by rw [hzero, Nat.add_zero], ?_, (verdict_stable_iff hzero).mpr hfar⟩
    rw [verdict_right_iff, hzero]
    omega

/-- One failed job among nineteen, in a queue that is paused. -/
def onePaused : QueueName → QueueContents Nat
  | .high => ⟨[], [], List.replicate 18 0, [1], [], true⟩
  | _ => ⟨[], [], [], [], [], false⟩

/-- They are reported as twenty, and as healthy until the queue is resumed. -/
theorem queueHealth_onePaused :
    jobCount onePaused = 19 ∧ reportedTotal onePaused = some 20 ∧
      ReportedHealthy onePaused ∧ ¬ Succeeding (jobCount onePaused) (failedCount onePaused) ∧
      ¬ ReportedHealthy ([Switch.resume .high].foldl Switch.apply onePaused) := by
  have hjobs : jobCount onePaused = 19 := by decide
  have hfailed : failedCount onePaused = 1 := by decide
  have hpaused : pausedCount onePaused = 1 := by decide
  refine ⟨hjobs, ?_, ?_, ?_, ?_⟩
  · rw [reportedTotal_eq, hjobs, hpaused]
  · rw [reportedHealthy_iff, hjobs, hfailed, hpaused]
  · rw [succeeding_iff (failedCount_le onePaused), hjobs, hfailed]
    decide
  · rw [reportedHealthy_iff, List.foldl_cons, List.foldl_nil]
    decide

end Health

end SchedulingService.Monitoring
