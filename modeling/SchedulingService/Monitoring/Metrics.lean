import SchedulingService.Lib.Total
import SchedulingService.Scheduler.Executions

/-!
# What the metrics say of the tables

`MetricsService` counts jobs and executions: over the tables, and once more for each
category. The queries of one answer are not one transaction, and those for the
categories run side by side while jobs are created and executed.

Main result: `categories_add_up` — whenever the queries of the categories are answered,
together they count every job and every recent execution once, but for those of jobs
without a category and what began or aged in between.
-/

namespace SchedulingService.Monitoring

open Js Executions
open Scheduler (Uuid Job JobCategory ExecutionStatus ExecutionRow CreateJobDto oneJob cleanupJob
  executionAt completeThrows)

/-! ## The queries -/

/-- `Date.now() - 24 * 60 * 60 * 1000`. -/
def oneDayBefore (now : Int) : Int := now - 24 * 60 * 60 * 1000

/-- `count({ where: { status, startedAt: MoreThanOrEqual(since) } })`. -/
def countExecutions (s : Sys) (status : ExecutionStatus) (since : Int) : Nat :=
  s.table.rows.countP fun e => e.status = status ∧ since ≤ e.startedAt

structure ExecutionMetrics where
  total : Nat
  successful24h : Nat
  failed24h : Nat

/-- `getExecutionMetrics`, without the average duration and the rate of success. -/
def getExecutionMetrics (s : Sys) (now : Int) : ExecutionMetrics where
  total := s.table.rows.length
  successful24h := countExecutions s .completed (oneDayBefore now)
  failed24h := countExecutions s .failed (oneDayBefore now)

/-- `deletedAt: IsNull()`. -/
def notDeleted (job : Job) : Bool := job.deletedAt = none

structure JobMetrics where
  total : Nat
  active : Nat
  completed24h : Nat
  failed24h : Nat
  pending : Nat

/-- `getJobMetrics`. -/
def getJobMetrics (s : Sys) (now : Int) : JobMetrics where
  total := s.store.jobs.rows.countP notDeleted
  active := s.store.jobs.rows.countP fun job => job.isActive && notDeleted job
  completed24h := countExecutions s .completed (oneDayBefore now)
  failed24h := countExecutions s .failed (oneDayBefore now)
  pending := s.store.schedules.rows.countP fun schedule => schedule.isActive

/-- The category of the job of an execution, as `innerJoin('execution.job', 'job')`
finds it. -/
def categoryOf (s : Sys) (e : ExecutionRow) : Option Uuid :=
  (s.store.jobs.get e.jobId).bind Job.categoryId

/-- The jobs of a category. -/
def jobsIn (s : Sys) (id : Uuid) : Nat :=
  s.store.jobs.rows.countP fun job => decide (job.categoryId = some id) && notDeleted job

/-- The executions of its jobs, deleted or not. -/
def executionsIn (s : Sys) (id : Uuid) (since : Int) : Nat :=
  s.table.rows.countP fun e => categoryOf s e = some id ∧ since ≤ e.startedAt

/-- Those that are COMPLETED. -/
def successfulIn (s : Sys) (id : Uuid) (since : Int) : Nat :=
  s.table.rows.countP fun e =>
    categoryOf s e = some id ∧ e.status = .completed ∧ since ≤ e.startedAt

structure CategoryMetrics where
  id : Uuid
  totalJobs : Nat
  executions24h : Nat
  successfulExecutions24h : Nat

/-- The moment each query of a category is answered in, and its `oneDayAgo`. -/
structure Moments where
  now : Int
  jobs : Sys
  executions : Sys
  successful : Sys

def categoryMetrics (m : Moments) (category : JobCategory) : CategoryMetrics where
  id := category.id
  totalJobs := jobsIn m.jobs category.id
  executions24h := executionsIn m.executions category.id (oneDayBefore m.now)
  successfulExecutions24h :=
    successfulIn m.successful category.id (oneDayBefore m.now)

/-- `getJobCategoryMetrics`, of the categories it has read. -/
def getJobCategoryMetrics (categories : List JobCategory) (moments : Uuid → Moments) :
    List CategoryMetrics :=
  categories.map fun category => categoryMetrics (moments category.id) category

/-! ## In one state -/

/-- The jobs without a category, and the executions of such jobs. -/
def uncategorisedJobs (s : Sys) : Nat :=
  s.store.jobs.rows.countP fun job => decide (job.categoryId = none) && notDeleted job

def uncategorisedExecutions (s : Sys) (since : Int) : Nat :=
  s.table.rows.countP fun e => categoryOf s e = none ∧ since ≤ e.startedAt

/-- All executions since then. -/
def executionsSince (s : Sys) (since : Int) : Nat :=
  s.table.rows.countP fun e => since ≤ e.startedAt

section Partition

variable {s s' : Sys}

theorem jobs_partition (hs : Sound s) :
    total (fun category => jobsIn s category.id) s.store.categories + uncategorisedJobs s =
      s.store.jobs.rows.countP notDeleted := by
  have hcategorised : ∀ job ∈ s.store.jobs.rows.filter notDeleted, ∀ c,
      job.categoryId = some c → c ∈ s.store.categories.map JobCategory.id :=
    fun job hjob => hs.categorised job (List.mem_filter.mp hjob).1
  have hkeys := total_countP_keys Job.categoryId hs.categories hcategorised
  rw [total_map, List.countP_filter, ← List.countP_eq_length_filter] at hkeys
  simp only [List.countP_filter] at hkeys
  exact hkeys

theorem executions_partition (hs : Sound s) (since : Int) :
    total (fun category => executionsIn s category.id since) s.store.categories +
      uncategorisedExecutions s since = executionsSince s since := by
  have hkeys : ∀ e ∈ s.table.rows.filter (fun e => since ≤ e.startedAt), ∀ c,
      categoryOf s e = some c → c ∈ s.store.categories.map JobCategory.id := by
    intro e _ c hc
    obtain ⟨job, hjob, hcategory⟩ := Option.bind_eq_some_iff.mp hc
    exact hs.categorised job (Keyed.get_eq_some.mp hjob).1 c hcategory
  have hall := total_countP_keys (categoryOf s) hs.categories hkeys
  rw [total_map, List.countP_filter, ← List.countP_eq_length_filter] at hall
  simp only [List.countP_filter] at hall
  simpa [executionsIn, uncategorisedExecutions, executionsSince, Bool.decide_and] using hall

/-- A category only gets more jobs … -/
theorem jobsIn_le (h : Kept s s') (id : Uuid) : jobsIn s id ≤ jobsIn s' id := by
  refine Keyed.countP_le fun job hjob hid => ?_
  exact ⟨job, h.jobs job hjob, rfl, hid⟩

/-- … and their executions stay executions of its jobs. -/
theorem executionsIn_le (h : Kept s s') (id : Uuid) {since since' : Int}
    (hsince : since' ≤ since) : executionsIn s id since ≤ executionsIn s' id since' := by
  refine Keyed.countP_le fun row hrow hcounts => ?_
  obtain ⟨hcategory, hlater⟩ := of_decide_eq_true hcounts
  obtain ⟨row', hrow', hsame⟩ := h.rows row hrow
  refine ⟨row', hrow', hsame.id, decide_eq_true ⟨?_, ?_⟩⟩
  · obtain ⟨job, hjob, hid⟩ := Option.bind_eq_some_iff.mp hcategory
    obtain ⟨hmem, hkey⟩ := Keyed.get_eq_some.mp hjob
    have hget : s'.store.jobs.get row'.jobId = some job :=
      Keyed.get_eq_some.mpr ⟨h.jobs job hmem, hkey.trans hsame.jobId.symm⟩
    exact Option.bind_eq_some_iff.mpr ⟨job, hget, hid⟩
  · rw [hsame.startedAt]
    omega

theorem successfulIn_le (s : Sys) (id : Uuid) (since : Int) :
    successfulIn s id since ≤ executionsIn s id since := by
  refine List.countP_mono_left fun e _ hcounts => ?_
  obtain ⟨hcategory, -, hlater⟩ := of_decide_eq_true hcounts
  exact decide_eq_true ⟨hcategory, hlater⟩

end Partition

/-! ## While work goes on -/

/-- A run from `s` to `s'` passes through it. -/
def Passes (E : Env) (C : Sys → Event → Prop) (s s' m : Sys) : Prop :=
  (machine E).Run C s m ∧ (machine E).Run C m s'

/-- The queries of a category are answered between `s` and `s'`. -/
structure Moments.Between (E : Env) (C : Sys → Event → Prop) (s s' : Sys) (lo hi : Int)
    (m : Moments) : Prop where
  jobs : Passes E C s s' m.jobs
  executions : Passes E C s s' m.executions
  successful : Passes E C s s' m.successful
  now : lo ≤ m.now ∧ m.now ≤ hi

/-- What the categories add up to. -/
structure AddUp (s s' : Sys) (lo hi : Int) (metrics : List CategoryMetrics) : Prop where
  jobsAtLeast : (getJobMetrics s lo).total ≤
    total CategoryMetrics.totalJobs metrics + uncategorisedJobs s
  jobsAtMost : total CategoryMetrics.totalJobs metrics + uncategorisedJobs s' ≤
    (getJobMetrics s' hi).total
  executionsAtLeast : executionsSince s (oneDayBefore hi) ≤
    total CategoryMetrics.executions24h metrics + uncategorisedExecutions s (oneDayBefore hi)
  executionsAtMost :
    total CategoryMetrics.executions24h metrics + uncategorisedExecutions s' (oneDayBefore lo) ≤
      executionsSince s' (oneDayBefore lo)
  successfulAtMost :
    total CategoryMetrics.successfulExecutions24h metrics +
      uncategorisedExecutions s' (oneDayBefore lo) ≤ executionsSince s' (oneDayBefore lo)

/-- **The categories add up.** However jobs are created and executed while the queries
are answered: every job and every execution of the last day is counted in one category,
or its job has none, up to those that came or went out of the day in between. -/
theorem categories_add_up {E : Env} {C : Sys → Event → Prop} {s s' : Sys} {lo hi : Int}
    {moments : Uuid → Moments} (h : (machine E).Reachable C s) (hrun : (machine E).Run C s s')
    (hbetween : ∀ category ∈ s.store.categories,
      (moments category.id).Between E C s s' lo hi) :
    AddUp s s' lo hi (getJobCategoryMetrics s.store.categories moments) := by
  have hs := sound_of_reachable h
  have hs' := sound_of_reachable (h.run hrun)
  have hcategories := (kept_of_run hs hrun).categories
  have hkept : ∀ {m}, Passes E C s s' m → Kept s m ∧ Kept m s' := fun hm =>
    ⟨kept_of_run hs hm.1, kept_of_run (sound_of_reachable (h.run hm.1)) hm.2⟩
  have hjobs := jobs_partition hs
  have hjobs' := jobs_partition hs'
  rw [hcategories] at hjobs'
  have hexecutions := executions_partition hs (oneDayBefore hi)
  have hexecutions' := executions_partition hs' (oneDayBefore lo)
  rw [hcategories] at hexecutions'
  -- the day of a query began between those of `lo` and `hi`
  have hday : ∀ {m : Moments}, m.Between E C s s' lo hi →
      oneDayBefore m.now ≤ oneDayBefore hi ∧ oneDayBefore lo ≤ oneDayBefore m.now := by
    intro m hm
    have hnow := hm.now
    unfold oneDayBefore
    omega
  constructor
  · have hle : total (fun category => jobsIn s category.id) s.store.categories ≤
        total CategoryMetrics.totalJobs (getJobCategoryMetrics s.store.categories moments) := by
      rw [getJobCategoryMetrics, total_map]
      exact total_le fun category hc => jobsIn_le (hkept (hbetween category hc).jobs).1 _
    show s.store.jobs.rows.countP notDeleted ≤ _
    omega
  · have hle : total CategoryMetrics.totalJobs
        (getJobCategoryMetrics s.store.categories moments) ≤
          total (fun category => jobsIn s' category.id) s.store.categories := by
      rw [getJobCategoryMetrics, total_map]
      exact total_le fun category hc => jobsIn_le (hkept (hbetween category hc).jobs).2 _
    show _ ≤ s'.store.jobs.rows.countP notDeleted
    omega
  · have hle : total (fun category => executionsIn s category.id (oneDayBefore hi))
        s.store.categories ≤
          total CategoryMetrics.executions24h
            (getJobCategoryMetrics s.store.categories moments) := by
      rw [getJobCategoryMetrics, total_map]
      exact total_le fun category hc => executionsIn_le
        (hkept (hbetween category hc).executions).1 _ (hday (hbetween category hc)).1
    omega
  · have hle : total CategoryMetrics.executions24h
        (getJobCategoryMetrics s.store.categories moments) ≤
          total (fun category => executionsIn s' category.id (oneDayBefore lo))
            s.store.categories := by
      rw [getJobCategoryMetrics, total_map]
      exact total_le fun category hc => executionsIn_le
        (hkept (hbetween category hc).executions).2 _ (hday (hbetween category hc)).2
    omega
  · have hle : total CategoryMetrics.successfulExecutions24h
        (getJobCategoryMetrics s.store.categories moments) ≤
          total (fun category => executionsIn s' category.id (oneDayBefore lo))
            s.store.categories := by
      rw [getJobCategoryMetrics, total_map]
      refine total_le fun category hc => le_trans (successfulIn_le _ _ _) ?_
      exact executionsIn_le (hkept (hbetween category hc).successful).2 _
        (hday (hbetween category hc)).2
    omega

/-- A category whose one job is executed once. -/
def oneOfACategory : Sys where
  store :=
    { oneJob { cleanupJob with id := "job-1", categoryId := some "category-1" } with
      categories := [⟨"category-1", .medium, 300, 3⟩] }
  table := ⟨[executionAt "a" 1000], List.nodup_singleton _⟩
  pending _ := []
  used := ["a"]

theorem initial_oneOfACategory : Initial oneOfACategory := by
  refine ⟨List.nodup_singleton _, ?_, ?_, ?_, rfl⟩
  · intro job hjob c hc
    obtain rfl := List.mem_singleton.mp hjob
    obtain rfl := Option.some.inj hc
    exact List.mem_cons_self
  · intro row hrow
    obtain rfl := List.mem_singleton.mp hrow
    exact ⟨_, List.mem_cons_self, rfl⟩
  · intro row hrow
    obtain rfl := List.mem_singleton.mp hrow
    exact List.mem_cons_self

/-- Another job of the category. -/
def reportDto : CreateJobDto where
  name := .str "report"
  description := .undefined
  categoryId := .str "category-1"
  targetService := .str "messaging"
  targetMethod := .str "sendReport"
  payload := .obj []
  priority := .undefined
  maxRetries := .undefined
  timeoutSeconds := .undefined
  createdBy := .undefined

/-- It is created, executed, and its record saved for the first time. -/
def reportRuns : List Event :=
  [.createJob "job-2" reportDto,
    .execute 0 { completeThrows with executionId := "b", startedAt := 1000 } (.str "job-2")
      .undefined .undefined,
    .save 0 1000]

/-- The jobs of the category are counted before that, its executions after it. -/
def countedAround (s' : Sys) : Moments where
  now := 1000
  jobs := oneOfACategory
  executions := s'
  successful := s'

theorem categories_add_up_one : ∃ s', (machine plainEnv).exec oneOfACategory reportRuns = some s' ∧
    s'.store.jobs.rows.map Job.id = ["job-2", "job-1"] ∧
    (s'.table.rows.map fun e => e.jobId) = ["job-2", "job-1"] ∧
    AddUp oneOfACategory s' 1000 1000
      (getJobCategoryMetrics oneOfACategory.store.categories fun _ => countedAround s') := by
  obtain ⟨s', hexec, hjobs, hrows⟩ : ∃ s',
      (machine plainEnv).exec oneOfACategory reportRuns = some s' ∧
        s'.store.jobs.rows.map Job.id = ["job-2", "job-1"] ∧
          (s'.table.rows.map fun e => e.jobId) = ["job-2", "job-1"] := ⟨_, rfl, rfl, rfl⟩
  have hreachable : (machine plainEnv).Reachable Machine.always oneOfACategory :=
    ⟨_, initial_oneOfACategory, .refl⟩
  have hrun : (machine plainEnv).Run Machine.always oneOfACategory s' :=
    .of_exec (fun _ _ _ => trivial) hexec
  exact ⟨s', hexec, hjobs, hrows, categories_add_up hreachable hrun fun _ _ =>
    ⟨⟨.refl, hrun⟩, ⟨hrun, .refl⟩, ⟨hrun, .refl⟩, le_rfl, le_rfl⟩⟩

end SchedulingService.Monitoring
