import SchedulingService.Lib.Relational

/-!
# The tables of the jobs

The rows of the tables that foreign keys connect: categories, jobs, and what refers to
jobs. Of the columns only those are told apart that a foreign key is about.
-/

namespace SchedulingService.App.Migrations

open Lib.Relational

/-! ## The tables -/

inductive Table
  | jobCategories
  | jobs
  | schedules
  | executions
  | executionLogs
  | recurringJobs
  | jobDependencies
  deriving DecidableEq

/-- The columns that a foreign key is about. -/
inductive Column
  | jobsCategoryId
  | schedulesJobId
  | executionsJobId
  | executionsScheduleId
  | executionLogsExecutionId
  | recurringJobsTemplateJobId
  | jobDependenciesJobId
  | jobDependenciesDependsOnJobId
  deriving DecidableEq

/-- The table that the column refers to. -/
def Column.references : Column → Table
  | .jobsCategoryId => .jobCategories
  | .schedulesJobId => .jobs
  | .executionsJobId => .jobs
  | .executionsScheduleId => .schedules
  | .executionLogsExecutionId => .executions
  | .recurringJobsTemplateJobId => .jobs
  | .jobDependenciesJobId => .jobs
  | .jobDependenciesDependsOnJobId => .jobs

/-- A row: its id, the columns that a foreign key is about, and the others. -/
inductive Row (Uuid Rest : Type*)
  | jobCategory (id : Uuid) (rest : Rest)
  | job (id : Uuid) (categoryId : Option Uuid) (rest : Rest)
  | schedule (id : Uuid) (jobId : Option Uuid) (rest : Rest)
  | execution (id : Uuid) (jobId scheduleId : Option Uuid) (rest : Rest)
  | executionLog (id : Uuid) (executionId : Option Uuid) (rest : Rest)
  | recurringJob (id : Uuid) (templateJobId : Option Uuid) (rest : Rest)
  | jobDependency (id : Uuid) (jobId dependsOnJobId : Option Uuid) (rest : Rest)
  deriving DecidableEq

section Rows

variable {Uuid Rest : Type*}

/-- The table of the row and its primary key. -/
def Row.key : Row Uuid Rest → Table × Uuid
  | .jobCategory id _ => (.jobCategories, id)
  | .job id _ _ => (.jobs, id)
  | .schedule id _ _ => (.schedules, id)
  | .execution id _ _ _ => (.executions, id)
  | .executionLog id _ _ => (.executionLogs, id)
  | .recurringJob id _ _ => (.recurringJobs, id)
  | .jobDependency id _ _ _ => (.jobDependencies, id)

/-- What the row has in the column, if it is a row of that table. -/
def Row.value : Column → Row Uuid Rest → Option (Option Uuid)
  | .jobsCategoryId, .job _ categoryId _ => some categoryId
  | .schedulesJobId, .schedule _ jobId _ => some jobId
  | .executionsJobId, .execution _ jobId _ _ => some jobId
  | .executionsScheduleId, .execution _ _ scheduleId _ => some scheduleId
  | .executionLogsExecutionId, .executionLog _ executionId _ => some executionId
  | .recurringJobsTemplateJobId, .recurringJob _ templateJobId _ => some templateJobId
  | .jobDependenciesJobId, .jobDependency _ jobId _ _ => some jobId
  | .jobDependenciesDependsOnJobId, .jobDependency _ _ dependsOnJobId _ => some dependsOnJobId
  | _, _ => none

/-- The row with a null in the column. -/
def Row.clear : Column → Row Uuid Rest → Row Uuid Rest
  | .jobsCategoryId, .job id _ rest => .job id none rest
  | .schedulesJobId, .schedule id _ rest => .schedule id none rest
  | .executionsJobId, .execution id _ scheduleId rest => .execution id none scheduleId rest
  | .executionsScheduleId, .execution id jobId _ rest => .execution id jobId none rest
  | .executionLogsExecutionId, .executionLog id _ rest => .executionLog id none rest
  | .recurringJobsTemplateJobId, .recurringJob id _ rest => .recurringJob id none rest
  | .jobDependenciesJobId, .jobDependency id _ dependsOnJobId rest =>
    .jobDependency id none dependsOnJobId rest
  | .jobDependenciesDependsOnJobId, .jobDependency id jobId _ rest =>
    .jobDependency id jobId none rest
  | _, r => r

def Row.isNull (c : Column) (r : Row Uuid Rest) : Bool := (r.value c).any Option.isNone

def layout (Uuid Rest : Type*) : Layout (Row Uuid Rest) (Table × Uuid) Column where
  key := Row.key
  ref c r := ((r.value c).bind id).map (Prod.mk c.references)
  isNull := Row.isNull
  clear := Row.clear

/-! ## References -/

theorem ref_eq_some_iff {c : Column} {r : Row Uuid Rest} {k : Table × Uuid} :
    (layout Uuid Rest).ref c r = some k ↔
      ∃ id, r.value c = some (some id) ∧ k = (c.references, id) := by
  simp only [layout, Option.map_eq_some_iff, Option.bind_eq_some_iff, id_eq]
  constructor
  · rintro ⟨id, ⟨value, hvalue, rfl⟩, rfl⟩
    exact ⟨id, hvalue, rfl⟩
  · rintro ⟨id, hvalue, rfl⟩
    exact ⟨id, ⟨some id, hvalue, rfl⟩, rfl⟩

theorem isNull_jobsCategoryId {r : Row Uuid Rest} :
    r.isNull .jobsCategoryId = true ↔ ∃ id rest, r = .job id none rest := by
  cases r with
  | job id categoryId rest => cases categoryId <;> simp [Row.isNull, Row.value]
  | _ => simp [Row.isNull, Row.value]

theorem exists_job_of_key {r : Row Uuid Rest} {id : Uuid} (h : r.key = (.jobs, id)) :
    ∃ categoryId rest, r = .job id categoryId rest := by
  cases r with
  | job id' categoryId rest =>
    obtain rfl : id' = id := (Prod.mk.inj h).2
    exact ⟨categoryId, rest, rfl⟩
  | _ => exact absurd (Prod.mk.inj h).1 (by decide)

theorem layout_lawful : (layout Uuid Rest).Lawful := by
  have hvalue : ∀ c c' (r : Row Uuid Rest), c' ≠ c → (r.clear c).value c' = r.value c' := by
    intro c c' r hother
    cases c <;> cases r <;> first | rfl | (cases c' <;> first | rfl | exact absurd rfl hother)
  refine ⟨fun c r => ?_, fun c r => ?_, fun c c' r h => ?_, fun c c' r h => ?_⟩
  · cases c <;> cases r <;> rfl
  · cases c <;> cases r <;> rfl
  · simp only [layout, hvalue c c' r h]
  · simp only [layout, Row.isNull, hvalue c c' r h]

end Rows

end SchedulingService.App.Migrations
