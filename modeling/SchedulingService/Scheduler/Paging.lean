import SchedulingService.Lib.Paging
import SchedulingService.Scheduler.Entity

/-!
# Paging through a job's executions

`getJobExecutions` sorts by `startedAt` alone and leaves the order of executions
that started at one time to the database, which may choose it anew for each page.

Main result: `pagesExactly_iff` — for which tables the pages, one after another, give
every execution once.
-/

namespace SchedulingService.Scheduler

open Js Paging

/-- A row of `executions` with all its columns. -/
structure ExecutionRow extends Execution where
  workerId : Option String
  createdAt : Int

structure ExecutionResponseDto where
  id : Uuid
  jobId : Uuid
  scheduleId : Slot Uuid
  status : ExecutionStatus
  startedAt : Int
  completedAt : Slot Int
  failedAt : Slot Int
  attemptNumber : Int
  resultData : Slot Value
  errorData : Slot Value
  durationMs : Slot Int
  workerId : Slot String
  correlationId : Slot String
  createdAt : Int

/-- `column ?? undefined`. -/
def orUndefined {α : Type} : Option α → Slot α
  | none => .undefined
  | some a => .val a

def mapExecutionToResponse (execution : ExecutionRow) : ExecutionResponseDto where
  id := execution.id
  jobId := execution.jobId
  scheduleId := orUndefined execution.scheduleId
  status := execution.status
  startedAt := execution.startedAt
  completedAt := orUndefined execution.completedAt
  failedAt := orUndefined execution.failedAt
  attemptNumber := execution.attemptNumber
  resultData := .ofNullable execution.resultData
  errorData := .ofNullable execution.errorData
  durationMs := orUndefined execution.durationMs
  workerId := orUndefined execution.workerId
  correlationId := orUndefined execution.correlationId
  createdAt := execution.createdAt

abbrev ExecutionTable := Keyed fun e : ExecutionRow => e.id

/-- `where: { jobId }`. -/
def executionsOf (table : ExecutionTable) (jobId : Uuid) : List ExecutionRow :=
  table.rows.filter fun e => e.jobId = jobId

/-- The rows in an order that `order: { startedAt: 'DESC' }` allows. -/
def Ordered (table : ExecutionTable) (jobId : Uuid) (order : List ExecutionRow) : Prop :=
  Answer (fun e => e.startedAt) (executionsOf table jobId) order

/-- `getJobExecutions` where the database has the job's rows in this order. -/
def getJobExecutions (order : List ExecutionRow) (limit offset : Option Nat) :
    List ExecutionResponseDto :=
  ((order.drop (offset.getD 0)).take (limit.getD 50)).map mapExecutionToResponse

/-- `v || n`. -/
def truthyOrNumber : Option Nat → Nat → Nat
  | some (v + 1), _ => v + 1
  | _, n => n

/-- The controller's method of that name. -/
def controllerGetJobExecutions (order : List ExecutionRow) (limit offset : Option Nat) :
    List ExecutionResponseDto :=
  getJobExecutions order (some (truthyOrNumber limit 50)) (some (truthyOrNumber offset 0))

/-- The controller passes a page on as it is asked for. -/
theorem controllerGetJobExecutions_eq (order : List ExecutionRow) {limit : Nat}
    (hlimit : 1 ≤ limit) (offset : Nat) :
    controllerGetJobExecutions order (some limit) (some offset) =
      getJobExecutions order (some limit) (some offset) := by
  have hnumber : truthyOrNumber (some limit) 50 = limit := by
    cases limit with
    | zero => omega
    | succ n => rfl
  have hoffset : truthyOrNumber (some offset) 0 = offset := by
    cases offset <;> rfl
  rw [controllerGetJobExecutions, hnumber, hoffset]

/-! ## Page by page -/

/-- The pages up to page `k`, page `i` from an order of its own. -/
def firstPages (L : Nat) (orders : Nat → List ExecutionRow) (k : Nat) :
    List ExecutionResponseDto :=
  (List.range k).flatMap fun i => controllerGetJobExecutions (orders i) (some L) (some (i * L))

/-- Up to the first empty page, page `k`, every execution of the job comes once,
and later ones first. -/
structure PagedThrough (table : ExecutionTable) (jobId : Uuid) (L : Nat)
    (orders : Nat → List ExecutionRow) (k : Nat) : Prop where
  firstEmpty : IsLeast
    {i | controllerGetJobExecutions (orders i) (some L) (some (i * L)) = []} k
  all : (firstPages L orders k).Perm ((executionsOf table jobId).map mapExecutionToResponse)
  sorted : (firstPages L orders k).Pairwise fun a b => b.startedAt ≤ a.startedAt

/-- Whatever order each query has its rows in. -/
def PagesExactly (table : ExecutionTable) (jobId : Uuid) (L : Nat) : Prop :=
  ∀ orders : Nat → List ExecutionRow, (∀ i, Ordered table jobId (orders i)) →
    ∃ k, PagedThrough table jobId L orders k

section Pages

variable {table : ExecutionTable} {jobId : Uuid} {L k : Nat} {orders : Nat → List ExecutionRow}

theorem nodup_executionsOf (table : ExecutionTable) (jobId : Uuid) :
    (executionsOf table jobId).Nodup :=
  (List.Nodup.of_map _ table.nodup).filter _

theorem orUndefined_inj {α : Type} {a b : Option α} : orUndefined a = orUndefined b ↔ a = b := by
  cases a <;> cases b <;> simp [orUndefined]

theorem ofNullable_inj {α : Type} {a b : Option α} :
    Slot.ofNullable a = Slot.ofNullable b ↔ a = b := by
  cases a <;> cases b <;> simp [Slot.ofNullable]

/-- A response tells its execution. -/
theorem mapExecutionToResponse_injective : Function.Injective mapExecutionToResponse := by
  rintro ⟨⟨⟩⟩ ⟨⟨⟩⟩ h
  simp only [mapExecutionToResponse, ExecutionResponseDto.mk.injEq, orUndefined_inj,
    ofNullable_inj] at h
  simp [h]

/-- A page of responses is that of their executions. -/
theorem getJobExecutions_page (hL : 1 ≤ L) (i : Nat) (order : List ExecutionRow) :
    controllerGetJobExecutions order (some L) (some (i * L)) =
      (page L i order).map mapExecutionToResponse := by
  rw [controllerGetJobExecutions_eq order hL]
  rfl

theorem firstPages_eq (hL : 1 ≤ L) :
    firstPages L orders k = (pages L orders k).map mapExecutionToResponse := by
  simp only [firstPages, pages, getJobExecutions_page hL, List.map_flatMap]

theorem firstEmpty_iff (hL : 1 ≤ L) :
    IsLeast {i | controllerGetJobExecutions (orders i) (some L) (some (i * L)) = []} k ↔
      IsLeast {i | page L i (orders i) = []} k := by
  simp only [getJobExecutions_page hL, List.map_eq_nil_iff]

/-- **Paging** gives every execution once, the later ones first, exactly if no
executions that started at one time stand across a page boundary. -/
theorem pagesExactly_iff (table : ExecutionTable) (jobId : Uuid) {L : Nat} (hL : 1 ≤ L) :
    PagesExactly table jobId L ↔
      ∀ i, ¬ Straddles (fun e => e.startedAt) (executionsOf table jobId) (i * L) := by
  rw [← pages_perm_iff hL (nodup_executionsOf table jobId)]
  constructor
  · intro h orders horders
    obtain ⟨k, hpaged⟩ := h orders horders
    have hall := hpaged.all
    rw [firstPages_eq hL, List.map_perm_map_iff mapExecutionToResponse_injective] at hall
    exact ⟨k, (firstEmpty_iff hL).mp hpaged.firstEmpty, hall⟩
  · intro h orders horders
    obtain ⟨k, hleast, hall⟩ := h orders horders
    refine ⟨k, (firstEmpty_iff hL).mpr hleast, ?_, ?_⟩
    · rw [firstPages_eq hL]
      exact hall.map mapExecutionToResponse
    · -- the times read do not depend on how ties are ordered
      rw [firstPages_eq hL, List.pairwise_map]
      exact pages_sorted horders

end Pages

/-! ### Examples -/

/-- An execution of one job, under `id` and at a time. -/
def executionAt (id : Uuid) (startedAt : Int) : ExecutionRow where
  id
  jobId := "job-1"
  scheduleId := none
  status := .completed
  startedAt
  completedAt := none
  failedAt := none
  attemptNumber := 1
  resultData := none
  errorData := none
  durationMs := none
  correlationId := none
  workerId := none
  createdAt := startedAt

/-- Two executions that started in one millisecond. -/
def twoAtOnce : ExecutionTable where
  rows := [executionAt "a" 1000, executionAt "b" 1000]
  nodup := by decide

/-- An answer of the database, and after the first query another. -/
def changingOrder (i : Nat) : List ExecutionRow :=
  if i = 0 then [executionAt "a" 1000, executionAt "b" 1000]
  else [executionAt "b" 1000, executionAt "a" 1000]

theorem ordered_changingOrder (i : Nat) : Ordered twoAtOnce "job-1" (changingOrder i) := by
  have hrows : executionsOf twoAtOnce "job-1" = [executionAt "a" 1000, executionAt "b" 1000] := rfl
  unfold Ordered changingOrder
  rw [hrows]
  split
  · exact ⟨List.Perm.refl _, by simp [executionAt]⟩
  · exact ⟨List.Perm.swap _ _ _, by simp [executionAt]⟩

/-- In pages of one the first of them may be read twice and the second not at all. -/
theorem twoAtOnce_not_pagesExactly : ¬ PagesExactly twoAtOnce "job-1" 1 := by
  intro h
  obtain ⟨k, hpaged⟩ := h changingOrder ordered_changingOrder
  have hk : k ≤ 2 := hpaged.firstEmpty.2 (show controllerGetJobExecutions _ _ _ = [] from rfl)
  have hids := hpaged.all.map ExecutionResponseDto.id
  have hcases : k = 0 ∨ k = 1 ∨ k = 2 := by omega
  -- one of them is missing in the two pages, and in fewer anyway
  rcases hcases with rfl | rfl | rfl <;> exact absurd hids (by decide)

/-- The same executions in pages of two. -/
theorem pagesExactly_iff_twoAtOnce : PagesExactly twoAtOnce "job-1" 2 ↔
    ∀ i, ¬ Straddles (fun e => e.startedAt) (executionsOf twoAtOnce "job-1") (i * 2) :=
  pagesExactly_iff twoAtOnce "job-1" (by decide)

end SchedulingService.Scheduler
