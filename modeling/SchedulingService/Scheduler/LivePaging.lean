import SchedulingService.Scheduler.Executions

/-!
# Paging while executions run

A client reads the executions of a job page by page, and executions start, end and
fail in between. Those that start push the others on, towards the pages that are
still to be read: an execution may come twice, but none is passed over.

Main result: `paged_while_running`.
-/

namespace SchedulingService.Executions

open Js Scheduler Paging

section Later

variable {E : Env} {C : Sys → Event → Prop} {s s' : Sys} {jobId : Uuid}

/-- Executions that started later than a time only become more. -/
theorem countP_later_le (h : Kept s s') (jobId : Uuid) (startedAt : Int) :
    ((executionsOf s.table jobId).countP fun x => startedAt < x.startedAt) ≤
      (executionsOf s'.table jobId).countP fun x => startedAt < x.startedAt := by
  unfold executionsOf
  rw [List.countP_filter, List.countP_filter]
  refine Keyed.countP_le fun row hrow hlater => ?_
  obtain ⟨row', hrow', hid, hjob, hstart⟩ := h.rows row hrow
  refine ⟨row', hrow', hid, ?_⟩
  rw [hstart, hjob]
  exact hlater

/-- An execution has a version in every later state. -/
theorem exists_version (h : Kept s s') {row : ExecutionRow}
    (hrow : row ∈ executionsOf s.table jobId) :
    ∃ row' ∈ executionsOf s'.table jobId, Same row.toExecution row'.toExecution := by
  obtain ⟨hmem, hjob⟩ := List.mem_filter.mp hrow
  obtain ⟨row', hrow', hsame⟩ := h.rows row hmem
  refine ⟨row', List.mem_filter.mpr ⟨hrow', ?_⟩, hsame⟩
  rw [hsame.jobId]
  exact hjob

theorem run_from_start {s : Nat → Sys} (hrun : ∀ i, (machine E).Run C (s i) (s (i + 1))) (i : Nat) :
    (machine E).Run C (s 0) (s i) := by
  induction i with
  | zero => exact .refl
  | succ i ih => exact ih.trans (hrun i)

end Later

/-- **None is passed over.** Each page is read in a state of its own of one run, in
any order of executions that started at one time. An execution that was there when
the first page was read is on a page before the first empty one, if no other execution
of the job has its start time. -/
theorem paged_while_running {E : Env} {C : Sys → Event → Prop} {s : Nat → Sys}
    (h₀ : (machine E).Reachable C (s 0)) (hrun : ∀ i, (machine E).Run C (s i) (s (i + 1)))
    {jobId : Uuid} {orders : Nat → List ExecutionRow}
    (horders : ∀ i, Ordered (s i).table jobId (orders i)) {L k : Nat} (hL : 1 ≤ L)
    (hempty : controllerGetJobExecutions (orders k) (some L) (some (k * L)) = [])
    {row : ExecutionRow} (hrow : row ∈ executionsOf (s 0).table jobId)
    (halone : ∀ i < k, ∀ x ∈ executionsOf (s i).table jobId,
      x.startedAt = row.startedAt → x.id = row.id) :
    ∃ response ∈ firstPages L orders k, response.id = row.id := by
  have hkept : ∀ i, Kept (s 0) (s i) := fun i =>
    kept_of_run (sound_of_reachable h₀) (run_from_start hrun i)
  have hnext : ∀ i, Kept (s i) (s (i + 1)) := fun i =>
    kept_of_run (sound_of_reachable (h₀.run (run_from_start hrun i))) (hrun i)
  choose version hmem hsame using fun i => exists_version (hkept i) hrow
  obtain ⟨i, hi, hpage⟩ : ∃ i < k, version i ∈ page L i (orders i) := by
    refine mem_page_of_growing hL horders (fun i => nodup_executionsOf _ _) hmem ?_ ?_ ?_
    · -- the key is its own
      intro i hi x hx hstart
      have hid : x.id = row.id := halone i hi x hx (hstart.trans (hsame i).startedAt)
      exact (s i).table.eq_of_key_eq (List.mem_of_mem_filter hx)
        (List.mem_of_mem_filter (hmem i)) (hid.trans (hsame i).id.symm)
    · intro i
      have hstart : (version (i + 1)).startedAt = (version i).startedAt :=
        (hsame (i + 1)).startedAt.trans (hsame i).startedAt.symm
      rw [hstart]
      exact countP_later_le (hnext i) jobId _
    · rw [getJobExecutions_page hL, List.map_eq_nil_iff] at hempty
      exact hempty
  refine ⟨mapExecutionToResponse (version i), ?_, (hsame i).id⟩
  rw [firstPages_eq hL]
  exact List.mem_map_of_mem (List.mem_flatMap.mpr ⟨i, List.mem_range.mpr hi, hpage⟩)

/-! ## An execution that starts between two pages -/

/-- The first page is read before that and the others after it, so the second gives the
first one's execution again. -/
theorem paged_while_running_thirdStarts : ∃ orders : Nat → List ExecutionRow,
    (firstPages 1 orders 2).map ExecutionResponseDto.id = ["b", "b"] ∧
      ∃ response ∈ firstPages 1 orders 3, response.id = "a" := by
  obtain ⟨s₁, third, hexec, hrows, hjob, hstart⟩ : ∃ s₁ third,
      (machine plainEnv).exec twoExecuted thirdStarts = some s₁ ∧
        s₁.table.rows = [third, executionAt "a" 1000, executionAt "b" 2000] ∧
          third.jobId = "job-1" ∧ third.startedAt = 3000 := ⟨_, _, rfl, rfl, rfl, rfl⟩
  let s : Nat → Sys := fun i => if i = 0 then twoExecuted else s₁
  let orders : Nat → List ExecutionRow := fun i =>
    if i = 0 then [executionAt "b" 2000, executionAt "a" 1000]
    else [third, executionAt "b" 2000, executionAt "a" 1000]
  have hrun : ∀ i, (machine plainEnv).Run Machine.always (s i) (s (i + 1)) := by
    intro i
    by_cases hi : i = 0
    · subst hi
      exact .of_exec (fun _ _ _ => trivial) hexec
    · simp only [s, hi, if_false, Nat.add_one_ne_zero]
      exact .refl
  have hthree : executionsOf s₁.table "job-1" =
      [third, executionAt "a" 1000, executionAt "b" 2000] := by
    rw [executionsOf, hrows]
    simp [hjob, executionAt]
  have horders : ∀ i, Ordered (s i).table "job-1" (orders i) := by
    intro i
    by_cases hi : i = 0
    · subst hi
      exact ⟨.swap _ _ _, by simp [orders, executionAt]⟩
    · simp only [s, orders, hi, if_false, Ordered, hthree]
      exact ⟨.cons _ (.swap _ _ _), by simp [executionAt, hstart]⟩
  have hfirst : executionAt "a" 1000 ∈ executionsOf (s 0).table "job-1" := List.mem_cons_self
  have halone : ∀ i < 3, ∀ x ∈ executionsOf (s i).table "job-1",
      x.startedAt = (executionAt "a" 1000).startedAt → x.id = (executionAt "a" 1000).id := by
    intro i _ x hx hsame
    by_cases hi : i = 0
    · subst hi
      have hx' : x ∈ [executionAt "a" 1000, executionAt "b" 2000] := hx
      simp only [List.mem_cons, List.not_mem_nil, or_false] at hx'
      rcases hx' with rfl | rfl
      · rfl
      · cases hsame
    · simp only [s, hi, if_false, hthree, List.mem_cons, List.not_mem_nil, or_false] at hx
      rcases hx with rfl | rfl | rfl
      · rw [hstart] at hsame
        cases hsame
      · rfl
      · cases hsame
  have hempty : controllerGetJobExecutions (orders 3) (some 1) (some (3 * 1)) = [] := rfl
  exact ⟨orders, rfl, paged_while_running ⟨_, initial_twoExecuted, .refl⟩ hrun horders
    (by decide) hempty hfirst halone⟩

end SchedulingService.Executions
