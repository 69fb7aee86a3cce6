import SchedulingService.Scheduler.Executions

/-!
# A record only moves on

The versions that a call saves come in one order, whatever its target and its saves
do: RUNNING, then COMPLETED or FAILED, and after COMPLETED at most FAILED. Other calls
save other records, so that order is what the table shows over time.

* `versions_advance` — the versions of one call;
* `records_advance` — a record of the table, over a whole run.
-/

namespace SchedulingService.Executions

open Js Scheduler

/-- Where a record can go from a status. -/
inductive Advances : ExecutionStatus → ExecutionStatus → Prop
  | completed : Advances .running .completed
  | failed : Advances .running .failed
  /-- The save of COMPLETED threw, and the catch block saved again. -/
  | failedLate : Advances .completed .failed

theorem Advances.trans {a b c : ExecutionStatus} (hab : Advances a b) (hbc : Advances b c) :
    Advances a c := by
  cases hab with
  | completed =>
    cases hbc
    exact .failed
  | failed => cases hbc
  | failedLate => cases hbc

section Versions

variable {rt : Runtime} {db : Database} {calls : ExecutionCalls} {jobs : List Job}
  {jobId scheduleId correlationId : Value} {e e' : Execution}

variable (db calls) in
/-- The catch block saves one version, and FAILED is what it says. -/
theorem handleError_advances (error : Value) (o : Option Execution) (status : ExecutionStatus)
    (hstatus : Advances status .failed) :
    (handleError db calls error o).1.Pairwise (fun a b => Advances a.status b.status) ∧
      ∀ e' ∈ (handleError db calls error o).1, Advances status e'.status := by
  refine ⟨?_, fun e' he' => ?_⟩
  · unfold handleError
    split
    · exact .nil
    · split
      · exact .nil
      · split
        · exact List.pairwise_singleton _ _
        · exact .nil
  · obtain ⟨-, -, hbind⟩ := mem_handleError.mp he'
    obtain ⟨e₀, -, hfailed⟩ := Option.bind_eq_some_iff.mp hbind
    rw [(onFailed_spec hfailed).1]
    exact hstatus

theorem runTarget_advances {job : Job} (he : e.status = .running) :
    (e :: (runTarget rt db calls job e).1).Pairwise fun a b => Advances a.status b.status := by
  rw [List.pairwise_cons, he]
  unfold runTarget
  split
  · obtain ⟨hpairwise, hall⟩ := handleError_advances db calls _ _ _ .failed
    exact ⟨hall, hpairwise⟩
  · split
    · obtain ⟨hpairwise, hall⟩ := handleError_advances db calls _ _ _ .failed
      exact ⟨hall, hpairwise⟩
    · rename_i completed hcompleted
      have hstatus : completed.status = .completed := by
        simp only [onCompleted, Option.bind_eq_bind, Option.bind_eq_some_iff,
          Option.some.injEq] at hcompleted
        obtain ⟨-, -, rfl⟩ := hcompleted
        rfl
      have hnext : Advances .running completed.status := by
        rw [hstatus]
        exact .completed
      split
      · exact ⟨List.forall_mem_singleton.mpr hnext, List.pairwise_singleton _ _⟩
      · -- and then the catch block
        rename_i stored _
        obtain ⟨hpairwise, hall⟩ :=
          handleError_advances db calls calls.dbError (some completed) _ .failedLate
        have hrest : ∀ e' ∈ (handleError db calls calls.dbError (some completed)).1,
            Advances .running e'.status := fun e' he' => Advances.completed.trans (hall e' he')
        cases stored with
        | false => exact ⟨hrest, hpairwise⟩
        | true =>
          refine ⟨List.forall_mem_cons.mpr ⟨hnext, hrest⟩, List.pairwise_cons.mpr ⟨?_, hpairwise⟩⟩
          rw [hstatus]
          exact hall

theorem versions_advance :
    (executeJob rt db calls jobs jobId scheduleId correlationId).1.Pairwise
      fun a b => Advances a.status b.status := by
  unfold executeJob
  split
  · exact .nil
  · split
    · exact .nil
    · exact .nil
    · split
      · exact .nil
      · rename_i execution hnew
        split
        · split
          · exact List.pairwise_singleton _ _
          · exact .nil
        · exact runTarget_advances (running_of_newExecution hnew).status

end Versions

/-! ## The table -/

/-- What a call has yet to save is further on than what it has saved. -/
structure Staged (s : Sys) : Prop where
  sound : Sound s
  versions : ∀ q, (s.pending q).Pairwise fun a b => Advances a.status b.status
  saved : ∀ q, ∀ e ∈ s.pending q, ∀ row ∈ s.table.rows, row.id = e.id →
    Advances row.status e.status

/-- A row later on: of the same execution, and the version it was or a later one. -/
structure MovedOn (row row' : ExecutionRow) : Prop where
  same : Same row.toExecution row'.toExecution
  status : row'.toExecution = row.toExecution ∨ Advances row.status row'.status

theorem MovedOn.rfl {row : ExecutionRow} : MovedOn row row := ⟨.rfl, .inl (.refl _)⟩

theorem MovedOn.trans {a b c : ExecutionRow} (hab : MovedOn a b) (hbc : MovedOn b c) :
    MovedOn a c := by
  refine ⟨hab.same.trans hbc.same, ?_⟩
  rcases hbc.status with heq | hadvances
  · rw [heq]
    exact hab.status
  · rcases hab.status with heq | hadvances'
    · have hstatus : b.status = a.status := congrArg Execution.status heq
      rw [hstatus] at hadvances
      exact .inr hadvances
    · exact .inr (hadvances'.trans hadvances)

section Steps

variable {E : Env} {C : Sys → Event → Prop} {s s' : Sys} {ev : Event}

theorem staged_step (hs : Staged s) (h : step E s ev = some s') : Staged s' := by
  have hsound := sound_step hs.sound h
  cases step_spec h with
  | createJob => exact ⟨hsound, hs.versions, hs.saved⟩
  | other => exact ⟨hsound, hs.versions, hs.saved⟩
  | @execute q calls jobId scheduleId correlationId hidle hfresh =>
    refine ⟨hsound, fun q' => ?_, fun q' e he row hrow hid => ?_⟩
    · show (Function.update s.pending q _ q').Pairwise _
      by_cases hq : q' = q
      · subst hq
        rw [Function.update_self]
        exact versions_advance
      · rw [Function.update_of_ne hq]
        exact hs.versions q'
    · rcases mem_update_pending he with ⟨-, he⟩ | ⟨-, he⟩
      · -- no row has the new id
        have hversion := version_of_mem_executeJob he
        have hused := (hs.sound.rows row hrow).1
        rw [hid, hversion.id] at hused
        exact absurd hused hfresh
      · exact hs.saved q' e he row hrow hid
  | @save q createdAt e rest table hpending hsaved =>
    have hfirst := hs.versions q
    rw [hpending, List.pairwise_cons] at hfirst
    have hq : e ∈ s.pending q := by
      rw [hpending]
      exact List.mem_cons_self
    refine ⟨hsound, fun q' => ?_, fun q' e' he' row hrow hid => ?_⟩
    · show (Function.update s.pending q rest q').Pairwise _
      by_cases hq' : q' = q
      · subst hq'
        rw [Function.update_self]
        exact hfirst.2
      · rw [Function.update_of_ne hq']
        exact hs.versions q'
    · rcases mem_update_pending he' with ⟨-, he'⟩ | ⟨hne, he'⟩
      · rcases hsaved.new row hrow with hrow | ⟨hrow, hother⟩
        · rw [hrow]
          exact hfirst.1 e' he'
        · have hmem : e' ∈ s.pending q := by
            rw [hpending]
            exact List.mem_cons_of_mem _ he'
          exact hs.saved q e' hmem row hrow hid
      · rcases hsaved.new row hrow with hrow | ⟨hrow, -⟩
        · -- the other call would have its id
          have hsame : q = q' := hs.sound.apart q e hq q' e' he' (by rw [← hrow]; exact hid)
          exact absurd hsame.symm hne
        · exact hs.saved q' e' he' row hrow hid

theorem movedOn_step (hs : Staged s) (h : step E s ev = some s') {row : ExecutionRow}
    (hrow : row ∈ s.table.rows) : ∃ row' ∈ s'.table.rows, MovedOn row row' := by
  cases step_spec h with
  | createJob => exact ⟨row, hrow, .rfl⟩
  | other => exact ⟨row, hrow, .rfl⟩
  | execute => exact ⟨row, hrow, .rfl⟩
  | @save q createdAt e rest table hpending hsaved =>
    by_cases hid : row.id = e.id
    · have hq : e ∈ s.pending q := by
        rw [hpending]
        exact List.mem_cons_self
      obtain ⟨row', hrow', heq⟩ := hsaved.mem
      refine ⟨row', hrow', ?_, .inr ?_⟩
      · rw [heq]
        exact (hs.sound.saved q e hq row hrow hid).symm
      · rw [heq]
        exact hs.saved q e hq row hrow hid
    · exact ⟨row, hsaved.old row hrow hid, .rfl⟩

theorem staged_of_initial (h : Initial s) : Staged s := by
  refine ⟨sound_of_initial h, fun q => ?_, fun q e he => ?_⟩
  · rw [h.pending]
    exact .nil
  · rw [h.pending] at he
    cases he

/-- **A record only moves on.** However calls of `executeJob` interleave, in whatever
state a record is met: later on it is still there, for the same job and start, and
it is what it was, or it went from RUNNING to COMPLETED or FAILED, or from COMPLETED
to FAILED. So nothing changes a record that is FAILED. -/
theorem records_advance (h : (machine E).Reachable C s) (hrun : (machine E).Run C s s')
    {row : ExecutionRow} (hrow : row ∈ s.table.rows) :
    ∃ row' ∈ s'.table.rows, MovedOn row row' := by
  have hstaged : Staged s := by
    refine h.invariant (fun _ => staged_of_initial) fun x ev x' hx _ hstep => ?_
    have hstep' : step E x ev = some x' := hstep
    exact staged_step hx hstep'
  have hall : Staged s' ∧ ∃ row' ∈ s'.table.rows, MovedOn row row' := by
    refine hrun.invariant (I := fun x => Staged x ∧ ∃ row' ∈ x.table.rows, MovedOn row row')
      (fun x ev x' hx _ hstep => ?_) ⟨hstaged, row, hrow, .rfl⟩
    have hstep' : step E x ev = some x' := hstep
    obtain ⟨hx, row', hrow', hmoved⟩ := hx
    obtain ⟨row'', hrow'', hmoved'⟩ := movedOn_step hx hstep' hrow'
    exact ⟨staged_step hx hstep', row'', hrow'', hmoved.trans hmoved'⟩
  exact hall.2

end Steps

/-- The call of `thirdStarts` saves its record for the second time. -/
theorem records_advance_third : ∃ s s' row,
    (machine plainEnv).exec twoExecuted thirdStarts = some s ∧
      (machine plainEnv).exec s [.save 0 3000] = some s' ∧
        row ∈ s.table.rows ∧ row.status = .running ∧ ∃ row' ∈ s'.table.rows, MovedOn row row' := by
  obtain ⟨s, s', row, hexec, hexec', hrow, hstatus⟩ : ∃ s s' row,
      (machine plainEnv).exec twoExecuted thirdStarts = some s ∧
        (machine plainEnv).exec s [.save 0 3000] = some s' ∧
          row ∈ s.table.rows ∧ row.status = .running :=
    ⟨_, _, _, rfl, rfl, List.mem_cons_self, rfl⟩
  have hreachable : (machine plainEnv).Reachable Machine.always s :=
    ⟨_, initial_twoExecuted, .of_exec (fun _ _ _ => trivial) hexec⟩
  exact ⟨s, s', row, hexec, hexec', hrow, hstatus,
    records_advance hreachable (.of_exec (fun _ _ _ => trivial) hexec') hrow⟩

end SchedulingService.Executions
