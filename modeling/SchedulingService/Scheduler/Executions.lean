import SchedulingService.Scheduler.Integrity
import SchedulingService.Scheduler.Jobs
import SchedulingService.Scheduler.Paging

/-!
# The table of executions

Calls of `executeJob` run side by side, in requests and in workers, and each saves
up to three versions of a record of its own. Here the saves of all calls fall in
any order, between creations of jobs and whatever happens to schedules and queues.

* `Same` — two versions of one execution;
* `sound_of_reachable` — a version is only saved over one of the same execution,
  and every execution is one of a stored job;
* `kept_of_run` — no execution is lost, or changes its job or its start.
-/

namespace SchedulingService.Executions

open Js Scheduler

structure Env where
  rt : Runtime
  db : Database

/-- A call of `executeJob`. -/
abbrev CallId := Nat

structure Sys where
  store : Store
  table : ExecutionTable
  /-- The versions that a call has yet to save. -/
  pending : CallId → List Execution
  /-- The ids of executions that the database has given out. -/
  used : List Uuid

inductive Event
  | createJob (id : Uuid) (dto : CreateJobDto)
  /-- What any other operation does to the schedules and the queues. -/
  | other (schedules : Keyed Schedule.id) (queues : Queues.Contents)
  | execute (q : CallId) (calls : ExecutionCalls) (jobId scheduleId correlationId : Value)
  /-- The next save of a call takes effect. -/
  | save (q : CallId) (createdAt : Int)

/-- `save(execution)`: over the row with its id, or as a new one. -/
def saveExecution (t : ExecutionTable) (createdAt : Int) (e : Execution) :
    Option ExecutionTable :=
  match t.get e.id with
  | some row => some (t.put { row with toExecution := e })
  | none => t.insert { toExecution := e, workerId := none, createdAt }

/-- One event; `none` where it cannot happen. -/
def step (E : Env) (s : Sys) : Event → Option Sys
  | .createJob id dto => some { s with store := (createJob E.db id dto s.store).1 }
  | .other schedules queues => some { s with store := { s.store with schedules, queues } }
  | .execute q calls jobId scheduleId correlationId =>
    if (s.pending q).isEmpty && !s.used.contains calls.executionId then
      let (versions, _) :=
        executeJob E.rt E.db calls s.store.jobs.rows jobId scheduleId correlationId
      some { s with
        pending := Function.update s.pending q versions
        used := calls.executionId :: s.used }
    else none
  | .save q createdAt =>
    match s.pending q with
    | [] => none
    | e :: rest => (saveExecution s.table createdAt e).map fun table =>
        { s with table, pending := Function.update s.pending q rest }

/-- What the keys of the tables say, and nothing is going on. -/
structure Initial (s : Sys) : Prop where
  categories : (s.store.categories.map JobCategory.id).Nodup
  categorised : ∀ job ∈ s.store.jobs.rows, ∀ c, job.categoryId = some c →
    c ∈ s.store.categories.map JobCategory.id
  owned : ∀ row ∈ s.table.rows, ∃ job ∈ s.store.jobs.rows, job.id = row.jobId
  used : ∀ row ∈ s.table.rows, row.id ∈ s.used
  pending : s.pending = fun _ => []

def machine (E : Env) : Machine Sys Event where
  Init := Initial
  step := step E

/-! ## The versions of one execution -/

/-- `e'` is a version of the execution that `e` is a version of. -/
structure Same (e e' : Execution) : Prop where
  id : e'.id = e.id
  jobId : e'.jobId = e.jobId
  startedAt : e'.startedAt = e.startedAt

theorem Same.rfl {e : Execution} : Same e e := ⟨.refl _, .refl _, .refl _⟩

theorem Same.symm {e e' : Execution} (h : Same e e') : Same e' e :=
  ⟨h.id.symm, h.jobId.symm, h.startedAt.symm⟩

theorem Same.trans {a b c : Execution} (hab : Same a b) (hbc : Same b c) : Same a c :=
  ⟨hbc.id.trans hab.id, hbc.jobId.trans hab.jobId, hbc.startedAt.trans hab.startedAt⟩

/-- What a call saves: versions of one execution, of a job it found. -/
structure Version (calls : ExecutionCalls) (db : Database) (jobs : List Job) (jobId : Value)
    (e : Execution) : Prop where
  id : e.id = calls.executionId
  jobId : notNull none db.readUuid jobId = some e.jobId
  startedAt : e.startedAt = calls.startedAt
  job : ∃ job ∈ jobs, job.id = e.jobId

section Versions

variable {rt : Runtime} {db : Database} {calls : ExecutionCalls} {jobs : List Job}
  {jobId scheduleId correlationId : Value} {e e' : Execution}

theorem same_of_onCompleted {result : Value} (h : onCompleted db calls result e = some e') :
    Same e e' := by
  simp only [onCompleted, Option.bind_eq_bind, Option.bind_eq_some_iff, Option.some.injEq] at h
  obtain ⟨-, -, rfl⟩ := h
  exact ⟨rfl, rfl, rfl⟩

theorem same_of_onFailed {error : Value} (h : onFailed db calls error e = some e') :
    Same e e' := by
  simp only [onFailed, Option.bind_eq_bind, Option.bind_eq_some_iff, Option.some.injEq] at h
  obtain ⟨-, -, rfl⟩ := h
  exact ⟨rfl, rfl, rfl⟩

theorem same_of_mem_handleError {error : Value} {o : Option Execution}
    (ho : ∀ e₀, o = some e₀ → Same e e₀) (h : e' ∈ (handleError db calls error o).1) :
    Same e e' := by
  obtain ⟨-, -, hbind⟩ := mem_handleError.mp h
  obtain ⟨e₀, he₀, hfailed⟩ := Option.bind_eq_some_iff.mp hbind
  exact (ho e₀ he₀).trans (same_of_onFailed hfailed)

theorem same_of_mem_runTarget {job : Job} (h : e' ∈ (runTarget rt db calls job e).1) :
    Same e e' := by
  cases hends : executeWithTimeout rt calls.target job with
  | rejected error =>
    unfold runTarget at h
    rw [hends] at h
    exact same_of_mem_handleError (fun e₀ he₀ => Option.some.inj he₀ ▸ .rfl) h
  | resolved result =>
    obtain ⟨completed, hcompleted, hcase⟩ := (mem_runTarget_of_resolved hends).mp h
    have hsame := same_of_onCompleted hcompleted
    rcases hcase with ⟨-, rfl⟩ | ⟨-, hfailed⟩
    · exact hsame
    · exact same_of_mem_handleError (fun e₀ he₀ => Option.some.inj he₀ ▸ hsame) hfailed

/-- The id that a text spells is found, or no row is. -/
theorem job_of_newExecution {job : Job}
    (hfound : findOneById db Job.id jobs jobId = .ok (some job))
    (h : newExecution db calls jobId scheduleId correlationId = some e) :
    Version calls db jobs jobId e := by
  simp only [newExecution, Option.bind_eq_bind, Option.bind_eq_some_iff, Option.some.injEq] at h
  obtain ⟨id, hid, -, -, -, -, rfl⟩ := h
  refine ⟨rfl, hid, rfl, job, mem_of_findOneById hfound, ?_⟩
  cases jobId with
  | str text =>
    have hread : db.readUuid (.str text) = some id := by
      rw [← hid]
      exact (notNull_of_not_isNullish rfl).symm
    unfold findOneById at hfound
    simp only [hread, Except.ok.injEq] at hfound
    have hkey := List.find?_some hfound
    exact of_decide_eq_true hkey
  | undefined => cases hid
  | null => cases hid
  | _ => cases hid

/-- The versions come one after another. -/
theorem version_of_mem_executeJob
    (h : e ∈ (executeJob rt db calls jobs jobId scheduleId correlationId).1) :
    Version calls db jobs jobId e := by
  by_cases hstarts : ∃ job execution,
      Starts db calls jobs jobId scheduleId correlationId job execution
  · obtain ⟨job, execution, hstarts⟩ := hstarts
    have hversion := job_of_newExecution hstarts.found hstarts.row
    rw [executeJob_of_starts hstarts] at h
    rcases List.mem_cons.mp h with rfl | h
    · exact hversion
    · obtain ⟨hid, hjob, hstart⟩ := same_of_mem_runTarget h
      exact ⟨hid.trans hversion.id, by rw [hjob]; exact hversion.jobId,
        hstart.trans hversion.startedAt, by rw [hjob]; exact hversion.job⟩
  · -- the save of RUNNING is the only one
    have hnew := mem_executeJob_of_not_starts hstarts h
    unfold executeJob at h
    split at h
    · cases h
    · split at h
      · cases h
      · cases h
      · rename_i job hfound
        exact job_of_newExecution hfound hnew

/-- So two of them are of one execution. -/
theorem Version.same (h : Version calls db jobs jobId e) (h' : Version calls db jobs jobId e') :
    Same e e' :=
  ⟨h'.id.trans h.id.symm, Option.some.inj (h'.jobId.symm.trans h.jobId),
    h'.startedAt.trans h.startedAt.symm⟩

end Versions

/-! ## Every state -/

structure Sound (s : Sys) : Prop where
  categories : (s.store.categories.map JobCategory.id).Nodup
  categorised : ∀ job ∈ s.store.jobs.rows, ∀ c, job.categoryId = some c →
    c ∈ s.store.categories.map JobCategory.id
  rows : ∀ row ∈ s.table.rows, row.id ∈ s.used ∧ ∃ job ∈ s.store.jobs.rows, job.id = row.jobId
  pending : ∀ q, ∀ e ∈ s.pending q, e.id ∈ s.used ∧ ∃ job ∈ s.store.jobs.rows, job.id = e.jobId
  /-- A call saves versions of one execution … -/
  alike : ∀ q, ∀ e ∈ s.pending q, ∀ e' ∈ s.pending q, Same e e'
  /-- … of which the row it has saved is one … -/
  saved : ∀ q, ∀ e ∈ s.pending q, ∀ row ∈ s.table.rows, row.id = e.id → Same e row.toExecution
  /-- … and another call has another. -/
  apart : ∀ q, ∀ e ∈ s.pending q, ∀ q', ∀ e' ∈ s.pending q', e.id = e'.id → q = q'

/-- What a step leaves of the tables. -/
structure Kept (s s' : Sys) : Prop where
  categories : s'.store.categories = s.store.categories
  jobs : ∀ job ∈ s.store.jobs.rows, job ∈ s'.store.jobs.rows
  rows : ∀ row ∈ s.table.rows, ∃ row' ∈ s'.table.rows, Same row.toExecution row'.toExecution

section Steps

variable {E : Env} {s s' s'' : Sys} {ev : Event}

theorem Kept.rfl : Kept s s := ⟨.refl _, fun _ h => h, fun row hrow => ⟨row, hrow, .rfl⟩⟩

theorem Kept.trans (h : Kept s s') (h' : Kept s' s'') : Kept s s'' where
  categories := h'.categories.trans h.categories
  jobs job hjob := h'.jobs job (h.jobs job hjob)
  rows row hrow := by
    obtain ⟨row', hrow', hsame⟩ := h.rows row hrow
    obtain ⟨row'', hrow'', hsame'⟩ := h'.rows row' hrow'
    exact ⟨row'', hrow'', hsame.trans hsame'⟩

/-- What a save does: a row of the table is the version saved, or a row of before. -/
structure Saved (t : ExecutionTable) (e : Execution) (t' : ExecutionTable) : Prop where
  new : ∀ row ∈ t'.rows, row.toExecution = e ∨ row ∈ t.rows ∧ row.id ≠ e.id
  old : ∀ row ∈ t.rows, row.id ≠ e.id → row ∈ t'.rows
  mem : ∃ row ∈ t'.rows, row.toExecution = e

theorem saveExecution_spec {t t' : ExecutionTable} {createdAt : Int} {e : Execution}
    (h : saveExecution t createdAt e = some t') : Saved t e t' := by
  unfold saveExecution at h
  split at h
  · rename_i row hget
    obtain rfl := Option.some.inj h
    obtain ⟨hmem, hkey⟩ := Keyed.get_eq_some.mp hget
    have hrows : ∀ x, x ∈ (t.put { row with toExecution := e }).rows ↔
        ∃ y ∈ t.rows, (if y.id = e.id then { row with toExecution := e } else y) = x :=
      fun x => List.mem_map
    refine ⟨fun x hx => ?_, fun x hx hne => ?_, ?_⟩
    · obtain ⟨y, hy, rfl⟩ := (hrows x).mp hx
      by_cases hid : y.id = e.id
      · rw [if_pos hid]
        exact .inl rfl
      · rw [if_neg hid]
        exact .inr ⟨hy, hid⟩
    · exact (hrows x).mpr ⟨x, hx, if_neg hne⟩
    · exact ⟨_, (hrows _).mpr ⟨row, hmem, if_pos hkey⟩, rfl⟩
  · rename_i hget
    have hrows := Keyed.rows_insert h
    refine ⟨fun x hx => ?_, fun x hx _ => ?_, ?_⟩
    · rw [hrows] at hx
      rcases List.mem_cons.mp hx with rfl | hx
      · exact .inl rfl
      · exact .inr ⟨hx, Keyed.get_eq_none.mp hget x hx⟩
    · rw [hrows]
      exact List.mem_cons_of_mem _ hx
    · exact ⟨_, by rw [hrows]; exact List.mem_cons_self, rfl⟩

/-- The category a new job refers to was found. -/
theorem category_of_newJob {db : Database} {id : Uuid} {dto : CreateJobDto}
    {categories : List JobCategory} {category : JobCategory} {priority : Priority} {job : Job}
    (hfound : findOneById db JobCategory.id categories dto.categoryId = .ok (some category))
    (h : newJob db id dto priority = some job) :
    ∀ c, job.categoryId = some c → c ∈ categories.map JobCategory.id := by
  simp only [newJob, Option.bind_eq_bind, Option.bind_eq_some_iff, Option.some.injEq] at h
  obtain ⟨-, -, -, -, categoryId, hcategory, -, -, -, -, -, -, -, -, -, -, -, -, rfl⟩ := h
  rintro c (rfl : categoryId = some c)
  refine List.mem_map.mpr ⟨category, mem_of_findOneById hfound, ?_⟩
  cases hv : dto.categoryId with
  | str text =>
    rw [hv] at hfound hcategory
    have hread : db.readUuid (.str text) = some c := by
      simp only [nullable, column, Option.map_eq_some_iff] at hcategory
      obtain ⟨c', hc', heq⟩ := hcategory
      rw [hc', Option.some.inj heq]
    unfold findOneById at hfound
    simp only [hread, Except.ok.injEq] at hfound
    have hkey := List.find?_some hfound
    exact of_decide_eq_true hkey
  | undefined =>
    -- then there is none
    rw [hv] at hcategory
    cases hcategory
  | null =>
    rw [hv] at hcategory
    cases hcategory
  | _ =>
    rw [hv] at hcategory
    cases hcategory

/-- `createJob` adds a job of a category there is. -/
structure Creates (st st' : Store) : Prop where
  categories : st'.categories = st.categories
  kept : ∀ job ∈ st.jobs.rows, job ∈ st'.jobs.rows
  new : ∀ job ∈ st'.jobs.rows, job ∈ st.jobs.rows ∨
    ∀ c, job.categoryId = some c → c ∈ st.categories.map JobCategory.id

theorem createJob_creates (db : Database) (id : Uuid) (dto : CreateJobDto) (st : Store) :
    Creates st (createJob db id dto st).1 := by
  rcases createJob_cases db id dto st with ⟨-, e, he⟩ |
    ⟨-, category, job, jobs, hfound, hjob, hinsert, he⟩
  · rw [he]
    exact ⟨rfl, fun _ h => h, fun _ h => .inl h⟩
  · rw [he]
    have hrows := Keyed.rows_insert hinsert
    refine ⟨rfl, fun x hx => ?_, fun x hx => ?_⟩
    · show x ∈ jobs.rows
      rw [hrows]
      exact List.mem_cons_of_mem _ hx
    · have hx' : x ∈ jobs.rows := hx
      rw [hrows] at hx'
      rcases List.mem_cons.mp hx' with rfl | hx'
      · have hcategory : findOneById db JobCategory.id st.categories
            (withDefaults dto category).categoryId = .ok (some category) := hfound
        exact .inr (category_of_newJob hcategory hjob)
      · exact .inl hx'

/-- The steps by what they do to the tables. -/
inductive Step (E : Env) (s : Sys) : Event → Sys → Prop
  | createJob {id : Uuid} {dto : CreateJobDto} {store : Store} (h : Creates s.store store) :
      Step E s (.createJob id dto) { s with store }
  | other {schedules : Keyed Schedule.id} {queues : Queues.Contents} :
      Step E s (.other schedules queues) { s with store := { s.store with schedules, queues } }
  | execute {q : CallId} {calls : ExecutionCalls} {jobId scheduleId correlationId : Value}
      (hidle : s.pending q = []) (hfresh : calls.executionId ∉ s.used) :
      Step E s (.execute q calls jobId scheduleId correlationId)
        { s with
          pending := Function.update s.pending q
            (executeJob E.rt E.db calls s.store.jobs.rows jobId scheduleId correlationId).1
          used := calls.executionId :: s.used }
  | save {q : CallId} {createdAt : Int} {e : Execution} {rest : List Execution}
      {table : ExecutionTable} (hpending : s.pending q = e :: rest)
      (hsaved : Saved s.table e table) :
      Step E s (.save q createdAt)
        { s with table, pending := Function.update s.pending q rest }

theorem step_spec (h : step E s ev = some s') : Step E s ev s' := by
  cases ev with
  | createJob id dto =>
    obtain rfl := Option.some.inj h
    exact .createJob (createJob_creates E.db id dto s.store)
  | other schedules queues =>
    obtain rfl := Option.some.inj h
    exact .other
  | execute q calls jobId scheduleId correlationId =>
    simp only [step] at h
    split at h
    · rename_i hallowed
      rw [Bool.and_eq_true] at hallowed
      obtain rfl := Option.some.inj h
      exact .execute (List.isEmpty_iff.mp hallowed.1) (by simpa using hallowed.2)
    · cases h
  | save q createdAt =>
    simp only [step] at h
    split at h
    · cases h
    · rename_i e rest hpending
      obtain ⟨table, hsave, rfl⟩ := Option.map_eq_some_iff.mp h
      exact .save hpending (saveExecution_spec hsave)

theorem sound_of_initial (h : Initial s) : Sound s where
  categories := h.categories
  categorised := h.categorised
  rows row hrow := ⟨h.used row hrow, h.owned row hrow⟩
  pending q e he := by rw [h.pending] at he; cases he
  alike q e he := by rw [h.pending] at he; cases he
  saved q e he := by rw [h.pending] at he; cases he
  apart q e he := by rw [h.pending] at he; cases he

theorem mem_update_pending {q q' : CallId} {versions : List Execution} {e : Execution}
    (h : e ∈ Function.update s.pending q versions q') :
    q' = q ∧ e ∈ versions ∨ q' ≠ q ∧ e ∈ s.pending q' := by
  by_cases hq : q' = q
  · subst hq
    rw [Function.update_self] at h
    exact .inl ⟨rfl, h⟩
  · rw [Function.update_of_ne hq] at h
    exact .inr ⟨hq, h⟩

/-- A call begins: its id is new, to the rows and to the other calls. -/
theorem sound_execute (hs : Sound s) {q : CallId} {calls : ExecutionCalls} {jobId : Value}
    {versions : List Execution} (hfresh : calls.executionId ∉ s.used)
    (hversions : ∀ e ∈ versions, Version calls E.db s.store.jobs.rows jobId e) :
    Sound { s with
      pending := Function.update s.pending q versions
      used := calls.executionId :: s.used } := by
  have hnew : ∀ e ∈ versions, ∀ id ∈ s.used, e.id ≠ id := by
    rintro e he id hid rfl
    exact hfresh ((hversions e he).id ▸ hid)
  refine ⟨hs.categories, hs.categorised, fun row hrow => ?_, ?_, ?_, ?_, ?_⟩
  · exact ⟨List.mem_cons_of_mem _ (hs.rows row hrow).1, (hs.rows row hrow).2⟩
  · intro q' e he
    rcases mem_update_pending he with ⟨-, he⟩ | ⟨-, he⟩
    · have hversion := hversions e he
      exact ⟨by rw [hversion.id]; exact List.mem_cons_self, hversion.job⟩
    · exact ⟨List.mem_cons_of_mem _ (hs.pending q' e he).1, (hs.pending q' e he).2⟩
  · intro q' e he e' he'
    rcases mem_update_pending he with ⟨hq, he⟩ | ⟨hq, he⟩
    · rcases mem_update_pending he' with ⟨-, he'⟩ | ⟨hq', -⟩
      · exact (hversions e he).same (hversions e' he')
      · exact absurd hq hq'
    · rcases mem_update_pending he' with ⟨hq', -⟩ | ⟨-, he'⟩
      · exact absurd hq' hq
      · exact hs.alike q' e he e' he'
  · intro q' e he row hrow hid
    rcases mem_update_pending he with ⟨-, he⟩ | ⟨-, he⟩
    · exact absurd hid.symm (hnew e he row.id (hs.rows row hrow).1)
    · exact hs.saved q' e he row hrow hid
  · intro q₁ e he q₂ e' he' hid
    rcases mem_update_pending he with ⟨hq₁, he⟩ | ⟨-, he⟩
    · rcases mem_update_pending he' with ⟨hq₂, -⟩ | ⟨-, he'⟩
      · exact hq₁.trans hq₂.symm
      · exact absurd hid (hnew e he e'.id (hs.pending q₂ e' he').1)
    · rcases mem_update_pending he' with ⟨-, he'⟩ | ⟨-, he'⟩
      · exact absurd hid.symm (hnew e' he' e.id (hs.pending q₁ e he).1)
      · exact hs.apart q₁ e he q₂ e' he' hid

/-- A version is saved, and the others of its execution agree with it. -/
theorem sound_save (hs : Sound s) {q : CallId} {e : Execution} {rest : List Execution}
    {table : ExecutionTable} (hpending : s.pending q = e :: rest)
    (hsaved : Saved s.table e table) :
    Sound { s with table, pending := Function.update s.pending q rest } := by
  have hq : e ∈ s.pending q := by
    rw [hpending]
    exact List.mem_cons_self
  have hleft : ∀ q', ∀ e' ∈ Function.update s.pending q rest q', e' ∈ s.pending q' := by
    intro q' e' he'
    rcases mem_update_pending he' with ⟨hq', hrest⟩ | ⟨-, hother⟩
    · rw [hq', hpending]
      exact List.mem_cons_of_mem _ hrest
    · exact hother
  refine ⟨hs.categories, hs.categorised, fun row hrow => ?_, ?_, ?_, ?_, ?_⟩
  · rcases hsaved.new row hrow with hrow | ⟨hrow, -⟩
    · obtain ⟨hused, job, hjob, hid⟩ := hs.pending q e hq
      rw [← hrow] at hused hid
      exact ⟨hused, job, hjob, hid⟩
    · exact hs.rows row hrow
  · intro q' e' he'
    exact hs.pending q' e' (hleft q' e' he')
  · intro q' e₁ he₁ e₂ he₂
    exact hs.alike q' e₁ (hleft q' e₁ he₁) e₂ (hleft q' e₂ he₂)
  · intro q' e' he' row hrow hid
    rcases hsaved.new row hrow with hrow | ⟨hrow, -⟩
    · -- it is the version of the same call
      rw [hrow]
      have hsame : q = q' := hs.apart q e hq q' e' (hleft q' e' he') (by rw [← hrow]; exact hid)
      subst hsame
      exact hs.alike q e' (hleft q e' he') e hq
    · exact hs.saved q' e' (hleft q' e' he') row hrow hid
  · intro q₁ e₁ he₁ q₂ e₂ he₂ hid
    exact hs.apart q₁ e₁ (hleft q₁ e₁ he₁) q₂ e₂ (hleft q₂ e₂ he₂) hid

theorem sound_step (hs : Sound s) (h : step E s ev = some s') : Sound s' := by
  cases step_spec h with
  | @createJob id dto store hcreates =>
    have hjobs : ∀ x : Uuid, (∃ job ∈ s.store.jobs.rows, job.id = x) →
        ∃ job ∈ store.jobs.rows, job.id = x := by
      rintro x ⟨job, hjob, hid⟩
      exact ⟨job, hcreates.kept job hjob, hid⟩
    refine ⟨?_, fun job hjob c hc => ?_, fun row hrow => ?_, fun q e he => ?_, hs.alike, hs.saved,
      hs.apart⟩
    · show (store.categories.map _).Nodup
      rw [hcreates.categories]
      exact hs.categories
    · show c ∈ store.categories.map _
      rw [hcreates.categories]
      rcases hcreates.new job hjob with hold | hnew
      · exact hs.categorised job hold c hc
      · exact hnew c hc
    · exact ⟨(hs.rows row hrow).1, hjobs _ (hs.rows row hrow).2⟩
    · exact ⟨(hs.pending q e he).1, hjobs _ (hs.pending q e he).2⟩
  | other =>
    exact ⟨hs.categories, hs.categorised, hs.rows, hs.pending, hs.alike, hs.saved, hs.apart⟩
  | execute hidle hfresh =>
    exact sound_execute hs hfresh fun e he => version_of_mem_executeJob he
  | save hpending hsaved => exact sound_save hs hpending hsaved

theorem kept_step (hs : Sound s) (h : step E s ev = some s') : Kept s s' := by
  cases step_spec h with
  | createJob hcreates =>
    exact ⟨hcreates.categories, hcreates.kept, fun row hrow => ⟨row, hrow, .rfl⟩⟩
  | other => exact ⟨rfl, fun _ h => h, fun row hrow => ⟨row, hrow, .rfl⟩⟩
  | execute => exact ⟨rfl, fun _ h => h, fun row hrow => ⟨row, hrow, .rfl⟩⟩
  | @save q createdAt e rest table hpending hsaved =>
    refine ⟨rfl, fun _ h => h, fun row hrow => ?_⟩
    by_cases hid : row.id = e.id
    · have hq : e ∈ s.pending q := by
        rw [hpending]
        exact List.mem_cons_self
      obtain ⟨row', hrow', heq⟩ := hsaved.mem
      refine ⟨row', hrow', ?_⟩
      rw [heq]
      exact (hs.saved q e hq row hrow hid).symm
    · exact ⟨row, hsaved.old row hrow hid, .rfl⟩

variable {C : Sys → Event → Prop}

theorem sound_of_reachable (h : (machine E).Reachable C s) : Sound s := by
  refine h.invariant (fun _ => sound_of_initial) fun x ev x' hs _ hstep => ?_
  have hstep' : step E x ev = some x' := hstep
  exact sound_step hs hstep'

/-- **Nothing is lost.** -/
theorem kept_of_run (hs : Sound s) (h : (machine E).Run C s s') : Kept s s' := by
  have hall : Sound s' ∧ Kept s s' :=
    h.invariant (I := fun x => Sound x ∧ Kept s x) (fun x ev x' hx _ hstep => by
      have hstep' : step E x ev = some x' := hstep
      exact ⟨sound_step hx.1 hstep', hx.2.trans (kept_step hx.1 hstep')⟩) ⟨hs, .rfl⟩
  exact hall.2

end Steps

/-! ## A small run -/

def plainEnv : Env where
  rt := quietRuntime
  db := plainDatabase

/-- The table has two executions of a job. -/
def twoExecuted : Sys where
  store := oneJob { cleanupJob with id := "job-1" }
  table := ⟨[executionAt "a" 1000, executionAt "b" 2000], by decide⟩
  pending _ := []
  used := ["a", "b"]

theorem initial_twoExecuted : Initial twoExecuted := by
  refine ⟨List.nodup_nil, ?_, ?_, ?_, rfl⟩
  · intro job hjob c hc
    obtain rfl := List.mem_singleton.mp hjob
    cases hc
  · show ∀ row ∈ [executionAt "a" 1000, executionAt "b" 2000], _
    exact List.forall_mem_cons.mpr ⟨⟨_, List.mem_cons_self, rfl⟩,
      List.forall_mem_singleton.mpr ⟨_, List.mem_cons_self, rfl⟩⟩
  · decide

/-- The record of a third is saved for the first time. -/
def thirdStarts : List Event :=
  [.execute 0 { completeThrows with executionId := "c", startedAt := 3000 } (.str "job-1")
      .undefined .undefined,
    .save 0 3000]

end SchedulingService.Executions
