import SchedulingService.App.Tables

/-!
# The category migration

`InitialSchema` keeps a category from being deleted while jobs refer to it.
`JobsCategoryFkSetNull` gives it up: the jobs stay, without one.

Main results:

* `up_keeps_rows` — `up` completes on whatever rows there are;
* `delete_categories` — what a deletion of categories leaves after it.
-/

namespace SchedulingService.App.Migrations

open Lib.Relational

section Migrations

variable {Uuid Rest : Type*}

/-! ## The migrations -/

/-- The part of `InitialSchema` that is about these columns, in its order. Every
foreign key is ON UPDATE NO ACTION. -/
def InitialSchema.up : List (Statement (Row Uuid Rest) Column) :=
  [.setNotNull .jobsCategoryId,
    .addForeignKey ⟨"FK_jobs_category_id", .jobsCategoryId, .noAction⟩,
    .setNotNull .schedulesJobId,
    .addForeignKey ⟨"FK_schedules_job_id", .schedulesJobId, .cascade⟩,
    .setNotNull .executionsJobId,
    .addForeignKey ⟨"FK_executions_job_id", .executionsJobId, .noAction⟩,
    .addForeignKey ⟨"FK_executions_schedule_id", .executionsScheduleId, .noAction⟩,
    .setNotNull .executionLogsExecutionId,
    .addForeignKey ⟨"FK_execution_logs_execution_id", .executionLogsExecutionId, .cascade⟩,
    .setNotNull .recurringJobsTemplateJobId,
    .addForeignKey
      ⟨"FK_recurring_jobs_template_job_id", .recurringJobsTemplateJobId, .noAction⟩,
    .setNotNull .jobDependenciesJobId,
    .setNotNull .jobDependenciesDependsOnJobId,
    .addForeignKey ⟨"FK_job_dependencies_job_id", .jobDependenciesJobId, .cascade⟩,
    .addForeignKey
      ⟨"FK_job_dependencies_depends_on_job_id", .jobDependenciesDependsOnJobId, .noAction⟩]

def JobsCategoryFkSetNull.up : List (Statement (Row Uuid Rest) Column) :=
  [.dropConstraint "FK_jobs_category_id",
    .dropNotNull .jobsCategoryId,
    .addForeignKey ⟨"FK_jobs_category_id", .jobsCategoryId, .setNull⟩]

def JobsCategoryFkSetNull.down : List (Statement (Row Uuid Rest) Column) :=
  [.dropConstraint "FK_jobs_category_id",
    -- DELETE FROM "jobs" WHERE "category_id" IS NULL
    .delete (Row.isNull .jobsCategoryId),
    .setNotNull .jobsCategoryId,
    .addForeignKey ⟨"FK_jobs_category_id", .jobsCategoryId, .noAction⟩]

/-! ## The schemas -/

/-- The foreign keys but for the one on the category. -/
def otherForeignKeys : List (ForeignKey Column) :=
  [⟨"FK_schedules_job_id", .schedulesJobId, .cascade⟩,
    ⟨"FK_executions_job_id", .executionsJobId, .noAction⟩,
    ⟨"FK_executions_schedule_id", .executionsScheduleId, .noAction⟩,
    ⟨"FK_execution_logs_execution_id", .executionLogsExecutionId, .cascade⟩,
    ⟨"FK_recurring_jobs_template_job_id", .recurringJobsTemplateJobId, .noAction⟩,
    ⟨"FK_job_dependencies_job_id", .jobDependenciesJobId, .cascade⟩,
    ⟨"FK_job_dependencies_depends_on_job_id", .jobDependenciesDependsOnJobId, .noAction⟩]

theorem no_setNull : ∀ fk ∈ otherForeignKeys, fk.onDelete ≠ .setNull := by
  decide

def requiredColumns : List Column :=
  [.schedulesJobId, .executionsJobId, .executionLogsExecutionId, .recurringJobsTemplateJobId,
    .jobDependenciesJobId, .jobDependenciesDependsOnJobId]

/-- The schema before `up`. -/
def initial : Schema Column where
  foreignKeys := ⟨"FK_jobs_category_id", .jobsCategoryId, .noAction⟩ :: otherForeignKeys
  notNull := .jobsCategoryId :: requiredColumns

/-- The schema that `up` leaves. -/
def upgraded : Schema Column where
  foreignKeys :=
    otherForeignKeys ++ [⟨"FK_jobs_category_id", .jobsCategoryId, .setNull⟩]
  notNull := requiredColumns

variable {rows : List (Row Uuid Rest)}

/-- Only categories go with a deletion of categories. -/
theorem doomed_categories {p : Row Uuid Rest → Bool}
    (hp : ∀ r, p r = true → r.key.1 = .jobCategories) {k : Table × Uuid}
    (h : Doomed (layout Uuid Rest) rows upgraded.foreignKeys p k) :
    k.1 = .jobCategories ∧ ∃ r ∈ rows, p r = true ∧ r.key = k := by
  have hcascades : ∀ fk ∈ upgraded.foreignKeys, fk.onDelete = .cascade →
      fk.column.references ≠ .jobCategories := by
    decide
  induction h with
  | @seed r hr hdeleted => exact ⟨hp r hdeleted, r, hr, hdeleted, rfl⟩
  | @cascade r fk k _ hfk hcascade href _ ih =>
    obtain ⟨id, -, rfl⟩ := ref_eq_some_iff.mp href
    exact absurd ih.1 (hcascades fk hfk hcascade)

variable [DecidableEq Uuid]

/-- The states the service can leave the database in: rows are inserted, updated and
deleted once the schema is there. -/
def BeforeUp (db : Database (layout Uuid Rest)) : Prop :=
  ∃ db₀, (Database.empty (layout Uuid Rest)).run InitialSchema.up = some db₀ ∧
    Machine.Run (server _) (fun _ s => s.isData = true) db₀ db

/-- The same once the migration is done, and rows have been changed before it and after
it. -/
def AfterUp (db : Database (layout Uuid Rest)) : Prop :=
  ∃ db₁ db₂, BeforeUp db₁ ∧ db₁.run JobsCategoryFkSetNull.up = some db₂ ∧
    Machine.Run (server _) (fun _ s => s.isData = true) db₂ db

theorem schema_of_beforeUp {db : Database (layout Uuid Rest)} (h : BeforeUp db) :
    db.schema = initial := by
  obtain ⟨db₀, hinitial, hdata⟩ := h
  rw [schema_of_data_run hdata, schema_of_run hinitial]
  rfl

theorem schema_of_afterUp {db : Database (layout Uuid Rest)} (h : AfterUp db) :
    db.schema = upgraded := by
  obtain ⟨db₁, db₂, hbefore, hup, hdata⟩ := h
  rw [schema_of_data_run hdata, schema_of_run hup, schema_of_beforeUp hbefore]
  rfl

/-! ## What `up` is for -/

/-- `up` completes on whatever rows there are, and keeps them. -/
theorem up_keeps_rows {db : Database (layout Uuid Rest)} (h : BeforeUp db) :
    ∃ db', db.run JobsCategoryFkSetNull.up = some db' ∧ db'.rows = db.rows := by
  have hschema : db.schema = initial := schema_of_beforeUp h
  clear h
  obtain ⟨S, rows, hconsistent⟩ := db
  obtain rfl : S = initial := hschema
  have hdrop := hconsistent.dropConstraint "FK_jobs_category_id"
  have hnullable := hdrop.dropNotNull .jobsCategoryId
  -- the new foreign key holds as the old one did
  have hadd := hnullable.addForeignKey ⟨"FK_jobs_category_id", .jobsCategoryId, .setNull⟩
    fun r hr k href => hconsistent.references
      ⟨"FK_jobs_category_id", .jobsCategoryId, .noAction⟩ List.mem_cons_self r hr k href
  simp only [JobsCategoryFkSetNull.up, run_cons_eq_some_iff, run_nil, Option.some.injEq]
  refine ⟨⟨_, _, hadd⟩, ⟨⟨_, _, hdrop⟩, ?_, ⟨_, _, hnullable⟩, ?_, _, ?_, rfl⟩, rfl⟩
  · exact exec_eq_some_iff.mpr ⟨rfl, rfl, rfl⟩
  · exact exec_eq_some_iff.mpr ⟨rfl, rfl, rfl⟩
  · exact exec_eq_some_iff.mpr ⟨rfl, rfl, rfl⟩

/-- The row once categories are deleted: a job of one of them has none. -/
def Row.withoutCategory (deleted : List (Table × Uuid)) (r : Row Uuid Rest) : Row Uuid Rest :=
  if ((layout Uuid Rest).ref .jobsCategoryId r).any fun k => decide (k ∈ deleted) then
    r.clear .jobsCategoryId
  else r

/-- The keys that go with a deletion of categories are theirs. -/
theorem mem_doomed_categories {p : Row Uuid Rest → Bool}
    (hp : ∀ r, p r = true → r.key.1 = .jobCategories) {k : Table × Uuid} :
    k ∈ doomed (layout Uuid Rest) rows upgraded.foreignKeys p ↔
      k ∈ (rows.filter p).map Row.key := by
  rw [mem_doomed, List.mem_map]
  constructor
  · intro h
    obtain ⟨-, r, hr, hdeleted, hkey⟩ := doomed_categories hp h
    exact ⟨r, List.mem_filter.mpr ⟨hr, hdeleted⟩, hkey⟩
  · rintro ⟨r, hr, rfl⟩
    obtain ⟨hrow, hdeleted⟩ := List.mem_filter.mp hr
    exact .seed hrow hdeleted

theorem release_upgraded {keys deleted : List (Table × Uuid)}
    (hkeys : ∀ k, k ∈ keys ↔ k ∈ deleted) (r : Row Uuid Rest) :
    release (layout Uuid Rest) upgraded.foreignKeys keys r = r.withoutCategory deleted := by
  rw [upgraded, release_append, release_of_no_setNull no_setNull]
  simp only [release, List.foldl_cons, List.foldl_nil, refersBy, List.any_cons, List.any_nil,
    Bool.or_false, decide_true, Bool.true_and, hkeys]
  rfl

/-- A category can always be deleted once `up` is done. Every other row stays, the jobs of
the category without one. -/
theorem delete_categories {db : Database (layout Uuid Rest)} (h : AfterUp db)
    {p : Row Uuid Rest → Bool} (hp : ∀ r, p r = true → r.key.1 = .jobCategories) :
    ∃ db', db.exec (.delete p) = some db' ∧ AfterUp db' ∧
      db'.rows = (db.rows.filter fun r => !p r).map
        (Row.withoutCategory ((db.rows.filter p).map Row.key)) := by
  have hschema : db.schema = upgraded := schema_of_afterUp h
  have hconsistent := db.consistent
  rw [hschema] at hconsistent
  have hnoAction : ∀ fk ∈ upgraded.foreignKeys, fk.onDelete = .noAction →
      fk.column.references ≠ .jobCategories := by
    decide
  have hallowed : Consistent (layout Uuid Rest) upgraded
      (afterDelete (layout Uuid Rest) db.rows upgraded.foreignKeys p) := by
    refine consistent_afterDelete layout_lawful hconsistent (by decide) ?_
    intro fk hfk haction r _ k href hdoomed
    obtain ⟨id, -, rfl⟩ := ref_eq_some_iff.mp href
    exact hnoAction fk hfk haction (doomed_categories hp hdoomed).1
  -- keys are unique, so that the rows that go are those deleted
  have hgoes : ∀ r ∈ db.rows, (layout Uuid Rest).key r ∈
      doomed (layout Uuid Rest) db.rows upgraded.foreignKeys p ↔ p r = true := by
    intro r hr
    rw [mem_doomed_categories hp]
    constructor
    · intro hkey
      obtain ⟨r', hr', hsame⟩ := List.mem_map.mp hkey
      obtain ⟨hrow, hdeleted⟩ := List.mem_filter.mp hr'
      obtain rfl := hconsistent.eq_of_key hrow hr hsame
      exact hdeleted
    · intro hdeleted
      exact List.mem_map_of_mem (List.mem_filter.mpr ⟨hr, hdeleted⟩)
  have hexec : db.exec (.delete p) = some ⟨upgraded, _, hallowed⟩ := by
    refine exec_eq_some_iff.mpr ⟨rfl, hschema.symm, ?_⟩
    rw [hschema]
    rfl
  refine ⟨_, hexec, ?_, ?_⟩
  · obtain ⟨db₁, db₂, hbefore, hup, hdata⟩ := h
    exact ⟨db₁, db₂, hbefore, hup, .tail (e := .delete p) hdata rfl hexec⟩
  · show afterDelete _ _ _ _ = _
    rw [afterDelete, survivors_eq_filter hgoes]
    exact List.map_congr_left fun r _ =>
      release_upgraded (fun k => mem_doomed_categories hp) r

end Migrations

end SchedulingService.App.Migrations
