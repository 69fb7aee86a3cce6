import SchedulingService.App.Migrations

/-!
# Taking the category migration back

`down` deletes the jobs that have come to be without a category. What the other tables
hold of these jobs decides whether it can, by the foreign keys on them, and what goes
with them.

Main result: `down_safe_iff` — when `down` completes and leaves the jobs that have a
category as they are.
-/

namespace SchedulingService.App.Migrations

open Lib.Relational

section Rollback

variable {Uuid Rest : Type*}

/-! ## What the foreign keys do when a job is deleted -/

def cascadingColumns : List Column :=
  [.schedulesJobId, .executionLogsExecutionId, .jobDependenciesJobId]

def blockingColumns : List Column :=
  [.executionsJobId, .executionsScheduleId, .recurringJobsTemplateJobId,
    .jobDependenciesDependsOnJobId]

theorem cascading_iff {P : Column → Prop} :
    (∀ fk ∈ otherForeignKeys, fk.onDelete = .cascade → P fk.column) ↔
      ∀ c ∈ cascadingColumns, P c := by
  simp [otherForeignKeys, cascadingColumns]

theorem blocking_iff {P : Column → Prop} :
    (∀ fk ∈ otherForeignKeys, fk.onDelete = .noAction → P fk.column) ↔
      ∀ c ∈ blockingColumns, P c := by
  simp [otherForeignKeys, blockingColumns]

/-! ## What the deletion takes away -/

/-- The row with this key goes with the jobs that have no category. -/
abbrev SweptKey (rows : List (Row Uuid Rest)) (k : Table × Uuid) : Prop :=
  Doomed (layout Uuid Rest) rows otherForeignKeys (Row.isNull .jobsCategoryId) k

/-- The job is there and has no category. -/
def Uncategorised (rows : List (Row Uuid Rest)) (id : Uuid) : Prop :=
  ∃ rest, Row.job id none rest ∈ rows

/-- The schedule is there and is one of a job without a category. -/
def OfUncategorised (rows : List (Row Uuid Rest)) (id : Uuid) : Prop :=
  ∃ jobId rest, Row.schedule id (some jobId) rest ∈ rows ∧ Uncategorised rows jobId

/-- The row is a job without a category or refers to one by a cascade. -/
def Row.Swept (rows : List (Row Uuid Rest)) : Row Uuid Rest → Prop
  | .job _ categoryId _ => categoryId = none
  | .schedule _ jobId _ => ∃ id, jobId = some id ∧ Uncategorised rows id
  | .jobDependency _ jobId _ _ => ∃ id, jobId = some id ∧ Uncategorised rows id
  | _ => False

variable {rows : List (Row Uuid Rest)} {S : Schema Column}

theorem uncategorised_of_swept {r : Row Uuid Rest} {id : Uuid} (hr : r ∈ rows)
    (hkey : r.key = (.jobs, id)) (h : r.Swept rows) : Uncategorised rows id := by
  obtain ⟨categoryId, rest, rfl⟩ := exists_job_of_key hkey
  obtain rfl : categoryId = none := h
  exact ⟨rest, hr⟩

/-- What refers by a cascade to a row that goes refers to a job: no cascade has a
second step. -/
theorem swept_of_cascade {r r' : Row Uuid Rest} (hr' : r' ∈ rows) (h : r'.Swept rows) :
    ∀ c ∈ cascadingColumns, (layout Uuid Rest).ref c r = some r'.key → r.Swept rows := by
  intro c hc href
  obtain ⟨id, hvalue, hkey⟩ := ref_eq_some_iff.mp href
  simp only [cascadingColumns, List.mem_cons, List.not_mem_nil, or_false] at hc
  rcases hc with rfl | rfl | rfl
  · -- a schedule, and so of a job that goes
    cases r with
    | schedule _ jobId _ =>
      obtain rfl : jobId = some id := Option.some.inj hvalue
      exact ⟨id, rfl, uncategorised_of_swept hr' hkey h⟩
    | _ => exact absurd hvalue (by simp [Row.value])
  · -- a log is one of an execution, and no execution goes
    cases r' with
    | execution _ _ _ _ => exact h.elim
    | _ => exact absurd (Prod.mk.inj hkey).1 (by decide)
  · -- a dependency of a job that goes
    cases r with
    | jobDependency _ jobId _ _ =>
      obtain rfl : jobId = some id := Option.some.inj hvalue
      exact ⟨id, rfl, uncategorised_of_swept hr' hkey h⟩
    | _ => exact absurd hvalue (by simp [Row.value])

theorem sweptKey_of_uncategorised {id : Uuid} (h : Uncategorised rows id) :
    SweptKey rows (.jobs, id) := by
  obtain ⟨rest, hjob⟩ := h
  exact Doomed.seed hjob rfl

/-- **What goes.** The jobs without a category go, their schedules and their
dependencies on others. -/
theorem sweptKey_iff {k : Table × Uuid} :
    SweptKey rows k ↔ ∃ r ∈ rows, r.key = k ∧ r.Swept rows := by
  constructor
  · intro h
    induction h with
    | @seed r hr hnull =>
      obtain ⟨id, rest, rfl⟩ := isNull_jobsCategoryId.mp hnull
      exact ⟨_, hr, rfl, rfl⟩
    | @cascade r fk k hr hfk hcascade href _ ih =>
      obtain ⟨r', hr', rfl, hswept⟩ := ih
      have hcolumn := cascading_iff.mpr (swept_of_cascade (r := r) hr' hswept)
      exact ⟨r, hr, rfl, hcolumn fk hfk hcascade href⟩
  · rintro ⟨r, hr, rfl, hswept⟩
    cases r with
    | job id categoryId rest =>
      obtain rfl : categoryId = none := hswept
      exact sweptKey_of_uncategorised ⟨rest, hr⟩
    | schedule id jobId rest =>
      obtain ⟨job, rfl, hjob⟩ := hswept
      have hfk : ⟨"FK_schedules_job_id", .schedulesJobId, .cascade⟩ ∈ otherForeignKeys := by
        decide
      exact Doomed.cascade hr hfk rfl rfl (sweptKey_of_uncategorised hjob)
    | jobDependency id jobId dependsOnJobId rest =>
      obtain ⟨job, rfl, hjob⟩ := hswept
      have hfk : ⟨"FK_job_dependencies_job_id", .jobDependenciesJobId, .cascade⟩ ∈
          otherForeignKeys := by
        decide
      exact Doomed.cascade hr hfk rfl rfl (sweptKey_of_uncategorised hjob)
    | _ => exact hswept.elim

theorem sweptKey_jobs_iff {id : Uuid} : SweptKey rows (.jobs, id) ↔ Uncategorised rows id := by
  constructor
  · intro h
    obtain ⟨r, hr, hkey, hswept⟩ := sweptKey_iff.mp h
    exact uncategorised_of_swept hr hkey hswept
  · exact sweptKey_of_uncategorised

theorem sweptKey_schedules_iff {id : Uuid} :
    SweptKey rows (.schedules, id) ↔ OfUncategorised rows id := by
  rw [sweptKey_iff]
  constructor
  · rintro ⟨r, hr, hkey, hswept⟩
    cases r with
    | schedule id' jobId rest =>
      obtain rfl : id' = id := (Prod.mk.inj hkey).2
      obtain ⟨job, rfl, hjob⟩ := hswept
      exact ⟨job, rest, hr, hjob⟩
    | _ => exact absurd (Prod.mk.inj hkey).1 (by decide)
  · rintro ⟨jobId, rest, hr, hjob⟩
    exact ⟨_, hr, rfl, jobId, rfl, hjob⟩

/-- Keys are unique, so that the row with a key that goes is one that does. -/
theorem sweptKey_key_iff (hconsistent : Consistent (layout Uuid Rest) S rows)
    {r : Row Uuid Rest} (hr : r ∈ rows) : SweptKey rows r.key ↔ r.Swept rows := by
  rw [sweptKey_iff]
  constructor
  · rintro ⟨r', hr', hkey, hswept⟩
    obtain rfl := hconsistent.eq_of_key hr' hr hkey
    exact hswept
  · intro hswept
    exact ⟨r, hr, rfl, hswept⟩

theorem not_uncategorised_of_job (hconsistent : Consistent (layout Uuid Rest) S rows)
    {id categoryId : Uuid} {rest : Rest} (h : Row.job id (some categoryId) rest ∈ rows) :
    ¬ Uncategorised rows id := by
  rintro ⟨rest', hnull⟩
  have heq := hconsistent.eq_of_key h hnull rfl
  simp at heq

/-- The schema in which `down` deletes. -/
def dropped : Schema Column := ⟨otherForeignKeys, requiredColumns⟩

/-! ## When the deletion is allowed -/

/-- No NO ACTION refers from the row, if it is left, to one that goes. -/
def Row.Unblocking (rows : List (Row Uuid Rest)) : Row Uuid Rest → Prop
  | .execution _ jobId scheduleId _ =>
    (∀ id, jobId = some id → ¬ Uncategorised rows id) ∧
      ∀ id, scheduleId = some id → ¬ OfUncategorised rows id
  | .recurringJob _ templateJobId _ => ∀ id, templateJobId = some id → ¬ Uncategorised rows id
  | .jobDependency _ jobId dependsOnJobId _ =>
    ∀ id id', jobId = some id → dependsOnJobId = some id' →
      Uncategorised rows id' → Uncategorised rows id
  | _ => True

theorem unblocking_of_spared (hconsistent : Consistent (layout Uuid Rest) dropped rows)
    (hspared : ∀ c ∈ blockingColumns, ∀ r ∈ rows, ¬ SweptKey rows r.key →
      ∀ k, (layout Uuid Rest).ref c r = some k → ¬ SweptKey rows k)
    {r : Row Uuid Rest} (hr : r ∈ rows) : r.Unblocking rows := by
  have hkey : SweptKey rows r.key ↔ r.Swept rows := sweptKey_key_iff hconsistent hr
  cases r with
  | execution id jobId scheduleId rest =>
    have hstays : ¬ SweptKey rows (Row.key (.execution id jobId scheduleId rest)) := hkey.mp
    refine ⟨fun job hjob huncategorised => ?_, fun schedule hschedule hof => ?_⟩
    · subst hjob
      exact hspared .executionsJobId (by decide) _ hr hstays _ rfl
        (sweptKey_jobs_iff.mpr huncategorised)
    · subst hschedule
      exact hspared .executionsScheduleId (by decide) _ hr hstays _ rfl
        (sweptKey_schedules_iff.mpr hof)
  | recurringJob id templateJobId rest =>
    have hstays : ¬ SweptKey rows (Row.key (.recurringJob id templateJobId rest)) := hkey.mp
    intro job hjob huncategorised
    subst hjob
    exact hspared .recurringJobsTemplateJobId (by decide) _ hr hstays _ rfl
      (sweptKey_jobs_iff.mpr huncategorised)
  | jobDependency id jobId dependsOnJobId rest =>
    intro job other hjob hother huncategorised
    subst hjob hother
    by_contra hcategorised
    -- the dependency stays, with the job that it is of
    have hstays : ¬ SweptKey rows (Row.key (.jobDependency id (some job) (some other) rest)) := by
      rw [hkey]
      rintro ⟨job', hjob', hgoes⟩
      obtain rfl := Option.some.inj hjob'
      exact hcategorised hgoes
    exact hspared .jobDependenciesDependsOnJobId (by decide) _ hr hstays _ rfl
      (sweptKey_jobs_iff.mpr huncategorised)
  | _ => trivial

theorem spared_of_unblocking (hconsistent : Consistent (layout Uuid Rest) dropped rows)
    {r : Row Uuid Rest} (hr : r ∈ rows) (h : r.Unblocking rows) {c : Column}
    (hc : c ∈ blockingColumns) (hstays : ¬ SweptKey rows r.key) {k : Table × Uuid}
    (href : (layout Uuid Rest).ref c r = some k) : ¬ SweptKey rows k := by
  obtain ⟨id, hvalue, rfl⟩ := ref_eq_some_iff.mp href
  simp only [blockingColumns, List.mem_cons, List.not_mem_nil, or_false] at hc
  rcases hc with rfl | rfl | rfl | rfl
  · -- an execution, by its job
    cases r with
    | execution _ jobId _ _ =>
      show ¬ SweptKey rows (.jobs, id)
      rw [sweptKey_jobs_iff]
      exact h.1 id (Option.some.inj hvalue)
    | _ => exact absurd hvalue (by simp [Row.value])
  · -- an execution, by its schedule
    cases r with
    | execution _ _ scheduleId _ =>
      show ¬ SweptKey rows (.schedules, id)
      rw [sweptKey_schedules_iff]
      exact h.2 id (Option.some.inj hvalue)
    | _ => exact absurd hvalue (by simp [Row.value])
  · -- a recurring pattern
    cases r with
    | recurringJob _ templateJobId _ =>
      show ¬ SweptKey rows (.jobs, id)
      rw [sweptKey_jobs_iff]
      exact h id (Option.some.inj hvalue)
    | _ => exact absurd hvalue (by simp [Row.value])
  · -- a dependency, by the job depended on
    cases r with
    | jobDependency _ jobId dependsOnJobId _ =>
      show ¬ SweptKey rows (.jobs, id)
      rw [sweptKey_jobs_iff]
      intro huncategorised
      cases jobId with
      | none =>
        -- the column is not null
        have hnotNull := hconsistent.notNull .jobDependenciesJobId (by decide) _ hr
        simp [layout, Row.isNull, Row.value] at hnotNull
      | some job =>
        rw [sweptKey_key_iff hconsistent hr] at hstays
        exact hstays ⟨job, rfl, h job id rfl (Option.some.inj hvalue) huncategorised⟩
    | _ => exact absurd hvalue (by simp [Row.value])

/-! ## What it leaves alone -/

/-- The jobs of `rows` that have a category, and what refers to them, are in `rows'`
what they are in `rows`. -/
def Unharmed (rows rows' : List (Row Uuid Rest)) : Prop :=
  ∀ id categoryId rest, Row.job id (some categoryId) rest ∈ rows →
    ∀ r, (r = .job id (some categoryId) rest ∨
        ∃ c, (layout Uuid Rest).ref c r = some (.jobs, id)) →
      (r ∈ rows' ↔ r ∈ rows)

/-- The row does not go by one job while it refers to another that stays. -/
def Row.Loose (rows : List (Row Uuid Rest)) : Row Uuid Rest → Prop
  | .jobDependency _ jobId dependsOnJobId _ =>
    ∀ id id', jobId = some id → dependsOnJobId = some id' →
      Uncategorised rows id → Uncategorised rows id'
  | _ => True

theorem not_swept_of_loose (hconsistent : Consistent (layout Uuid Rest) dropped rows)
    {id categoryId : Uuid} {rest : Rest} (hjob : Row.job id (some categoryId) rest ∈ rows)
    {r : Row Uuid Rest} (h : r.Loose rows) {c : Column}
    (href : (layout Uuid Rest).ref c r = some (.jobs, id)) : ¬ r.Swept rows := by
  have hcategorised := not_uncategorised_of_job hconsistent hjob
  obtain ⟨id', hvalue, hkey⟩ := ref_eq_some_iff.mp href
  obtain rfl : id = id' := (Prod.mk.inj hkey).2
  intro hswept
  cases r with
  | job _ _ _ =>
    -- it refers to a category only
    cases c with
    | jobsCategoryId => exact absurd (Prod.mk.inj hkey).1 (by decide)
    | _ => exact absurd hvalue (by simp [Row.value])
  | schedule _ jobId _ =>
    -- its job goes, and so is not the one that has a category
    obtain ⟨job, rfl, hgoes⟩ := hswept
    cases c with
    | schedulesJobId =>
      obtain rfl : job = id := by simpa [Row.value] using hvalue
      exact hcategorised hgoes
    | _ => exact absurd hvalue (by simp [Row.value])
  | jobDependency _ jobId dependsOnJobId _ =>
    -- its job goes, and by `Loose` the job depended on as well
    obtain ⟨job, rfl, hgoes⟩ := hswept
    cases c with
    | jobDependenciesJobId =>
      obtain rfl : job = id := by simpa [Row.value] using hvalue
      exact hcategorised hgoes
    | jobDependenciesDependsOnJobId =>
      exact hcategorised (h job id rfl (Option.some.inj hvalue) hgoes)
    | _ => exact absurd hvalue (by simp [Row.value])
  | _ => exact hswept

/-- What the row may hold of jobs without a category: an execution and a recurring
pattern nothing, a dependency both of its jobs or neither. -/
def Row.Detached (rows : List (Row Uuid Rest)) : Row Uuid Rest → Prop
  | .execution _ jobId scheduleId _ =>
    (∀ id, jobId = some id → ¬ Uncategorised rows id) ∧
      ∀ id, scheduleId = some id → ¬ OfUncategorised rows id
  | .recurringJob _ templateJobId _ => ∀ id, templateJobId = some id → ¬ Uncategorised rows id
  | .jobDependency _ jobId dependsOnJobId _ =>
    ∀ id id', jobId = some id → dependsOnJobId = some id' →
      (Uncategorised rows id ↔ Uncategorised rows id')
  | _ => True

theorem Row.detached_iff {r : Row Uuid Rest} :
    r.Detached rows ↔ r.Unblocking rows ∧ r.Loose rows := by
  cases r with
  | jobDependency id jobId dependsOnJobId rest =>
    constructor
    · intro h
      exact ⟨fun job other hjob hother => (h job other hjob hother).mpr,
        fun job other hjob hother => (h job other hjob hother).mp⟩
    · rintro ⟨hunblocking, hloose⟩ job other hjob hother
      exact ⟨hloose job other hjob hother, hunblocking job other hjob hother⟩
  | _ => exact (and_iff_left trivial).symm

/-! ## The rollback -/

variable [DecidableEq Uuid]

/-- The rows that `down` leaves. -/
abbrev leftByDown (rows : List (Row Uuid Rest)) : List (Row Uuid Rest) :=
  survivors (layout Uuid Rest) rows otherForeignKeys (Row.isNull .jobsCategoryId)

theorem category_of_left {r : Row Uuid Rest} (hr : r ∈ leftByDown rows) :
    r.isNull .jobsCategoryId = false := by
  obtain ⟨hrow, hspared⟩ := mem_survivors.mp hr
  cases hnull : r.isNull .jobsCategoryId with
  | false => rfl
  | true => exact absurd (Doomed.seed hrow hnull) hspared

/-- The categories are all left, so that the foreign key on them holds again. -/
theorem category_ref_of_left (hconsistent : Consistent (layout Uuid Rest) upgraded rows)
    {r : Row Uuid Rest} (hr : r ∈ leftByDown rows) {k : Table × Uuid}
    (href : (layout Uuid Rest).ref .jobsCategoryId r = some k) :
    k ∈ (leftByDown rows).map (layout Uuid Rest).key := by
  have hthere : k ∈ rows.map (layout Uuid Rest).key :=
    hconsistent.references ⟨"FK_jobs_category_id", .jobsCategoryId, .setNull⟩ (by decide) r
      (mem_survivors.mp hr).1 k href
  refine key_mem_survivors.mpr ⟨hthere, fun hswept => ?_⟩
  -- a row that goes is no category
  obtain ⟨r', hr', hkey, hgoes⟩ := sweptKey_iff.mp hswept
  obtain ⟨id, -, rfl⟩ := ref_eq_some_iff.mp href
  cases r' with
  | jobCategory _ _ => exact hgoes.elim
  | _ => exact absurd (Prod.mk.inj hkey).1 (by decide)

/-- **The rollback.** `down` completes exactly if the constraints allow its deletion, and
leaves what the deletion leaves. -/
theorem exists_run_down_iff {db : Database (layout Uuid Rest)} (hschema : db.schema = upgraded)
    {Q : List (Row Uuid Rest) → Prop} :
    (∃ db', db.run JobsCategoryFkSetNull.down = some db' ∧ Q db'.rows) ↔
      Consistent (layout Uuid Rest) dropped (leftByDown db.rows) ∧ Q (leftByDown db.rows) := by
  obtain ⟨S, rows, hconsistent⟩ := db
  obtain rfl : S = upgraded := hschema
  have hdeleted : dropped.rowsAfter (layout Uuid Rest) rows (.delete (Row.isNull .jobsCategoryId))
      = leftByDown rows := afterDelete_of_no_setNull no_setNull
  simp only [JobsCategoryFkSetNull.down, run_cons_eq_some_iff, run_nil, Option.some.injEq]
  constructor
  · rintro ⟨db', ⟨db₁, hdrop, db₂, hdelete, db₃, hset, db₄, hadd, rfl⟩, hQ⟩
    obtain ⟨-, hschema₁, hrows₁⟩ := exec_eq_some_iff.mp hdrop
    obtain ⟨-, hschema₂, hrows₂⟩ := exec_eq_some_iff.mp hdelete
    obtain ⟨-, -, hrows₃⟩ := exec_eq_some_iff.mp hset
    obtain ⟨-, -, hrows₄⟩ := exec_eq_some_iff.mp hadd
    rw [hschema₁] at hschema₂ hrows₂
    rw [hrows₁] at hrows₂
    -- the deletion is committed in `dropped`, and the last two statements keep the rows
    have hleft : db₂.rows = leftByDown rows := hrows₂.trans hdeleted
    have hchecked : Consistent (layout Uuid Rest) db₂.schema db₂.rows := db₂.consistent
    rw [hschema₂, hleft] at hchecked
    have hsame : db₄.rows = leftByDown rows := (hrows₄.trans hrows₃).trans hleft
    exact ⟨hchecked, hsame ▸ hQ⟩
  · rintro ⟨hleft, hQ⟩
    -- no job without a category is left, and no category has gone
    have hset := hleft.setNotNull fun r hr => category_of_left hr
    have hadd := hset.addForeignKey ⟨"FK_jobs_category_id", .jobsCategoryId, .noAction⟩
      fun r hr k href => category_ref_of_left hconsistent hr href
    refine ⟨⟨_, _, hadd⟩, ⟨⟨_, _, hconsistent.dropConstraint "FK_jobs_category_id"⟩, ?_,
      ⟨_, _, hleft⟩, ?_, ⟨_, _, hset⟩, ?_, _, ?_, rfl⟩, hQ⟩
    · exact exec_eq_some_iff.mpr ⟨rfl, rfl, rfl⟩
    · exact exec_eq_some_iff.mpr ⟨rfl, rfl, hdeleted.symm⟩
    · exact exec_eq_some_iff.mpr ⟨rfl, rfl, rfl⟩
    · exact exec_eq_some_iff.mpr ⟨rfl, rfl, rfl⟩

theorem consistent_leftByDown_iff (hconsistent : Consistent (layout Uuid Rest) dropped rows) :
    Consistent (layout Uuid Rest) dropped (leftByDown rows) ↔ ∀ r ∈ rows, r.Unblocking rows := by
  have hcolumns := blocking_iff (P := fun c => ∀ r ∈ rows, ¬ SweptKey rows r.key →
    ∀ k, (layout Uuid Rest).ref c r = some k → ¬ SweptKey rows k)
  refine ((consistent_survivors_iff (S := dropped) hconsistent no_setNull).trans hcolumns).trans ?_
  constructor
  · intro hspared r hr
    exact unblocking_of_spared hconsistent hspared hr
  · intro h c hc r hr hstays k href
    exact spared_of_unblocking hconsistent hr (h r hr) hc hstays href

theorem loose_of_unharmed (hconsistent : Consistent (layout Uuid Rest) dropped rows)
    (h : Unharmed rows (leftByDown rows)) {r : Row Uuid Rest} (hr : r ∈ rows) :
    r.Loose rows := by
  cases r with
  | jobDependency id jobId dependsOnJobId rest =>
    intro job other hjob hother huncategorised
    subst hjob hother
    -- the job depended on is there, and if it has a category the dependency should stay
    have hthere := hconsistent.references
      ⟨"FK_job_dependencies_depends_on_job_id", .jobDependenciesDependsOnJobId, .noAction⟩
      (by decide) _ hr (.jobs, other) rfl
    obtain ⟨r', hr', hkey⟩ := List.mem_map.mp hthere
    obtain ⟨categoryId, rest', rfl⟩ := exists_job_of_key hkey
    cases categoryId with
    | none => exact ⟨rest', hr'⟩
    | some categoryId =>
      have hstays := (h other categoryId rest' hr' _
        (.inr ⟨.jobDependenciesDependsOnJobId, rfl⟩)).mpr hr
      have hgoes : SweptKey rows _ :=
        (sweptKey_key_iff hconsistent hr).mpr ⟨job, rfl, huncategorised⟩
      exact absurd hgoes (mem_survivors.mp hstays).2
  | _ => trivial

theorem unharmed_leftByDown_iff (hconsistent : Consistent (layout Uuid Rest) dropped rows) :
    Unharmed rows (leftByDown rows) ↔ ∀ r ∈ rows, r.Loose rows := by
  constructor
  · intro h r hr
    exact loose_of_unharmed hconsistent h hr
  · intro h id categoryId rest hjob r hrow
    refine ⟨fun hleft => survivors_sublist.subset hleft, fun hr => mem_survivors.mpr ⟨hr, ?_⟩⟩
    have hkey : SweptKey rows r.key ↔ r.Swept rows := sweptKey_key_iff hconsistent hr
    rcases hrow with rfl | ⟨c, href⟩
    · intro hgoes
      exact Option.some_ne_none _ (hkey.mp hgoes)
    · intro hgoes
      exact not_swept_of_loose hconsistent hjob (h r hr) href (hkey.mp hgoes)

/-- **Taking the migration back.** From any state reached since `up`, `down` completes
and leaves the jobs that have a category, and all that refers to them, as they are
exactly if the executions and recurring patterns are all of jobs that have one, and no
dependency is between a job that has one and a job that has none. -/
theorem down_safe_iff {db : Database (layout Uuid Rest)} (h : AfterUp db) :
    (∃ db', db.run JobsCategoryFkSetNull.down = some db' ∧ Unharmed db.rows db'.rows) ↔
      ∀ r ∈ db.rows, r.Detached db.rows := by
  have hschema : db.schema = upgraded := schema_of_afterUp h
  have hconsistent : Consistent (layout Uuid Rest) dropped db.rows := by
    have hupgraded := db.consistent
    rw [hschema] at hupgraded
    exact hupgraded.dropConstraint "FK_jobs_category_id"
  rw [exists_run_down_iff hschema, consistent_leftByDown_iff hconsistent,
    unharmed_leftByDown_iff hconsistent]
  constructor
  · rintro ⟨hunblocking, hloose⟩ r hr
    exact Row.detached_iff.mpr ⟨hunblocking r hr, hloose r hr⟩
  · intro hdetached
    exact ⟨fun r hr => (Row.detached_iff.mp (hdetached r hr)).1,
      fun r hr => (Row.detached_iff.mp (hdetached r hr)).2⟩

/-- The database after both migrations, with data statements before and after the
second. -/
def upgradedWith (before after : List (Statement (Row Uuid Rest) Column)) :
    Option (Database (layout Uuid Rest)) := do
  let db₀ ← (Database.empty (layout Uuid Rest)).run InitialSchema.up
  let db₁ ← db₀.run before
  let db₂ ← db₁.run JobsCategoryFkSetNull.up
  db₂.run after

theorem afterUp_of_upgradedWith {before after : List (Statement (Row Uuid Rest) Column)}
    (hdata : (before ++ after).all Statement.isData = true)
    {db : Database (layout Uuid Rest)} (h : upgradedWith before after = some db) :
    AfterUp db := by
  rw [List.all_append, Bool.and_eq_true, List.all_eq_true, List.all_eq_true] at hdata
  simp only [upgradedWith, Option.bind_eq_bind, Option.bind_eq_some_iff] at h
  obtain ⟨db₀, h₀, db₁, h₁, db₂, h₂, h⟩ := h
  exact ⟨db₁, db₂, ⟨db₀, h₀, .of_exec (fun s hs _ => hdata.1 s hs) h₁⟩, h₂,
    .of_exec (fun s hs _ => hdata.2 s hs) h⟩

end Rollback

/-- Two categories with a job each and rows that refer to the jobs, and the first
category deleted. -/
def withFirstDeleted (inserted : List (Row Nat Unit)) : Option (Database (layout Nat Unit)) :=
  upgradedWith
    (([.jobCategory 1 (), .jobCategory 2 (), .job 1 (some 1) (), .job 2 (some 2) ()]
      ++ inserted : List (Row Nat Unit)).map .insert)
    [.delete fun r => decide (r.key = (.jobCategories, 1))]

theorem exists_withFirstDeleted {inserted rows : List (Row Nat Unit)}
    (h : (withFirstDeleted inserted).map Database.rows = some rows) :
    ∃ db, withFirstDeleted inserted = some db ∧ AfterUp db ∧ db.rows = rows := by
  obtain ⟨db, hdb, hrows⟩ := Option.map_eq_some_iff.mp h
  refine ⟨db, hdb, afterUp_of_upgradedWith ?_ hdb, hrows⟩
  rw [List.all_append, List.all_map, Bool.and_eq_true, List.all_eq_true]
  exact ⟨fun _ _ => rfl, rfl⟩

theorem down_safe_iff_schedules :
    ∃ db : Database (layout Nat Unit), AfterUp db ∧
      db.rows = [.jobCategory 2 (), .job 1 none (), .job 2 (some 2) (), .schedule 1 (some 1) (),
        .schedule 2 (some 2) (), .execution 1 (some 2) (some 2) ()] ∧
      ∃ db', db.run JobsCategoryFkSetNull.down = some db' ∧ Unharmed db.rows db'.rows := by
  have hreached : (withFirstDeleted [.schedule 1 (some 1) (), .schedule 2 (some 2) (),
      .execution 1 (some 2) (some 2) ()]).map Database.rows = some [.jobCategory 2 (),
        .job 1 none (), .job 2 (some 2) (), .schedule 1 (some 1) (), .schedule 2 (some 2) (),
        .execution 1 (some 2) (some 2) ()] := by decide
  obtain ⟨db, -, hup, hrows⟩ := exists_withFirstDeleted hreached
  refine ⟨db, hup, hrows, (down_safe_iff hup).mpr ?_⟩
  rw [hrows]
  simp [Row.Detached, Uncategorised, OfUncategorised]

/-- An execution of the job makes `down` fail; a dependency of the job on another that
has a category goes with it. -/
theorem down_unsafe :
    (∃ db : Database (layout Nat Unit), AfterUp db ∧
      db.rows = [.jobCategory 2 (), .job 1 none (), .job 2 (some 2) (),
        .execution 1 (some 1) none ()] ∧
      db.run JobsCategoryFkSetNull.down = none) ∧
    ∃ db db' : Database (layout Nat Unit), AfterUp db ∧
      db.rows = [.jobCategory 2 (), .job 1 none (), .job 2 (some 2) (),
        .jobDependency 1 (some 1) (some 2) ()] ∧
      db.run JobsCategoryFkSetNull.down = some db' ∧
      db'.rows = [.jobCategory 2 (), .job 2 (some 2) ()] ∧ ¬ Unharmed db.rows db'.rows := by
  constructor
  · have hreached : (withFirstDeleted [.execution 1 (some 1) none ()]).map Database.rows =
        some [.jobCategory 2 (), .job 1 none (), .job 2 (some 2) (),
          .execution 1 (some 1) none ()] := by decide
    have hfails : ((withFirstDeleted [.execution 1 (some 1) none ()]).bind fun db =>
        db.run JobsCategoryFkSetNull.down).isNone = true := by decide
    obtain ⟨db, hdb, hup, hrows⟩ := exists_withFirstDeleted hreached
    rw [hdb, Option.bind_some, Option.isNone_iff_eq_none] at hfails
    exact ⟨db, hup, hrows, hfails⟩
  · have hreached : (withFirstDeleted [.jobDependency 1 (some 1) (some 2) ()]).map
        Database.rows = some [.jobCategory 2 (), .job 1 none (), .job 2 (some 2) (),
          .jobDependency 1 (some 1) (some 2) ()] := by decide
    have hcompletes : ((withFirstDeleted [.jobDependency 1 (some 1) (some 2) ()]).bind fun db =>
        db.run JobsCategoryFkSetNull.down).map Database.rows =
          some [.jobCategory 2 (), .job 2 (some 2) ()] := by decide
    obtain ⟨db, hdb, hup, hrows⟩ := exists_withFirstDeleted hreached
    rw [hdb, Option.bind_some, Option.map_eq_some_iff] at hcompletes
    obtain ⟨db', hdown, hleft⟩ := hcompletes
    refine ⟨db, db', hup, hrows, hdown, hleft, fun hunharmed => ?_⟩
    rw [hrows, hleft] at hunharmed
    have hkept := hunharmed 2 2 () (by decide) (.jobDependency 1 (some 1) (some 2) ())
      (.inr ⟨.jobDependenciesDependsOnJobId, rfl⟩)
    exact absurd hkept (by decide)

end SchedulingService.App.Migrations
