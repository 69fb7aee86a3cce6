import SchedulingService.Common.Decorators
import SchedulingService.Scheduler.Service

/-!
# Creating a job over REST

`SchedulerController.createJob`: the validation pipe on the `CreateJobDto`, then
`SchedulerService.createJob`.

* `createJob_cases` — when the service turns a request down, and what it stores
  otherwise;
* `constrained_iff` — a row made of a valid request meets the constraints of the
  class exactly when the defaults of its category do, where they are used.
-/

namespace SchedulingService.Scheduler

open Js Common

/-! ## The pipe -/

/-- The properties of the class, with what their decorators find.
`@IsEnum(Priority)` is met by every value of its type. -/
def CreateJobDto.checks (V : Validators) (dto : CreateJobDto) : List (String × Bool) :=
  [("name", isString dto.name && isNotEmpty dto.name && maxLength 200 dto.name),
    ("description", isOptional isString dto.description),
    ("categoryId", isUUID V dto.categoryId && isNotEmpty dto.categoryId),
    ("targetService", isString dto.targetService && isNotEmpty dto.targetService),
    ("targetMethod", isString dto.targetMethod && isNotEmpty dto.targetMethod),
    ("payload", isObject dto.payload && maxJsonSize V dto.payload),
    ("maxRetries", isOptional (isIntBetween 0 10) dto.maxRetries),
    ("timeoutSeconds", isOptional (isIntBetween 1 3600) dto.timeoutSeconds),
    ("createdBy", isOptional (isUUID V) dto.createdBy)]

/-- The properties that the pipe complains about. -/
def CreateJobDto.invalid (V : Validators) (dto : CreateJobDto) : List String :=
  ((dto.checks V).filter fun check => !check.2).map Prod.fst

/-- Why the controller answers with an error. -/
inductive Refusal
  /-- The pipe's BadRequestException. -/
  | invalid (properties : List String)
  | service (e : HttpException)

/-- `SchedulerController.createJob`. -/
def controllerCreateJob (V : Validators) (db : Database) (id : Uuid) (dto : CreateJobDto)
    (st : Store) : Store × Except Refusal Job :=
  match dto.invalid V with
  | [] => match createJob db id dto st with
    | (st', result) => (st', result.mapError .service)
  | properties => (st, .error (.invalid properties))

/-- What the decorators promise of a request that passes the pipe. -/
structure CreateJobDto.Valid (V : Validators) (dto : CreateJobDto) : Prop where
  name : ∃ s, dto.name = .str s ∧ s ≠ ""
  targetService : ∃ s, dto.targetService = .str s ∧ s ≠ ""
  targetMethod : ∃ s, dto.targetMethod = .str s ∧ s ≠ ""
  isObject : isObject dto.payload = true
  payload : maxJsonSize V dto.payload = true
  maxRetries : isOptional (isIntBetween 0 10) dto.maxRetries = true
  timeoutSeconds : isOptional (isIntBetween 1 3600) dto.timeoutSeconds = true

theorem exists_str {v : Value} (h : (isString v && isNotEmpty v) = true) :
    ∃ s, v = .str s ∧ s ≠ "" := by
  rw [Bool.and_eq_true] at h
  cases v with
  | str s => exact ⟨s, rfl, of_decide_eq_true h.2⟩
  | _ => cases h.1

theorem CreateJobDto.valid {V : Validators} {dto : CreateJobDto} (h : dto.invalid V = []) :
    dto.Valid V := by
  have hall : ∀ check ∈ dto.checks V, check.2 = true := by
    intro check hcheck
    cases hc : check.2 with
    | true => rfl
    | false =>
      have hmem : check.1 ∈ dto.invalid V :=
        List.mem_map_of_mem (List.mem_filter.mpr ⟨hcheck, by simp [hc]⟩)
      rw [h] at hmem
      cases hmem
  simp only [CreateJobDto.checks, List.forall_mem_cons] at hall
  obtain ⟨hname, -, -, hservice, hmethod, hpayload, hretries, htimeout, -⟩ := hall
  rw [Bool.and_eq_true] at hname hpayload
  exact ⟨exists_str hname.1, exists_str hservice, exists_str hmethod, hpayload.1, hpayload.2,
    hretries, htimeout⟩

/-! ## The service -/

/-- Every column has a reading for its property. -/
def columnsTake (db : Database) (dto : CreateJobDto) : Bool :=
  (notNull none (readVarchar 200) dto.name).isSome &&
  (nullable readText dto.description).isSome &&
  (nullable db.readUuid dto.categoryId).isSome &&
  (notNull none (readVarchar 100) dto.targetService).isSome &&
  (notNull none (readVarchar 100) dto.targetMethod).isSome &&
  (notNull (some (.obj [])) db.jsonb dto.payload).isSome &&
  (notNull (some 3) readInteger dto.maxRetries).isSome &&
  (notNull (some 300) readInteger dto.timeoutSeconds).isSome &&
  (nullable db.readUuid dto.createdBy).isSome

/-- The service stores nothing: no category is found, a column refuses its
property, or the generated id is taken. -/
def turnsDown (db : Database) (id : Uuid) (dto : CreateJobDto) (st : Store) : Bool :=
  match findOneById db JobCategory.id st.categories dto.categoryId with
  | .ok (some category) =>
    !columnsTake db (withDefaults dto category) || (st.jobs.get id).isSome
  | _ => true

/-- What the row of a new job is made of. -/
structure NewJob (db : Database) (id : Uuid) (dto : CreateJobDto) (priority : Priority)
    (job : Job) : Prop where
  id_eq : job.id = id
  name : notNull none (readVarchar 200) dto.name = some job.name
  targetService : notNull none (readVarchar 100) dto.targetService = some job.targetService
  targetMethod : notNull none (readVarchar 100) dto.targetMethod = some job.targetMethod
  payload : notNull (some (.obj [])) db.jsonb dto.payload = some job.payload
  priority_eq : job.priority = priority
  maxRetries : notNull (some 3) readInteger dto.maxRetries = some job.maxRetries
  timeoutSeconds : notNull (some 300) readInteger dto.timeoutSeconds = some job.timeoutSeconds

section Service

variable {db : Database} {id : Uuid} {dto : CreateJobDto} {priority : Priority} {job : Job}
  {st : Store}

theorem newJob_spec (h : newJob db id dto priority = some job) :
    NewJob db id dto priority job := by
  simp only [newJob, Option.bind_eq_bind, Option.bind_eq_some_iff, Option.some.injEq] at h
  obtain ⟨name, hname, description, -, category, -, service, hservice, method, hmethod,
    payload, hpayload, retries, hretries, timeout, htimeout, createdBy, -, rfl⟩ := h
  exact ⟨rfl, hname, hservice, hmethod, hpayload, rfl, hretries, htimeout⟩

theorem newJob_isSome (db : Database) (id : Uuid) (dto : CreateJobDto) (priority : Priority) :
    (newJob db id dto priority).isSome = columnsTake db dto := by
  -- column by column; the first that refuses its property decides both
  unfold newJob columnsTake
  cases notNull none (readVarchar 200) dto.name with
  | none => rfl
  | some name =>
  cases nullable readText dto.description with
  | none => rfl
  | some description =>
  cases nullable db.readUuid dto.categoryId with
  | none => rfl
  | some categoryId =>
  cases notNull none (readVarchar 100) dto.targetService with
  | none => rfl
  | some targetService =>
  cases notNull none (readVarchar 100) dto.targetMethod with
  | none => rfl
  | some targetMethod =>
  cases notNull (some (.obj [])) db.jsonb dto.payload with
  | none => rfl
  | some payload =>
  cases notNull (some 3) readInteger dto.maxRetries with
  | none => rfl
  | some maxRetries =>
  cases notNull (some 300) readInteger dto.timeoutSeconds with
  | none => rfl
  | some timeoutSeconds =>
  cases nullable db.readUuid dto.createdBy with
  | none => rfl
  | some createdBy => rfl

/-- The service turns a request down and leaves all as it is, or stores the row of
the job. -/
theorem createJob_cases (db : Database) (id : Uuid) (dto : CreateJobDto) (st : Store) :
    (turnsDown db id dto st = true ∧ ∃ e, createJob db id dto st = (st, .error e)) ∨
    (turnsDown db id dto st = false ∧ ∃ category job jobs,
      findOneById db JobCategory.id st.categories dto.categoryId = .ok (some category) ∧
      newJob db id (withDefaults dto category) (priorityOr dto category) = some job ∧
      st.jobs.insert job = some jobs ∧
      createJob db id dto st = ({ st with jobs }, .ok job)) := by
  unfold turnsDown createJob
  cases findOneById db JobCategory.id st.categories dto.categoryId with
  | error e => exact .inl ⟨rfl, _, rfl⟩
  | ok found =>
    cases found with
    | none => exact .inl ⟨rfl, _, rfl⟩
    | some category =>
      dsimp only
      have hcolumns := newJob_isSome db id (withDefaults dto category) (priorityOr dto category)
      cases hjob : newJob db id (withDefaults dto category) (priorityOr dto category) with
      | none =>
        rw [hjob] at hcolumns
        refine .inl ⟨by simp [← hcolumns], _, rfl⟩
      | some job =>
        rw [hjob] at hcolumns
        have hid := (newJob_spec hjob).id_eq
        rw [← hcolumns, Option.isSome_some, Bool.not_true, Bool.false_or]
        dsimp only
        cases hget : st.jobs.get id with
        | some taken =>
          -- the insert meets the row that has the id
          have hinsert : st.jobs.insert job = none := by
            refine dif_neg fun hfresh => hfresh ?_
            obtain ⟨hmem, hkey⟩ := Keyed.get_eq_some.mp hget
            exact List.mem_map.mpr ⟨taken, hmem, hkey.trans hid.symm⟩
          rw [hinsert]
          exact .inl ⟨rfl, _, rfl⟩
        | none =>
          -- and here it meets none
          have hfresh : job.id ∉ st.jobs.rows.map Job.id := by
            intro hmem
            obtain ⟨row, hrow, hkey⟩ := List.mem_map.mp hmem
            exact Keyed.get_eq_none.mp hget row hrow (hkey.trans hid)
          obtain ⟨jobs, hinsert⟩ : ∃ jobs, st.jobs.insert job = some jobs := ⟨_, dif_pos hfresh⟩
          rw [hinsert]
          exact .inr ⟨rfl, category, job, jobs, rfl, hjob, hinsert, rfl⟩

end Service

/-! ## The constraints, on rows -/

/-- The constraints of `CreateJobDto`, on the row of a job. -/
structure Job.Constrained (V : Validators) (job : Job) : Prop where
  name : job.name ≠ ""
  targetService : job.targetService ≠ ""
  targetMethod : job.targetMethod ≠ ""
  payload : maxJsonSize V job.payload = true
  maxRetries : 0 ≤ job.maxRetries ∧ job.maxRetries ≤ 10
  timeoutSeconds : 1 ≤ job.timeoutSeconds ∧ job.timeoutSeconds ≤ 3600

/-- A default of the category that is used is within the bounds. -/
structure DefaultsInBounds (dto : CreateJobDto) (category : JobCategory) : Prop where
  maxRetries : dto.maxRetries.isNullish = true →
    0 ≤ category.defaultMaxRetries ∧ category.defaultMaxRetries ≤ 10
  timeoutSeconds : dto.timeoutSeconds.isNullish = true →
    1 ≤ category.defaultTimeout ∧ category.defaultTimeout ≤ 3600

/-- Documents come back from a `jsonb` column as long as they were written. -/
def KeepsLength (V : Validators) (db : Database) : Prop :=
  ∀ v w, db.jsonb v = some w → (V.stringify w).map utf16Length = (V.stringify v).map utf16Length

section Constraints

variable {V : Validators} {db : Database}

/-- A text that is not empty is not stored as the empty one. -/
theorem ne_empty_of_notNull {n : Nat} (hn : 0 < n) {v : Value} {s : String}
    (hv : ∃ s, v = .str s ∧ s ≠ "") (h : notNull none (readVarchar n) v = some s) : s ≠ "" := by
  obtain ⟨text, rfl, hne⟩ := hv
  rw [notNull_of_not_isNullish rfl] at h
  exact ne_empty_of_readVarchar hn h (by simpa [Value.truthy] using hne)

theorem maxJsonSize_of_stored (hkeeps : KeepsLength V db) {v w : Value}
    (h : db.jsonb v = some w) : maxJsonSize V w = maxJsonSize V v := by
  have hlength := hkeeps v w h
  unfold maxJsonSize
  cases hv : V.stringify v with
  | none =>
    rw [hv, Option.map_none, Option.map_eq_none_iff] at hlength
    rw [hlength]
  | some text =>
    rw [hv, Option.map_some, Option.map_eq_some_iff] at hlength
    obtain ⟨text', hw, hsame⟩ := hlength
    rw [hw]
    simp only [hsame]

/-- What a number column holds of a checked property with a default: the bounds
hold of it exactly when they hold of the default, where that is used. -/
theorem bounds_iff {low high : Nat} {v : Value} {default : Int} {dflt : Option Int} {n : Int}
    (hv : isOptional (isIntBetween low high) v = true)
    (h : notNull dflt readInteger (orNumber v default) = some n) :
    ((low : Int) ≤ n ∧ n ≤ high) ↔
      (v.isNullish = true → (low : Int) ≤ default ∧ default ≤ high) := by
  cases hnull : v.isNullish with
  | true =>
    -- the default is stored unchecked
    have hvalue : orNumber v default = .num (.fin default) := if_pos hnull
    rw [hvalue, notNull_of_not_isNullish rfl] at h
    obtain rfl : default = n := by
      have hread := readInteger_eq_some h
      simpa using hread
    simp
  | false =>
    have hvalue : orNumber v default = v := if_neg (by simp [hnull])
    rw [isOptional, hnull, Bool.false_or, isIntBetween_iff] at hv
    obtain ⟨m, rfl, hlow, hhigh⟩ := hv
    rw [hvalue, notNull_of_not_isNullish rfl] at h
    obtain rfl : m = n := by
      have hread := readInteger_eq_some h
      simpa using hread
    simp [hlow, hhigh]

/-- **The constraints of a row.** The row of a request that passed the pipe meets
them exactly when the defaults do that were used for it. -/
theorem constrained_iff (hkeeps : KeepsLength V db) {id : Uuid} {dto : CreateJobDto}
    {category : JobCategory} {priority : Priority} {job : Job} (hvalid : dto.Valid V)
    (h : newJob db id (withDefaults dto category) priority = some job) :
    job.Constrained V ↔ DefaultsInBounds dto category := by
  have hrow := newJob_spec h
  have hretries := bounds_iff hvalid.maxRetries hrow.maxRetries
  have htimeout := bounds_iff hvalid.timeoutSeconds hrow.timeoutSeconds
  constructor
  · intro hjob
    exact ⟨hretries.mp hjob.maxRetries, htimeout.mp hjob.timeoutSeconds⟩
  · intro hdefaults
    -- the payload has no default to fall back on: it is an object
    have hobject : dto.payload.isNullish = false := by
      have := hvalid.isObject
      cases hp : dto.payload with
      | undefined => rw [hp] at this; cases this
      | null => rw [hp] at this; cases this
      | _ => rfl
    have hstored : db.jsonb dto.payload = some job.payload := by
      exact (notNull_of_not_isNullish hobject).symm.trans hrow.payload
    exact {
      name := ne_empty_of_notNull (by decide) hvalid.name hrow.name
      targetService := ne_empty_of_notNull (by decide) hvalid.targetService hrow.targetService
      targetMethod := ne_empty_of_notNull (by decide) hvalid.targetMethod hrow.targetMethod
      payload := (maxJsonSize_of_stored hkeeps hstored).trans hvalid.payload
      maxRetries := hretries.mpr hdefaults.maxRetries
      timeoutSeconds := htimeout.mpr hdefaults.timeoutSeconds }

end Constraints

end SchedulingService.Scheduler
