import SchedulingService.Grpc.Scheduler
import SchedulingService.Scheduler.Jobs

/-!
# Creating a job over gRPC

`GrpcSchedulerService.createJob` builds the `CreateJobDto` that the REST
controller is given, and passes it on: its side has no validation pipe, an
absent payload becomes `{}`, and an absent priority becomes MEDIUM before the
service can ask the category.

The request is taken as the TypeScript interface has it, with camelCase keys and
the numbers of the interface's enum.

Main results:

* `createJob_eq` — the handler is the dto it builds, passed on;
* `entry_points_agree_iff` — when both entry points do the same, and only store
  rows that meet the constraints.
-/

namespace SchedulingService.Grpc

open Js Common Scheduler

/-- The language, the database and the packages, as far as the two entry points
use them. -/
structure Outside where
  rt : Runtime
  db : Database
  validators : Validators
  /-- `JSON.parse('{}')`. -/
  parse_empty : rt.parseJson (.str "{}") = some (.obj [])
  keepsLength : KeepsLength validators db

/-! ## The handler -/

/-- The dto that `createJob` builds of its request. -/
def createJobDto (rt : Runtime) (request : Value) : Except Thrown CreateJobDto := do
  let payload ← jsonParse rt (orDefault (request.get "payload") (.str "{}"))
  return {
    name := request.get "name"
    description := request.get "description"
    categoryId := request.get "categoryId"
    targetService := request.get "targetService"
    targetMethod := request.get "targetMethod"
    payload := payload
    priority := .val (mapGrpcToPrismaPriority (request.get "priority"))
    maxRetries := request.get "maxRetries"
    timeoutSeconds := request.get "timeoutSeconds"
    createdBy := request.get "createdBy" }

/-- It is what the handler calls the service with. -/
theorem createJob_eq (rt : Runtime) (request : Value) :
    createJob rt request = (createJobDto rt request).map Call.createJob := by
  unfold createJob createJobDto
  cases jsonParse rt (orDefault (request.get "payload") (.str "{}")) <;> rfl

/-- Why the handler answers with an error. -/
inductive Failure
  | thrown (e : Thrown)
  | service (e : HttpException)

/-- `GrpcSchedulerService.createJob`, with the call it makes. -/
def grpcCreateJob (rt : Runtime) (db : Database) (id : Uuid) (request : Value) (st : Store) :
    Store × Except Failure Job :=
  match createJobDto rt request with
  | .error e => (st, .error (.thrown e))
  | .ok dto => match Scheduler.createJob db id dto st with
    | (st', result) => (st', result.mapError .service)

/-! ## One assignment of values, for both -/

/-- A payload with a JSON text of it. -/
structure Payload (rt : Runtime) where
  value : Value
  text : String
  text_ne : text ≠ ""
  parses : rt.parseJson (.str text) = some value

/-- The fields of a create request. -/
structure CreateValues (rt : Runtime) where
  name : Slot String
  description : Slot String
  categoryId : Slot String
  targetService : Slot String
  targetMethod : Slot String
  payload : Slot (Payload rt)
  priority : Slot Priority
  maxRetries : Slot Number
  timeoutSeconds : Slot Number
  createdBy : Slot String

/-- The interface's `Priority`. -/
def priorityNumber : Priority → Number
  | .low => 1
  | .medium => 2
  | .high => 3
  | .critical => 4

/-- A priority in the request. A missing one may be spelt `PRIORITY_UNSPECIFIED`. -/
def spellPriority (unspecified : Bool) : Slot Priority → Value
  | .val p => .num (priorityNumber p)
  | .undefined => if unspecified then .num 0 else .undefined
  | .null => if unspecified then .num 0 else .null

namespace CreateValues

variable {rt : Runtime}

def toDto (values : CreateValues rt) : CreateJobDto where
  name := values.name.toValue .str
  description := values.description.toValue .str
  categoryId := values.categoryId.toValue .str
  targetService := values.targetService.toValue .str
  targetMethod := values.targetMethod.toValue .str
  payload := values.payload.toValue Payload.value
  priority := values.priority
  maxRetries := values.maxRetries.toValue .num
  timeoutSeconds := values.timeoutSeconds.toValue .num
  createdBy := values.createdBy.toValue .str

def toRequest (values : CreateValues rt) (unspecified : Bool) : Value :=
  .obj [
    ("name", values.name.toValue .str),
    ("description", values.description.toValue .str),
    ("categoryId", values.categoryId.toValue .str),
    ("targetService", values.targetService.toValue .str),
    ("targetMethod", values.targetMethod.toValue .str),
    ("payload", values.payload.toValue fun payload => .str payload.text),
    ("priority", spellPriority unspecified values.priority),
    ("maxRetries", values.maxRetries.toValue .num),
    ("timeoutSeconds", values.timeoutSeconds.toValue .num),
    ("createdBy", values.createdBy.toValue .str)]

/-- The payload the handler parses. -/
def parsed (values : CreateValues rt) : Value :=
  match values.payload with
  | .val payload => payload.value
  | _ => .obj []

/-- The dto the handler makes of the values. -/
def built (values : CreateValues rt) : CreateJobDto :=
  { values.toDto with
    payload := values.parsed
    priority := .val (values.priority.toOption.getD .medium) }

end CreateValues

theorem mapGrpcToPrismaPriority_spell (unspecified : Bool) (priority : Slot Priority) :
    mapGrpcToPrismaPriority (spellPriority unspecified priority) =
      priority.toOption.getD .medium := by
  cases priority with
  | val p => cases p <;> rfl
  | undefined => cases unspecified <;> rfl
  | null => cases unspecified <;> rfl

theorem createJobDto_toRequest (O : Outside) (values : CreateValues O.rt) (unspecified : Bool) :
    createJobDto O.rt (values.toRequest unspecified) = .ok values.built := by
  -- the two properties of the request that the handler converts
  have hpayload : jsonParse O.rt
      (orDefault ((values.toRequest unspecified).get "payload") (.str "{}")) =
        .ok values.parsed := by
    show jsonParse O.rt (orDefault (values.payload.toValue fun payload => .str payload.text)
      (.str "{}")) = _
    unfold CreateValues.parsed
    cases values.payload with
    | val payload =>
      have htext : orDefault (.str payload.text) (.str "{}") = .str payload.text :=
        if_pos (decide_eq_true payload.text_ne)
      simp only [Slot.toValue, htext, jsonParse, payload.parses]
    | undefined => simp only [Slot.toValue, orDefault, Value.truthy, jsonParse, O.parse_empty,
        Bool.false_eq_true, if_false]
    | null => simp only [Slot.toValue, orDefault, Value.truthy, jsonParse, O.parse_empty,
        Bool.false_eq_true, if_false]
  have hpriority : mapGrpcToPrismaPriority ((values.toRequest unspecified).get "priority") =
      values.priority.toOption.getD .medium :=
    mapGrpcToPrismaPriority_spell unspecified values.priority
  rw [createJobDto, hpayload, hpriority]
  rfl

/-! ## Both entry points -/

section Entries

variable (O : Outside) (id : Uuid) (values : CreateValues O.rt) (unspecified : Bool) (st : Store)

def overRest : Store × Except Refusal Job :=
  controllerCreateJob O.validators O.db id values.toDto st

def overGrpc : Store × Except Failure Job :=
  grpcCreateJob O.rt O.db id (values.toRequest unspecified) st

/-- Stored by one of the two. -/
def StoredByEither (job : Job) : Prop :=
  (overRest O id values st).2 = .ok job ∨ (overGrpc O id values unspecified st).2 = .ok job

/-- Both reject the values or both store the same row; a row that is stored meets
the constraints of `CreateJobDto`, and has the category's priority where none is
given. -/
structure EntryPointsAgree : Prop where
  store : (overRest O id values st).1 = (overGrpc O id values unspecified st).1
  row : (overRest O id values st).2.toOption = (overGrpc O id values unspecified st).2.toOption
  constrained : ∀ job, StoredByEither O id values unspecified st job →
    job.Constrained O.validators
  priority : values.priority.toOption = none → ∀ category,
    findOneById O.db JobCategory.id st.categories values.toDto.categoryId = .ok (some category) →
    ∀ job, StoredByEither O id values unspecified st job →
      job.priority = category.defaultPriority

/-- The service turns down what the handler makes of the values; or they pass the
pipe, and what is left to the category is MEDIUM and within the bounds. -/
def Coincide : Prop :=
  turnsDown O.db id values.built st = true ∨
  values.toDto.invalid O.validators = [] ∧ ∀ category,
    findOneById O.db JobCategory.id st.categories values.toDto.categoryId = .ok (some category) →
    (values.priority.toOption = none → category.defaultPriority = .medium) ∧
      DefaultsInBounds values.toDto category

end Entries

section Agreement

variable {O : Outside} {id : Uuid} {values : CreateValues O.rt} {unspecified : Bool} {st : Store}

/-- Values that pass the pipe have a payload, so the handler's dto is theirs but
for the priority. -/
theorem built_of_valid (hvalid : values.toDto.invalid O.validators = []) :
    values.built =
      { values.toDto with priority := .val (values.priority.toOption.getD .medium) } := by
  -- a missing payload, for which the handler puts `{}`, does not pass
  have hobject : isObject (values.payload.toValue Payload.value) = true :=
    (CreateJobDto.valid hvalid).isObject
  have hparsed : values.parsed = values.payload.toValue Payload.value := by
    unfold CreateValues.parsed
    cases hp : values.payload with
    | val payload => rfl
    | undefined => rw [hp] at hobject; cases hobject
    | null => rw [hp] at hobject; cases hobject
  rw [CreateValues.built, hparsed]
  rfl

theorem overRest_of_invalid (id : Uuid) (st : Store)
    (h : values.toDto.invalid O.validators ≠ []) :
    ∃ e, overRest O id values st = (st, .error e) := by
  unfold overRest controllerCreateJob
  split
  case h_1 hnil => exact absurd hnil h
  case h_2 => exact ⟨_, rfl⟩

theorem overRest_of_valid (h : values.toDto.invalid O.validators = []) :
    overRest O id values st =
      ((Scheduler.createJob O.db id values.toDto st).1,
        (Scheduler.createJob O.db id values.toDto st).2.mapError .service) := by
  unfold overRest controllerCreateJob
  rw [h]

theorem overGrpc_eq :
    overGrpc O id values unspecified st =
      ((Scheduler.createJob O.db id values.built st).1,
        (Scheduler.createJob O.db id values.built st).2.mapError .service) := by
  unfold overGrpc grpcCreateJob
  rw [createJobDto_toRequest]

/-- What the service turns down is not stored over gRPC. -/
theorem overGrpc_rejects (unspecified : Bool) (h : turnsDown O.db id values.built st = true) :
    ∃ e, overGrpc O id values unspecified st = (st, .error e) := by
  rw [overGrpc_eq]
  rcases createJob_cases O.db id values.built st with ⟨-, e, he⟩ | ⟨hup, -⟩
  · rw [he]
    exact ⟨_, rfl⟩
  · rw [h] at hup
    cases hup

/-- Nor over REST. -/
theorem overRest_rejects (h : turnsDown O.db id values.built st = true) :
    ∃ e, overRest O id values st = (st, .error e) := by
  by_cases hvalid : values.toDto.invalid O.validators = []
  · -- what the service turns down does not turn on the priority
    rw [built_of_valid hvalid] at h
    have hdown : turnsDown O.db id values.toDto st = true := h
    rw [overRest_of_valid hvalid]
    rcases createJob_cases O.db id values.toDto st with ⟨-, e, he⟩ | ⟨hup, -⟩
    · rw [he]
      exact ⟨_, rfl⟩
    · rw [hdown] at hup
      cases hup
  · exact overRest_of_invalid id st hvalid

/-- A row that an entry point stores: made of the handler's dto and this
category, with `priority`. -/
structure StoresRow {E : Type} (O : Outside) (id : Uuid) (values : CreateValues O.rt)
    (st : Store) (category : JobCategory) (priority : Priority)
    (outcome : Store × Except E Job) (job : Job) : Prop where
  found : findOneById O.db JobCategory.id st.categories values.toDto.categoryId =
    .ok (some category)
  row : newJob O.db id (withDefaults values.built category) priority = some job
  outcome : ∃ jobs, st.jobs.insert job = some jobs ∧ outcome = ({ st with jobs }, .ok job)

/-- Otherwise the handler stores a row, with MEDIUM for a missing priority. -/
theorem overGrpc_stores (unspecified : Bool) (h : turnsDown O.db id values.built st = false) :
    ∃ category job, StoresRow O id values st category (values.priority.toOption.getD .medium)
      (overGrpc O id values unspecified st) job := by
  rcases createJob_cases O.db id values.built st with ⟨hdown, -⟩ |
    ⟨-, category, job, jobs, hfound, hjob, hinsert, he⟩
  · rw [h] at hdown
    cases hdown
  · refine ⟨category, job, hfound, hjob, jobs, hinsert, ?_⟩
    rw [overGrpc_eq, he]
    rfl

/-- And the controller, of values that pass the pipe, with the category's priority
for a missing one. -/
theorem overRest_stores (hvalid : values.toDto.invalid O.validators = [])
    (h : turnsDown O.db id values.built st = false) :
    ∃ category job, StoresRow O id values st category
      (values.priority.toOption.getD category.defaultPriority) (overRest O id values st) job := by
  have hbuilt := built_of_valid hvalid
  have hup : turnsDown O.db id values.toDto st = false := by
    rw [hbuilt] at h
    exact h
  rcases createJob_cases O.db id values.toDto st with ⟨hdown, -⟩ |
    ⟨-, category, job, jobs, hfound, hjob, hinsert, he⟩
  · rw [hup] at hdown
    cases hdown
  · refine ⟨category, job, hfound, ?_, jobs, hinsert, ?_⟩
    · rw [hbuilt]
      exact hjob
    · rw [overRest_of_valid hvalid, he]
      rfl

/-- The row meets the constraints when the category's defaults do. -/
theorem StoresRow.constrained_iff {E : Type} {category : JobCategory} {priority : Priority}
    {outcome : Store × Except E Job} {job : Job}
    (h : StoresRow O id values st category priority outcome job)
    (hvalid : values.toDto.invalid O.validators = []) :
    job.Constrained O.validators ↔ DefaultsInBounds values.toDto category := by
  have hrow := h.row
  rw [built_of_valid hvalid] at hrow
  exact Scheduler.constrained_iff O.keepsLength (CreateJobDto.valid hvalid) hrow

/-- No two categories are found. -/
theorem StoresRow.category_eq {E : Type} {category category' : JobCategory}
    {priority : Priority} {outcome : Store × Except E Job} {job : Job}
    (h : StoresRow O id values st category priority outcome job)
    (hfound : findOneById O.db JobCategory.id st.categories values.toDto.categoryId =
      .ok (some category')) : category' = category := by
  have hsame := hfound.symm.trans h.found
  exact Option.some.inj (Except.ok.inj hsame)

/-- Where both reject there is nothing to compare. -/
theorem agree_of_turnsDown (unspecified : Bool) (h : turnsDown O.db id values.built st = true) :
    EntryPointsAgree O id values unspecified st := by
  obtain ⟨e, hrest⟩ := overRest_rejects h
  obtain ⟨e', hgrpc⟩ := overGrpc_rejects unspecified h
  have hnone : ∀ job, ¬ StoredByEither O id values unspecified st job := by
    rintro job (hjob | hjob)
    · rw [hrest] at hjob
      cases hjob
    · rw [hgrpc] at hjob
      cases hjob
  exact {
    store := by rw [hrest, hgrpc]
    row := by rw [hrest, hgrpc]; rfl
    constrained := fun job hjob => absurd hjob (hnone job)
    priority := fun _ _ _ job hjob => absurd hjob (hnone job) }

theorem agree_of_valid (unspecified : Bool) (hup : turnsDown O.db id values.built st = false)
    (hvalid : values.toDto.invalid O.validators = [])
    (hdefaults : ∀ category, findOneById O.db JobCategory.id st.categories
        values.toDto.categoryId = .ok (some category) →
      (values.priority.toOption = none → category.defaultPriority = .medium) ∧
        DefaultsInBounds values.toDto category) :
    EntryPointsAgree O id values unspecified st := by
  obtain ⟨category, job, hgrpc⟩ := overGrpc_stores unspecified hup
  obtain ⟨category', job', hrest⟩ := overRest_stores hvalid hup
  obtain rfl := hgrpc.category_eq hrest.found
  obtain ⟨hmedium, hbounds⟩ := hdefaults category' hrest.found
  have hpriority : values.priority.toOption.getD category'.defaultPriority =
      values.priority.toOption.getD .medium := by
    cases hp : values.priority.toOption with
    | none => exact hmedium hp
    | some p => rfl
  -- the two rows are one, and so are the two tables
  obtain rfl : job' = job := by
    have hrow := hrest.row
    rw [hpriority, hgrpc.row] at hrow
    exact (Option.some.inj hrow).symm
  obtain ⟨jobs, hinsert, heq⟩ := hgrpc.outcome
  obtain ⟨jobs', hinsert', heq'⟩ := hrest.outcome
  obtain rfl : jobs' = jobs := Option.some.inj (hinsert'.symm.trans hinsert)
  have hone : ∀ stored, StoredByEither O id values unspecified st stored → stored = job' := by
    rintro stored (h | h)
    · rw [heq'] at h
      exact (Except.ok.inj h).symm
    · rw [heq] at h
      exact (Except.ok.inj h).symm
  constructor
  · rw [heq, heq']
  · rw [heq, heq']
    rfl
  · intro stored hstored
    rw [hone stored hstored]
    exact (hgrpc.constrained_iff hvalid).mpr hbounds
  · intro hmissing category hfound stored hstored
    rw [hone stored hstored, (newJob_spec hrest.row).priority_eq,
      hrest.category_eq hfound, hmissing]
    rfl

theorem coincide_of_agree (hup : turnsDown O.db id values.built st = false)
    (hagree : EntryPointsAgree O id values unspecified st) : Coincide O id values st := by
  obtain ⟨category, job, hgrpc⟩ := overGrpc_stores unspecified hup
  obtain ⟨jobs, -, heq⟩ := hgrpc.outcome
  have hstored : StoredByEither O id values unspecified st job := .inr (by rw [heq])
  -- the controller stores it as well, so the values pass the pipe
  have hvalid : values.toDto.invalid O.validators = [] := by
    by_contra hinvalid
    obtain ⟨e, he⟩ := overRest_of_invalid id st hinvalid
    have hrow := hagree.row
    rw [he, heq] at hrow
    cases hrow
  refine .inr ⟨hvalid, fun category' hfound => ?_⟩
  obtain rfl := hgrpc.category_eq hfound
  constructor
  · -- the handler's row has MEDIUM
    intro hmissing
    have hpriority := hagree.priority hmissing category' hfound job hstored
    rw [← hpriority, (newJob_spec hgrpc.row).priority_eq, hmissing]
    rfl
  · exact (hgrpc.constrained_iff hvalid).mp (hagree.constrained job hstored)

end Agreement

/-- **When both entry points agree.** Exactly when the service turns the values
down anyway, or they pass the pipe that only REST has and nothing is left to a
category whose defaults the handler does not ask or nobody checks. -/
theorem entry_points_agree_iff (O : Outside) (id : Uuid) (values : CreateValues O.rt)
    (unspecified : Bool) (st : Store) :
    EntryPointsAgree O id values unspecified st ↔ Coincide O id values st := by
  cases hdown : turnsDown O.db id values.built st with
  | true => exact iff_of_true (agree_of_turnsDown unspecified hdown) (.inl hdown)
  | false =>
    constructor
    · exact coincide_of_agree hdown
    · rintro (hturned | ⟨hvalid, hdefaults⟩)
      · rw [hdown] at hturned
        cases hturned
      · exact agree_of_valid unspecified hdown hvalid hdefaults

/-! ## Too many retries -/

/-- A platform on which every payload is short. -/
def plainOutside : Outside where
  rt := { quietRuntime with parseJson := fun _ => some (.obj []) }
  db := plainDatabase
  validators := { isUuid := fun _ => true, stringify := fun _ => some "{}" }
  parse_empty := rfl
  keepsLength _ _ _ := rfl

/-- A hundred retries, where REST takes ten at most. -/
def hundredRetries : CreateValues plainOutside.rt where
  name := .val "cleanup"
  description := .undefined
  categoryId := .val "00000000-0000-4000-8000-00000000000c"
  targetService := .val "media-service"
  targetMethod := .val "cleanup"
  payload := .val ⟨.obj [], "{}", by decide, rfl⟩
  priority := .val .low
  maxRetries := .val (.fin 100)
  timeoutSeconds := .undefined
  createdBy := .undefined

def oneCategory : Store where
  categories := [{
    id := "00000000-0000-4000-8000-00000000000c"
    defaultPriority := .medium
    defaultTimeout := 300
    defaultMaxRetries := 3 }]
  jobs := { rows := [], nodup := List.nodup_nil }
  schedules := { rows := [], nodup := List.nodup_nil }
  queues _ := []

/-- REST turns them down and gRPC stores them. -/
theorem entry_points_disagree :
    ¬ EntryPointsAgree plainOutside "00000000-0000-4000-8000-00000000000d" hundredRetries false
      oneCategory := by
  intro hagree
  have hrest : (overRest plainOutside "00000000-0000-4000-8000-00000000000d" hundredRetries
      oneCategory).2 = .error (.invalid ["maxRetries"]) := rfl
  have hgrpc : ∃ job, (overGrpc plainOutside "00000000-0000-4000-8000-00000000000d"
      hundredRetries false oneCategory).2 = .ok job := ⟨_, rfl⟩
  obtain ⟨job, hjob⟩ := hgrpc
  have hrow := hagree.row
  rw [hrest, hjob] at hrow
  cases hrow

end SchedulingService.Grpc
