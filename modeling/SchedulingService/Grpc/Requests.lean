import SchedulingService.Grpc.Scheduler

/-!
# What a gRPC request says and what is done with it

A request says something under the names and the enums of `scheduler.proto`;
`CarriedBy` states when a call of the scheduler says the same. The handlers
are written against the keys of the TypeScript interface and the numbers of
its enums, and `main.ts` has the loader keep the names of the `.proto` and
spell enum values as strings, so between the two every key of more than one
word is lost without an error.

Main results:

* `carried_under_interface` — with the options the interface is written for,
  every call a handler makes carries its request and acts on the row it names.
* `target_undefined` — with the options of `main.ts`, every call looks its row
  up under the id `undefined`, and so (`acts_on_first_row`) acts on the first
  row of the table, whichever row the request names.
* `not_meansWhatItSays` — hence no request of any of the five rpcs is carried
  out as it says.
-/

namespace SchedulingService.Grpc

open Js Js.Protobuf Scheduler

/-! ## The meaning of a request -/

/-- The id of the row a request is about. -/
def Request.target : Request → String
  | .createJob m => m.category_id
  | .getJob m => m.job_id
  | .scheduleJob m => m.job_id
  | .executeJob m => m.job_id
  | .cancelSchedule m => m.schedule_id

/-- The id under which an operation looks up the row it acts on, before it
does anything else. -/
def Call.target : Call → Value
  | .createJob dto => dto.categoryId
  | .getJob jobId => jobId
  | .scheduleJob dto => dto.jobId
  | .executeJob jobId _ _ => jobId
  | .cancelSchedule scheduleId => scheduleId

def priorityName : Priority → String
  | .low => "LOW"
  | .medium => "MEDIUM"
  | .high => "HIGH"
  | .critical => "CRITICAL"

def scheduleTypeName : ScheduleType → String
  | .cron => "CRON"
  | .interval => "INTERVAL"
  | .once => "ONCE"
  | .immediate => "IMMEDIATE"

/-- An optional text: empty on the wire is as good as missing. -/
def SaysText (v : Value) (s : String) : Prop := v = .str s ∨ s = "" ∧ v.isNullish

/-- An optional number: zero on the wire is as good as missing. -/
def SaysNumber (v : Value) (n : Int32) : Prop := v = int32Value n ∨ n = 0 ∧ v.isNullish

/-- An optional time, as the scheduler reads it. -/
def SaysTime (rt : Runtime) (v : Value) : Option Timestamp → Prop
  | none => v.isNullish
  | some t => rt.newDate v = .ms t.millis

structure CreateJobRequest.CarriedBy (rt : Runtime) (m : CreateJobRequest)
    (dto : CreateJobDto) : Prop where
  category : dto.categoryId = .str m.category_id
  service : dto.targetService = .str m.target_service
  method : dto.targetMethod = .str m.target_method
  payload : rt.parseJson (.str (if m.payload = "" then "{}" else m.payload)) = some dto.payload
  priority : ∀ p, priorityNames.lookup m.priority = some (priorityName p) →
    dto.priority = .val p
  retries : dto.maxRetries = int32Value m.max_retries
  timeout : dto.timeoutSeconds = int32Value m.timeout_seconds

structure ScheduleJobRequest.CarriedBy (rt : Runtime) (m : ScheduleJobRequest)
    (dto : ScheduleJobDto) : Prop where
  job : dto.jobId = .str m.job_id
  scheduleType : ∀ t, scheduleTypeNames.lookup m.schedule_type = some (scheduleTypeName t) →
    dto.scheduleType = t
  cron : SaysText dto.cronExpression m.cron_expression
  interval : SaysNumber dto.intervalSeconds m.interval_seconds
  scheduledAt : SaysTime rt dto.scheduledAt m.scheduled_at
  timezone : SaysText dto.timezone m.timezone
  startsAt : SaysTime rt dto.startsAt m.starts_at
  endsAt : SaysTime rt dto.endsAt m.ends_at

/-- The call is the operation the request asks for, with what it says. -/
def Request.CarriedBy (rt : Runtime) : Request → Call → Prop
  | .createJob m, .createJob dto => m.CarriedBy rt dto
  | .getJob m, .getJob jobId => jobId = .str m.job_id
  | .scheduleJob m, .scheduleJob dto => m.CarriedBy rt dto
  | .executeJob m, .executeJob jobId scheduleId correlationId =>
    jobId = .str m.job_id ∧ SaysText scheduleId m.schedule_id ∧
      SaysText correlationId m.correlation_id
  | .cancelSchedule m, .cancelSchedule scheduleId => scheduleId = .str m.schedule_id
  | _, _ => False

/-! ## The row a call acts on -/

/-- `findOne({ where: { id } })` on the rows in the order the database returns
them: an `undefined` id is no condition. -/
def findOne {α : Type*} (idOf : α → String) (rows : List α) : Value → Option α
  | .undefined => rows.head?
  | .str id => rows.find? fun row => idOf row == id
  | _ => none

theorem findOne_undefined {α : Type*} (idOf : α → String) (rows : List α) :
    findOne idOf rows .undefined = rows.head? := rfl

theorem idOf_findOne {α : Type*} (idOf : α → String) {rows : List α} {id : String} {row : α}
    (h : findOne idOf rows (.str id) = some row) : idOf row = id := by
  simpa using List.find?_some h

/-- A request is carried out as it says: the scheduler is called with what the
request carries and, of the rows of the table the operation looks in, acts on
none but the one the request names. -/
def MeansWhatItSays {α : Type*} (o : LoaderOptions) (rt : Runtime) (idOf : α → String)
    (rows : List α) (q : Request) : Prop :=
  ∃ c, handle o rt q = .ok c ∧ q.CarriedBy rt c ∧
    ∀ row, findOne idOf rows c.target = some row → idOf row = q.target

/-- What carries a request is looked up under the id the request gives. -/
theorem Request.CarriedBy.target_eq {rt : Runtime} {q : Request} {c : Call}
    (h : q.CarriedBy rt c) : c.target = .str q.target := by
  cases q <;> cases c <;> simp only [Request.CarriedBy] at h
  case createJob => exact h.category
  case getJob => exact h
  case scheduleJob => exact h.job
  case executeJob => exact h.1
  case cancelSchedule => exact h

/-! ## The calls made with the options of main.ts -/

/-- The names of the requests' fields. -/
def fieldNames : List String :=
  ["name", "description", "category_id", "target_service", "target_method", "payload",
    "priority", "max_retries", "timeout_seconds", "created_by", "job_id", "schedule_type",
    "cron_expression", "interval_seconds", "scheduled_at", "timezone", "starts_at", "ends_at",
    "schedule_id", "correlation_id"]

theorem name_mem_fieldNames {q : Request} {f : String × Field} (hf : f ∈ q.message) :
    f.1 ∈ fieldNames := by
  have hnames : q.message.map Prod.fst ⊆ fieldNames := by
    cases q <;> simp [Request.message, fieldNames]
  exact hnames (List.mem_map_of_mem hf)

/-- The interface's keys of more than one word. -/
def multiWordKeys : List String :=
  ["categoryId", "targetService", "targetMethod", "maxRetries", "timeoutSeconds", "createdBy",
    "jobId", "scheduleType", "cronExpression", "intervalSeconds", "scheduledAt", "startsAt",
    "endsAt", "scheduleId", "correlationId"]

/-- No decoded request has any of them. -/
theorem get_multiWordKey (q : Request) (key : String) (hkey : key ∈ multiWordKeys) :
    (toObject loader q.message).get key = .undefined := by
  have hdisjoint : ∀ name ∈ fieldNames, name ∉ multiWordKeys := by decide
  apply get_toObject_of_ne
  intro f hf
  -- with `keepCase` the field keeps its name
  show f.1 ≠ key
  rintro rfl
  exact hdisjoint f.1 (name_mem_fieldNames hf) hkey

/-- Spelled as a string, every priority is read as MEDIUM. -/
theorem mapGrpcToPrismaPriority_loader (n : Int32) :
    mapGrpcToPrismaPriority (loader.enumValue priorityNames n) = .medium := by
  have hlost : ∀ k : Int32, (priorityNames.lookup k).isSome →
      (loader.enumValue priorityNames n).eqNum (.fin k.toInt) = false :=
    fun k hk => eqNum_enumValue_of_declared rfl hk n
  have h₁ : (loader.enumValue priorityNames n).eqNum 1 = false := hlost 1 rfl
  have h₂ : (loader.enumValue priorityNames n).eqNum 2 = false := hlost 2 rfl
  have h₃ : (loader.enumValue priorityNames n).eqNum 3 = false := hlost 3 rfl
  have h₄ : (loader.enumValue priorityNames n).eqNum 4 = false := hlost 4 rfl
  simp [mapGrpcToPrismaPriority, h₁, h₂, h₃, h₄]

section Main

variable (rt : Runtime)

/-- Of a CreateJob request the name, the description and the payload arrive. -/
theorem createJob_call (m : CreateJobRequest) :
    handle loader rt (.createJob m) =
      (jsonParse rt (orDefault (.str m.payload) (.str "{}"))).bind fun payload =>
        .ok (.createJob
          { name := .str m.name
            description := .str m.description
            categoryId := .undefined
            targetService := .undefined
            targetMethod := .undefined
            payload := payload
            priority := .val .medium
            maxRetries := .undefined
            timeoutSeconds := .undefined
            createdBy := .undefined }) := by
  rw [← mapGrpcToPrismaPriority_loader m.priority]
  rfl

/-- What of a ScheduleJob request arrives: the timezone, on a ONCE schedule. -/
def ScheduleJobRequest.arriving (m : ScheduleJobRequest) : ScheduleJobDto where
  jobId := .undefined
  scheduleType := .once
  cronExpression := .undefined
  intervalSeconds := .undefined
  scheduledAt := .undefined
  timezone := .str m.timezone
  startsAt := .undefined
  endsAt := .undefined

theorem validate_arriving (m : ScheduleJobRequest) :
    m.arriving.validate rt =
      if m.timezone ≠ "" ∧ m.timezone ∉ Common.validTimezones then ["Invalid timezone"]
      else [] := by
  simp [ScheduleJobDto.validate, ScheduleJobRequest.arriving, Value.truthy,
    Common.isValidTimezone]

theorem scheduleJob_call (m : ScheduleJobRequest) :
    handle loader rt (.scheduleJob m) = scheduleValidated rt m.arriving := rfl

theorem scheduleValidated_eq_ok {dto : ScheduleJobDto} {c : Call}
    (h : scheduleValidated rt dto = .ok c) : dto.validate rt = [] ∧ c = .scheduleJob dto := by
  simp only [scheduleValidated] at h
  split at h
  case isTrue hvalid => exact ⟨hvalid, (Except.ok.inj h).symm⟩
  case isFalse => cases h

/-- **Every call looks its row up under no id.** -/
theorem target_undefined {q : Request} {c : Call} (h : handle loader rt q = .ok c) :
    c.target = .undefined := by
  cases q with
  | createJob m =>
    obtain ⟨payload, -, hc⟩ := exists_of_bind_ok h
    cases hc
    exact get_multiWordKey (.createJob m) "categoryId" (by decide)
  | getJob m =>
    cases h
    exact get_multiWordKey (.getJob m) "jobId" (by decide)
  | scheduleJob m =>
    rw [scheduleJob_call] at h
    obtain ⟨-, rfl⟩ := scheduleValidated_eq_ok rt h
    rfl
  | executeJob m =>
    cases h
    exact get_multiWordKey (.executeJob m) "jobId" (by decide)
  | cancelSchedule m =>
    cases h
    exact get_multiWordKey (.cancelSchedule m) "scheduleId" (by decide)

/-- **Every call acts on the first row of the table**, whichever row its
request names. -/
theorem acts_on_first_row {α : Type*} (idOf : α → String) (rows : List α) {q : Request}
    {c : Call} (h : handle loader rt q = .ok c) : findOne idOf rows c.target = rows.head? := by
  rw [target_undefined rt h, findOne_undefined]

/-- A call that is made never carries its request. -/
theorem not_carriedBy {q : Request} {c : Call} (h : handle loader rt q = .ok c) :
    ¬ q.CarriedBy rt c := by
  intro hcarried
  -- the request gives a string, the call has `undefined`
  have htarget := hcarried.target_eq
  rw [target_undefined rt h] at htarget
  cases htarget

/-- **No request is carried out as it says**: whatever the rpc, its fields and
the rows of the table, either the handler throws or it calls the scheduler
with a missing id in place of the one the request gives. -/
theorem not_meansWhatItSays {α : Type*} (idOf : α → String) (rows : List α) (q : Request) :
    ¬ MeansWhatItSays loader rt idOf rows q := by
  rintro ⟨c, hcall, hcarried, -⟩
  exact not_carriedBy rt hcall hcarried

end Main

/-- Asked to cancel the second of two schedules, the scheduler is called with
no schedule id and finds the first. -/
theorem cancel_hits_another_schedule :
    let rt : Runtime :=
      { parseJson := fun _ => none
        newDate := fun _ => .invalid
        toISOString := fun _ => ""
        now := 0 }
    let first := "00000000-0000-4000-8000-000000000001"
    let second := "00000000-0000-4000-8000-000000000002"
    let q : Request := .cancelSchedule ⟨second⟩
    handle loader rt q = .ok (.cancelSchedule .undefined) ∧
      findOne id [first, second] .undefined = some first ∧
      ¬ MeansWhatItSays loader rt id [first, second] q := by
  refine ⟨rfl, rfl, ?_⟩
  rintro ⟨c, hcall, hcarried, -⟩
  exact not_carriedBy _ hcall hcarried

/-! ## With the options the interface is written for -/

/-- Keys in camel case and enum values as numbers. -/
def interfaceLoader : LoaderOptions where
  keepCase := false
  enumsAsString := false

theorem camelCase_fields :
    camelCase "name" = "name" ∧ camelCase "description" = "description" ∧
      camelCase "category_id" = "categoryId" ∧ camelCase "target_service" = "targetService" ∧
      camelCase "target_method" = "targetMethod" ∧ camelCase "payload" = "payload" ∧
      camelCase "priority" = "priority" ∧ camelCase "max_retries" = "maxRetries" ∧
      camelCase "timeout_seconds" = "timeoutSeconds" ∧ camelCase "created_by" = "createdBy" ∧
      camelCase "job_id" = "jobId" ∧ camelCase "schedule_type" = "scheduleType" ∧
      camelCase "cron_expression" = "cronExpression" ∧
      camelCase "interval_seconds" = "intervalSeconds" ∧
      camelCase "scheduled_at" = "scheduledAt" ∧ camelCase "timezone" = "timezone" ∧
      camelCase "starts_at" = "startsAt" ∧ camelCase "ends_at" = "endsAt" ∧
      camelCase "schedule_id" = "scheduleId" ∧
      camelCase "correlation_id" = "correlationId" := by
  decide

theorem toObject_interface_createJob (m : CreateJobRequest) :
    toObject interfaceLoader (Request.message (.createJob m)) =
      .obj [("name", .str m.name), ("description", .str m.description),
        ("categoryId", .str m.category_id), ("targetService", .str m.target_service),
        ("targetMethod", .str m.target_method), ("payload", .str m.payload),
        ("priority", interfaceLoader.enumValue priorityNames m.priority),
        ("maxRetries", int32Value m.max_retries),
        ("timeoutSeconds", int32Value m.timeout_seconds),
        ("createdBy", .str m.created_by)] := by
  simp [toObject, Request.message, LoaderOptions.key, LoaderOptions.value, interfaceLoader,
    camelCase_fields]

theorem toObject_interface_scheduleJob (m : ScheduleJobRequest) :
    toObject interfaceLoader (Request.message (.scheduleJob m)) =
      .obj [("jobId", .str m.job_id),
        ("scheduleType", interfaceLoader.enumValue scheduleTypeNames m.schedule_type),
        ("cronExpression", .str m.cron_expression),
        ("intervalSeconds", int32Value m.interval_seconds),
        ("scheduledAt", interfaceLoader.value (.timestamp m.scheduled_at)),
        ("timezone", .str m.timezone),
        ("startsAt", interfaceLoader.value (.timestamp m.starts_at)),
        ("endsAt", interfaceLoader.value (.timestamp m.ends_at))] := by
  simp [toObject, Request.message, LoaderOptions.key, LoaderOptions.value, interfaceLoader,
    camelCase_fields]

theorem toObject_interface_executeJob (m : ExecuteJobRequest) :
    toObject interfaceLoader (Request.message (.executeJob m)) =
      .obj [("jobId", .str m.job_id), ("scheduleId", .str m.schedule_id),
        ("correlationId", .str m.correlation_id)] := by
  simp [toObject, Request.message, LoaderOptions.key, LoaderOptions.value, interfaceLoader,
    camelCase_fields]

/-- A name an enum value has is declared for it. -/
theorem mem_of_lookup {names : List (Int32 × String)} {n : Int32} {name : String}
    (h : names.lookup n = some name) : (n, name) ∈ names := by
  obtain ⟨before, after, hsplit, -⟩ := List.lookup_eq_some_iff.mp h
  rw [hsplit]
  simp

theorem mapGrpcToPrismaPriority_interface {n : Int32} {p : Priority}
    (h : priorityNames.lookup n = some (priorityName p)) :
    mapGrpcToPrismaPriority (interfaceLoader.enumValue priorityNames n) = p := by
  have hmem := mem_of_lookup h
  cases p <;> simp [priorityNames, priorityName] at hmem <;> subst hmem <;> rfl

theorem mapGrpcToPrismaScheduleType_interface {n : Int32} {t : ScheduleType}
    (h : scheduleTypeNames.lookup n = some (scheduleTypeName t)) :
    mapGrpcToPrismaScheduleType (interfaceLoader.enumValue scheduleTypeNames n) = t := by
  have hmem := mem_of_lookup h
  cases t <;> simp [scheduleTypeNames, scheduleTypeName] at hmem <;> subst hmem <;> rfl

/-- A timestamp is decoded to an object, and an object has no `toISOString`:
only a missing time gets through. -/
theorem optionalISOString_timestamp {rt : Runtime} {o : LoaderOptions} {t : Option Timestamp}
    {v : Value} (h : optionalISOString rt (o.value (.timestamp t)) = .ok v) :
    t = none ∧ v = .undefined := by
  cases t with
  | none =>
    cases h
    exact ⟨rfl, rfl⟩
  | some t => cases h

section Interface

variable {rt : Runtime}

theorem createJob_carried {m : CreateJobRequest} {c : Call}
    (h : handle interfaceLoader rt (.createJob m) = .ok c) :
    Request.CarriedBy rt (.createJob m) c := by
  simp only [handle, toObject_interface_createJob] at h
  obtain ⟨payload, hparse, hc⟩ := exists_of_bind_ok h
  cases hc
  have hpayload : rt.parseJson (.str (if m.payload = "" then "{}" else m.payload)) =
      some payload := by
    -- `request.payload || '{}'` on a string
    have htext : orDefault (.str m.payload) (.str "{}") =
        .str (if m.payload = "" then "{}" else m.payload) := by
      by_cases hempty : m.payload = "" <;> simp [orDefault, Value.truthy, hempty]
    rw [← htext]
    exact parseJson_of_jsonParse hparse
  exact
    { category := rfl
      service := rfl
      method := rfl
      payload := hpayload
      priority := fun p hp => congrArg Slot.val (mapGrpcToPrismaPriority_interface hp)
      retries := rfl
      timeout := rfl }

theorem scheduleJob_carried {m : ScheduleJobRequest} {c : Call}
    (h : handle interfaceLoader rt (.scheduleJob m) = .ok c) :
    Request.CarriedBy rt (.scheduleJob m) c := by
  simp only [handle, toObject_interface_scheduleJob] at h
  obtain ⟨scheduledAt, hscheduled, h⟩ := exists_of_bind_ok h
  obtain ⟨startsAt, hstarts, h⟩ := exists_of_bind_ok h
  obtain ⟨endsAt, hends, h⟩ := exists_of_bind_ok h
  -- a time that was given would have thrown
  obtain ⟨hnone, rfl⟩ := optionalISOString_timestamp hscheduled
  obtain ⟨hnone', rfl⟩ := optionalISOString_timestamp hstarts
  obtain ⟨hnone'', rfl⟩ := optionalISOString_timestamp hends
  obtain ⟨-, rfl⟩ := scheduleValidated_eq_ok rt h
  exact
    { job := rfl
      scheduleType := fun t ht => mapGrpcToPrismaScheduleType_interface ht
      cron := .inl rfl
      interval := .inl rfl
      scheduledAt := by rw [hnone]; rfl
      timezone := .inl rfl
      startsAt := by rw [hnone']; rfl
      endsAt := by rw [hnone'']; rfl }

/-- **Under the interface's options a call carries its request.** -/
theorem carried_under_interface {q : Request} {c : Call}
    (h : handle interfaceLoader rt q = .ok c) : q.CarriedBy rt c := by
  cases q with
  | createJob m => exact createJob_carried h
  | getJob m =>
    cases h
    have hkey : interfaceLoader.key "job_id" = "jobId" := by decide
    have hget := get_toObject interfaceLoader [] [] "job_id" (.string m.job_id) (by simp)
    rw [hkey] at hget
    exact hget
  | scheduleJob m => exact scheduleJob_carried h
  | executeJob m =>
    simp only [handle, toObject_interface_executeJob] at h
    cases h
    exact ⟨rfl, .inl rfl, .inl rfl⟩
  | cancelSchedule m =>
    cases h
    have hkey : interfaceLoader.key "schedule_id" = "scheduleId" := by decide
    have hget := get_toObject interfaceLoader [] [] "schedule_id" (.string m.schedule_id) (by simp)
    rw [hkey] at hget
    exact hget

/-- … and acts on no row but the one it names. -/
theorem acts_on_named_row {α : Type*} (idOf : α → String) {rows : List α} {q : Request}
    {c : Call} (h : handle interfaceLoader rt q = .ok c) {row : α}
    (hrow : findOne idOf rows c.target = some row) : idOf row = q.target := by
  rw [(carried_under_interface h).target_eq] at hrow
  exact idOf_findOne idOf hrow

end Interface

end SchedulingService.Grpc
