import SchedulingService.Js.Protobuf
import SchedulingService.Scheduler.Dto

/-!
# The gRPC scheduler service

The request messages of `scheduler.proto` and the five handlers of
`GrpcSchedulerService` that call the scheduler with them.

A handler reads its request through the TypeScript interface
(`request.categoryId`), that is by key from whatever object the loader made of
the message. What it does with the key's value is written out on run-time
values, so that a key the object does not have is `undefined` here as there.

What a handler returns is the call it makes on `SchedulerService`, or what it
throws before making one.
-/

namespace SchedulingService.Grpc

open Js Js.Protobuf Scheduler

/-! ## The messages of scheduler.proto -/

/-- `enum Priority`. -/
def priorityNames : List (Int32 × String) :=
  [(0, "PRIORITY_UNSPECIFIED"), (1, "LOW"), (2, "MEDIUM"), (3, "HIGH"), (4, "CRITICAL")]

/-- `enum ScheduleType`. -/
def scheduleTypeNames : List (Int32 × String) :=
  [(0, "SCHEDULE_TYPE_UNSPECIFIED"), (1, "CRON"), (2, "INTERVAL"), (3, "ONCE"),
    (4, "IMMEDIATE")]

structure CreateJobRequest where
  name : String
  description : String
  category_id : String
  target_service : String
  target_method : String
  payload : String
  priority : Int32
  max_retries : Int32
  timeout_seconds : Int32
  created_by : String

structure GetJobRequest where
  job_id : String

structure ScheduleJobRequest where
  job_id : String
  schedule_type : Int32
  cron_expression : String
  interval_seconds : Int32
  scheduled_at : Option Timestamp
  timezone : String
  starts_at : Option Timestamp
  ends_at : Option Timestamp

structure ExecuteJobRequest where
  job_id : String
  schedule_id : String
  correlation_id : String

structure CancelScheduleRequest where
  schedule_id : String

/-- A request of one of the rpcs that reach the scheduler. -/
inductive Request
  | createJob (m : CreateJobRequest)
  | getJob (m : GetJobRequest)
  | scheduleJob (m : ScheduleJobRequest)
  | executeJob (m : ExecuteJobRequest)
  | cancelSchedule (m : CancelScheduleRequest)

/-- The fields under their names in the `.proto`. -/
def Request.message : Request → Message
  | .createJob m =>
    [("name", .string m.name), ("description", .string m.description),
      ("category_id", .string m.category_id), ("target_service", .string m.target_service),
      ("target_method", .string m.target_method), ("payload", .string m.payload),
      ("priority", .enum priorityNames m.priority), ("max_retries", .int32 m.max_retries),
      ("timeout_seconds", .int32 m.timeout_seconds), ("created_by", .string m.created_by)]
  | .getJob m => [("job_id", .string m.job_id)]
  | .scheduleJob m =>
    [("job_id", .string m.job_id), ("schedule_type", .enum scheduleTypeNames m.schedule_type),
      ("cron_expression", .string m.cron_expression),
      ("interval_seconds", .int32 m.interval_seconds),
      ("scheduled_at", .timestamp m.scheduled_at), ("timezone", .string m.timezone),
      ("starts_at", .timestamp m.starts_at), ("ends_at", .timestamp m.ends_at)]
  | .executeJob m =>
    [("job_id", .string m.job_id), ("schedule_id", .string m.schedule_id),
      ("correlation_id", .string m.correlation_id)]
  | .cancelSchedule m => [("schedule_id", .string m.schedule_id)]

/-- The loader options of `main.ts`. -/
def loader : LoaderOptions where
  keepCase := true
  enumsAsString := true

/-! ## The handlers -/

/-- A call of a `SchedulerService` operation. -/
inductive Call
  | createJob (dto : CreateJobDto)
  | getJob (jobId : Value)
  | scheduleJob (dto : ScheduleJobDto)
  | executeJob (jobId scheduleId correlationId : Value)
  | cancelSchedule (scheduleId : Value)

/-- What a handler throws before it calls the scheduler. -/
inductive Thrown
  | syntaxError
  | typeError (message : String)
  | rangeError (message : String)
  | error (message : String)

/-- A computation that ends with a value went through with its first part. -/
theorem exists_of_bind_ok {α β : Type*} {x : Except Thrown α} {f : α → Except Thrown β} {r : β}
    (h : x.bind f = .ok r) : ∃ a, x = .ok a ∧ f a = .ok r := by
  cases x with
  | ok a => exact ⟨a, rfl, h⟩
  | error e => cases h

/-- `mapGrpcToPrismaPriority`: the cases are the numbers of the interface's
enum. -/
def mapGrpcToPrismaPriority (grpcPriority : Value) : Priority :=
  if grpcPriority.eqNum 1 then .low
  else if grpcPriority.eqNum 2 then .medium
  else if grpcPriority.eqNum 3 then .high
  else if grpcPriority.eqNum 4 then .critical
  else .medium

/-- `mapGrpcToPrismaScheduleType`. -/
def mapGrpcToPrismaScheduleType (grpcScheduleType : Value) : ScheduleType :=
  if grpcScheduleType.eqNum 1 then .cron
  else if grpcScheduleType.eqNum 2 then .interval
  else if grpcScheduleType.eqNum 3 then .once
  else if grpcScheduleType.eqNum 4 then .immediate
  else .once

/-- `a || b`. -/
def orDefault (a b : Value) : Value := if a.truthy then a else b

/-- `JSON.parse(v)`. -/
def jsonParse (rt : Runtime) (v : Value) : Except Thrown Value :=
  match rt.parseJson v with
  | some payload => .ok payload
  | none => .error .syntaxError

theorem parseJson_of_jsonParse {rt : Runtime} {v payload : Value}
    (h : jsonParse rt v = .ok payload) : rt.parseJson v = some payload := by
  unfold jsonParse at h
  split at h
  case h_1 parsed hparsed => rw [hparsed, Except.ok.inj h]
  case h_2 => cases h

/-- `v?.toISOString()`: only a date has that method. -/
def optionalISOString (rt : Runtime) : Value → Except Thrown Value
  | .undefined => .ok .undefined
  | .null => .ok .undefined
  | .date (.ms t) => .ok (.str (rt.toISOString t))
  | .date .invalid => .error (.rangeError "Invalid time value")
  | _ => .error (.typeError "toISOString is not a function")

def createJob (rt : Runtime) (request : Value) : Except Thrown Call := do
  let payload ← jsonParse rt (orDefault (request.get "payload") (.str "{}"))
  return .createJob {
    name := request.get "name"
    description := request.get "description"
    categoryId := request.get "categoryId"
    targetService := request.get "targetService"
    targetMethod := request.get "targetMethod"
    payload := payload
    priority := .val (mapGrpcToPrismaPriority (request.get "priority"))
    maxRetries := request.get "maxRetries"
    timeoutSeconds := request.get "timeoutSeconds"
    createdBy := request.get "createdBy" }

def getJob (request : Value) : Except Thrown Call :=
  return .getJob (request.get "jobId")

/-- The end of `scheduleJob`: a dto that fails its own check is not passed
on. -/
def scheduleValidated (rt : Runtime) (dto : ScheduleJobDto) : Except Thrown Call :=
  let validationErrors := dto.validate rt
  if validationErrors = [] then .ok (.scheduleJob dto)
  else .error (.error ("Validation failed: " ++ ", ".intercalate validationErrors))

def scheduleJob (rt : Runtime) (request : Value) : Except Thrown Call := do
  let scheduledAt ← optionalISOString rt (request.get "scheduledAt")
  let startsAt ← optionalISOString rt (request.get "startsAt")
  let endsAt ← optionalISOString rt (request.get "endsAt")
  scheduleValidated rt {
    jobId := request.get "jobId"
    scheduleType := mapGrpcToPrismaScheduleType (request.get "scheduleType")
    cronExpression := request.get "cronExpression"
    intervalSeconds := request.get "intervalSeconds"
    scheduledAt := scheduledAt
    timezone := request.get "timezone"
    startsAt := startsAt
    endsAt := endsAt }

def executeJob (request : Value) : Except Thrown Call :=
  return .executeJob (request.get "jobId") (request.get "scheduleId")
    (request.get "correlationId")

def cancelSchedule (request : Value) : Except Thrown Call :=
  return .cancelSchedule (request.get "scheduleId")

/-- A request as it arrives: decoded, then given to the handler of its rpc. -/
def handle (o : LoaderOptions) (rt : Runtime) (q : Request) : Except Thrown Call :=
  let request := toObject o q.message
  match q with
  | .createJob _ => createJob rt request
  | .getJob _ => getJob request
  | .scheduleJob _ => scheduleJob rt request
  | .executeJob _ => executeJob request
  | .cancelSchedule _ => cancelSchedule request

end SchedulingService.Grpc
