import SchedulingService.Queues.Queue

/-!
# `SchedulerService`: jobs and schedules

`createJob`, `scheduleJob`, `addToQueue` and `cancelSchedule` as functions of
the store they find and of how the calls they await come out. `scheduleJob` is
`saveSchedule`, up to and with the save of its row, followed by `addToQueue`:
the row is committed before the queue is asked.
-/

namespace SchedulingService.Scheduler

open Js Queues

/-- The exceptions of the service with their text. Anything else that is thrown
inside `createJob` and `scheduleJob` becomes an `internalServerError`. -/
inductive HttpException
  | badRequest (message : String)
  | notFound (message : String)
  | internalServerError (message : String)
  deriving DecidableEq

/-- The tables and the queues. -/
structure Store where
  categories : List JobCategory
  jobs : Keyed Job.id
  schedules : Keyed Schedule.id
  queues : Contents

/-- `${v}` for an id. -/
def idText : Value → String
  | .str s => s
  | .null => "null"
  | _ => "undefined"

/-- `v || w`. -/
def truthyOr (v w : Value) : Value := if v.truthy then v else w

/-! ## Jobs -/

/-- The row `save` inserts for a new job. -/
def newJob (db : Database) (id : Uuid) (dto : CreateJobDto) (priority : Priority) :
    Option Job := do
  let name ← notNull none (readVarchar 200) dto.name
  let description ← nullable readText dto.description
  let categoryId ← nullable db.readUuid dto.categoryId
  let targetService ← notNull none (readVarchar 100) dto.targetService
  let targetMethod ← notNull none (readVarchar 100) dto.targetMethod
  let payload ← notNull (some (.obj [])) db.jsonb dto.payload
  let maxRetries ← notNull (some 3) readInteger dto.maxRetries
  let timeoutSeconds ← notNull (some 300) readInteger dto.timeoutSeconds
  let createdBy ← nullable db.readUuid dto.createdBy
  some {
    id
    name
    description
    categoryId
    targetService
    targetMethod
    payload
    priority
    maxRetries
    timeoutSeconds
    isActive := true
    createdBy
    deletedAt := none }

/-- `v ?? n`. -/
def orNumber (v : Value) (n : Int) : Value := v.orElse (.num (.fin n))

/-- `{ ...createJobDto, maxRetries, timeoutSeconds }` with the category's
defaults. -/
def withDefaults (dto : CreateJobDto) (category : JobCategory) : CreateJobDto :=
  { dto with
    maxRetries := orNumber dto.maxRetries category.defaultMaxRetries
    timeoutSeconds := orNumber dto.timeoutSeconds category.defaultTimeout }

/-- `createJobDto.priority || category.defaultPriority`. -/
def priorityOr (dto : CreateJobDto) (category : JobCategory) : Priority :=
  dto.priority.toOption.getD category.defaultPriority

/-- `createJob`; `id` is the one the database generates. -/
def createJob (db : Database) (id : Uuid) (dto : CreateJobDto) (st : Store) :
    Store × Except HttpException Job :=
  match findOneById db JobCategory.id st.categories dto.categoryId with
  | .error () => (st, .error (.internalServerError "Failed to create job"))
  | .ok none =>
    (st, .error (.notFound ("Job category with ID " ++ idText dto.categoryId ++ " not found")))
  | .ok (some category) =>
    match newJob db id (withDefaults dto category) (priorityOr dto category) with
    | none => (st, .error (.internalServerError "Failed to create job"))
    | some job =>
      match st.jobs.insert job with
      | none => (st, .error (.internalServerError "Failed to create job"))
      | some jobs => ({ st with jobs }, .ok job)

/-! ## Schedules -/

/-- `v ? new Date(v) : null`. -/
def dateOrNull (rt : Runtime) (v : Value) : Value :=
  if v.truthy then .date (rt.newDate v) else .null

/-- The row `save` inserts for a new schedule; its job has to exist. -/
def newSchedule (rt : Runtime) (db : Database) (jobs : Keyed Job.id) (id : Uuid)
    (dto : ScheduleJobDto) : Option Schedule := do
  let jobId ← notNull none db.readUuid dto.jobId
  let _ ← jobs.get jobId
  let cronExpression ← nullable (readVarchar 100) (truthyOr dto.cronExpression .null)
  let intervalSeconds ← nullable readInteger (truthyOr dto.intervalSeconds .null)
  let scheduledAt ← nullable readTimestamp (dateOrNull rt dto.scheduledAt)
  let timezone ← notNull (some "UTC") (readVarchar 50) (truthyOr dto.timezone (.str "UTC"))
  let startsAt ← nullable readTimestamp (dateOrNull rt dto.startsAt)
  let endsAt ← nullable readTimestamp (dateOrNull rt dto.endsAt)
  some {
    id
    jobId
    scheduleType := dto.scheduleType
    cronExpression
    intervalSeconds
    scheduledAt
    timezone
    startsAt
    endsAt
    isActive := true }

/-- How the calls that `scheduleJob` awaits come out, and what is generated on
the way. -/
structure SchedulingCalls where
  lookup : Bool
  save : Write
  add : Write
  /-- The id of the row. -/
  id : Uuid
  stamp : Stamp

def failedToSchedule : HttpException := .internalServerError "Failed to schedule job"

/-- `scheduleJob` up to the save of the schedule: the job and the saved
schedule. -/
def saveSchedule (rt : Runtime) (db : Database) (calls : SchedulingCalls)
    (dto : ScheduleJobDto) (st : Store) : Store × Except HttpException (Job × Schedule) :=
  let validationErrors := dto.validate rt
  if validationErrors ≠ [] then
    (st, .error (.badRequest ("Validation failed: " ++ ", ".intercalate validationErrors)))
  else if !calls.lookup then (st, .error failedToSchedule)
  else match findOneById db Job.id st.jobs.rows dto.jobId with
    | .error () => (st, .error failedToSchedule)
    | .ok none => (st, .error (.notFound ("Job with ID " ++ idText dto.jobId ++ " not found")))
    | .ok (some job) =>
      if !job.isActive then (st, .error (.badRequest "Cannot schedule inactive job"))
      else match newSchedule rt db st.jobs calls.id dto with
        | none => (st, .error failedToSchedule)
        | some schedule =>
          match st.schedules.insert schedule with
          | none => (st, .error failedToSchedule)
          | some schedules =>
            (if calls.save.stored then { st with schedules } else st,
              if calls.save.returned then .ok (job, schedule) else .error failedToSchedule)

def getQueueName : Priority → QueueName
  | .critical => .high
  | .high => .high
  | .medium => .medium
  | .low => .low

/-- The call of the queue service `addToQueue` makes, if it makes one; `now` is
`Date.now()`. -/
def enqueue (stamp : Stamp) (now : Int) (job : Job) (schedule : Schedule) (qs : Contents) :
    Option Contents :=
  let queueName := getQueueName job.priority
  let data : JobData := { jobId := job.id, scheduleId := schedule.id }
  match schedule.scheduleType with
  -- no `jobId` here
  | .immediate => some (addJob qs stamp queueName "execute-job" data .none)
  | .once => schedule.scheduledAt.map fun scheduledAt =>
      addJob qs stamp queueName "execute-job" data
        { JobsOptions.none with
          delay := some (max 0 (scheduledAt - now))
          jobId := some schedule.id }
  -- an empty expression and a zero interval are no configuration
  | .cron => (schedule.cronExpression.filter (· ≠ "")).map fun cronExpression =>
      addRepeatableJob qs stamp queueName "execute-job" data
        { cron := some cronExpression
          tz := some schedule.timezone
          every := none
          startDate := none
          endDate := none
          limit := none }
        schedule.id
  | .interval => (schedule.intervalSeconds.filter (· ≠ 0)).map fun intervalSeconds =>
      addRepeatableJob qs stamp queueName "execute-job" data
        { cron := none
          tz := none
          every := some (intervalSeconds * 1000)
          startDate := none
          endDate := none
          limit := none }
        schedule.id

/-- `addToQueue`: the queues after it, and whether it returned. -/
def addToQueue (calls : SchedulingCalls) (now : Int) (job : Job) (schedule : Schedule)
    (qs : Contents) : Contents × Bool :=
  match enqueue calls.stamp now job schedule qs with
  | none => (qs, true)
  | some qs' => (if calls.add.stored then qs' else qs, calls.add.returned)

/-- `scheduleJob`. -/
def scheduleJob (rt : Runtime) (db : Database) (calls : SchedulingCalls)
    (dto : ScheduleJobDto) (st : Store) : Store × Except HttpException Schedule :=
  match saveSchedule rt db calls dto st with
  | (st', .error e) => (st', .error e)
  | (st', .ok (job, schedule)) =>
    let (queues, returned) := addToQueue calls rt.now job schedule st'.queues
    ({ st' with queues }, if returned then .ok schedule else .error failedToSchedule)

/-! ## Cancelling -/

/-- How the calls that `cancelSchedule` awaits come out. -/
structure CancellingCalls where
  lookup : Bool
  save : Write
  removal : QueueName → RemovalCalls

/-- What `cancelSchedule` rejects with. -/
inductive NotCancelled
  | notFound (message : String)
  /-- An error of the database goes through. -/
  | threw

/-- `cancelSchedule` up to the save of the schedule: the schedule it found. -/
def deactivate (db : Database) (calls : CancellingCalls) (scheduleId : Value)
    (st : Store) : Store × Except NotCancelled Schedule :=
  if !calls.lookup then (st, .error .threw)
  else match findOneById db Schedule.id st.schedules.rows scheduleId with
    | .error () => (st, .error .threw)
    | .ok none =>
      (st, .error (.notFound ("Schedule with ID " ++ idText scheduleId ++ " not found")))
    | .ok (some schedule) =>
      let schedules := st.schedules.put { schedule with isActive := false }
      (if calls.save.stored then { st with schedules } else st,
        if calls.save.returned then .ok schedule else .error .threw)

/-- `cancelSchedule`: the queues are searched for the id as it was given. -/
def cancelSchedule (db : Database) (calls : CancellingCalls) (scheduleId : Value)
    (st : Store) : Store × Except NotCancelled Unit :=
  match deactivate db calls scheduleId st with
  | (st', .error e) => (st', .error e)
  | (st', .ok _) =>
    ({ st' with queues := removeJob st'.queues scheduleId calls.removal }, .ok ())

/-! ## A small store -/

/-- A clock at zero and a parser that knows no text. -/
def quietRuntime : Runtime where
  parseJson _ := none
  newDate _ := .invalid
  toISOString _ := ""
  now := 0

/-- A database that takes ids and documents as they are written. -/
def plainDatabase : Database where
  uuid := some
  jsonb := some

def cleanupJob : Job where
  id := "00000000-0000-4000-8000-00000000000a"
  name := "cleanup"
  description := none
  categoryId := none
  targetService := "messaging"
  targetMethod := "cleanupExpiredMessages"
  payload := .obj []
  priority := .medium
  maxRetries := 3
  timeoutSeconds := 300
  isActive := true
  createdBy := none
  deletedAt := none

/-- A store with one job and nothing scheduled. -/
def oneJob (job : Job) : Store where
  categories := []
  jobs := { rows := [job], nodup := by simp }
  schedules := { rows := [], nodup := by simp }
  queues _ := []

end SchedulingService.Scheduler
