import SchedulingService.Auth.Guard
import SchedulingService.Messages.Validity
import SchedulingService.Scheduler.Execution
import SchedulingService.Scheduler.Integrity
import SchedulingService.Scheduler.Jobs
import SchedulingService.Scheduler.Scheduling

/-!
# The REST controllers

`ScheduledMessagesController`, `SchedulerController` and `HealthController`, with what
stands between a request and its handler: the public mark the guard of every route
reads, `InternalApiGuard`, the pipes, and `CurrentUser`. A handler runs on what the
service has stored.

* `oldOrWellFormed_handle` — the schedules that a handler stores are well formed.
-/

namespace SchedulingService.Http

open Js Common

/-- What a handler is given. -/
structure Env where
  auth : Auth.Env
  conversion : Conversion
  validators : Validators
  uuids : Messages.Uuids
  platform : Messages.Platform
  runtime : Scheduler.Runtime
  database : Scheduler.Database
  /-- `INTERNAL_API_TOKEN`. -/
  internalToken : Option String
  /-- What `ParseUUIDPipe` lets through. -/
  parseUuid : String → Bool
  /-- `isISO8601`, which `@IsDateString()` calls. -/
  isISO8601 : String → Bool

/-! ## Routes -/

/-- The routes of `ScheduledMessagesController`. -/
inductive MessagesRoute
  | create (body : Messages.CreateBody)
  | findAll
  | findOne (id : String)
  | update (id : String) (body : Messages.UpdateBody)
  | cancel (id : String)

/-- The routes of `SchedulerController` that are about one job or schedule. -/
inductive JobsRoute
  | createJob (dto : Scheduler.CreateJobDto)
  | getJob (jobId : String)
  | scheduleJob (jobId : String) (body : Scheduler.ScheduleJobDto)
  | executeJob (jobId : String)
  | cancelSchedule (scheduleId : String)

/-- The routes of `HealthController`. -/
inductive HealthRoute
  | check
  | readiness
  | alive

inductive Route
  | messages (route : MessagesRoute)
  | jobs (route : JobsRoute)
  | health (route : HealthRoute)

/-- `@Public()` stands on one controller. -/
def Route.controllerIsPublic : Route → Option Bool
  | health _ => some true
  | _ => none

/-- `@UseGuards(InternalApiGuard)`. -/
def Route.isInternal : Route → Bool
  | jobs _ => true
  | _ => false

structure Request where
  route : Route
  authorization : Option String
  /-- The header `x-internal-token`. -/
  internalToken : Option String

/-- What `JwtAuthGuard` reads of it. -/
def Request.guarded (request : Request) : Auth.Request where
  handlerIsPublic := none
  controllerIsPublic := request.route.controllerIsPublic
  authorization := request.authorization

/-- `InternalApiGuard.canActivate` returns. -/
def internalAllowed (E : Env) (request : Request) : Bool :=
  match E.internalToken with
  | none => false
  | some token =>
    -- an empty token counts as none, on either side
    if token = "" then false
    else match request.internalToken with
      | none => false
      | some provided => decide (provided ≠ "") && decide (provided = token)

/-- `CurrentUser('userId')`; `none` where it throws. -/
def currentUser (user : Option Auth.User) : Option Value :=
  match user with
  | none => none
  | some user => if user.userId.truthy then some user.userId else none

/-! ## Pipes -/

/-- The decorators of `ScheduleJobDto`. `@IsEnum(ScheduleType)` is met by every value
of its type. -/
def scheduleJobChecks (E : Env) (dto : Scheduler.ScheduleJobDto) : List (String × Bool) :=
  let isDateString : Value → Bool
    | .str s => E.isISO8601 s
    | _ => false
  [("jobId", isUUID E.validators dto.jobId && isNotEmpty dto.jobId),
    -- `@ValidateIf` leaves the others out for another type
    ("cronExpression", decide (dto.scheduleType ≠ .cron) ||
      (isString dto.cronExpression && isNotEmpty dto.cronExpression)),
    ("intervalSeconds", decide (dto.scheduleType ≠ .interval) ||
      (isInt dto.intervalSeconds && minValue 60 dto.intervalSeconds)),
    ("scheduledAt", decide (dto.scheduleType ≠ .once) || isDateString dto.scheduledAt),
    ("timezone", isOptional isString dto.timezone),
    ("startsAt", isOptional isDateString dto.startsAt),
    ("endsAt", isOptional isDateString dto.endsAt)]

/-- The properties that the pipe complains about. -/
def invalidSchedule (E : Env) (dto : Scheduler.ScheduleJobDto) : List String :=
  ((scheduleJobChecks E dto).filter fun check => !check.2).map Prod.fst

/-- The operation of the service, unless a pipe refuses a parameter. -/
def MessagesRoute.operation (E : Env) (fresh : Messages.Id) :
    MessagesRoute → Option Messages.Operation
  | create body =>
    (body.accepted E.conversion E.validators E.platform.newDate).map (.create fresh)
  | findAll => some .findAllByUser
  | findOne id => if E.parseUuid id then some (.findOne id) else none
  | update id body =>
    if E.parseUuid id then (body.accepted E.conversion E.platform.newDate).map (.update id)
    else none
  | cancel id => if E.parseUuid id then some (.cancel id) else none

/-! ## Handlers -/

/-- What the service has stored. -/
structure Data where
  messages : Messages.Table
  scheduler : Scheduler.Store
  /-- Every version of an execution that was persisted. -/
  executions : List Scheduler.Execution
  /-- The keys of the cache that the guard does not read. -/
  cache : String → Value

inductive Answer
  /-- `UnauthorizedException`. -/
  | unauthorized
  /-- `BadRequestException` of a pipe or of the controller. -/
  | badRequest (errors : List String)
  | messages (reply : Messages.Reply)
  | job (result : Except Scheduler.HttpException Scheduler.Job)
  | schedule (result : Except Scheduler.HttpException Scheduler.Schedule)
  | execution (result : Except Scheduler.Rejection Scheduler.Execution)
  | cancelled (result : Except Scheduler.NotCancelled Unit)
  /-- The states of the services; the status is `ok` if both are healthy. -/
  | health (database cache : Bool)
  | ready
  /-- `ServiceUnavailableException`, with the message of what was thrown. -/
  | notReady (error : Value)
  | alive

/-- How the calls of a health check come out. -/
structure HealthCalls where
  /-- `SELECT 1` returns. -/
  select : Bool
  set : Queues.Write
  get : Bool
  /-- `error.message` of what a call throws. -/
  message : Value

/-- How the calls that a handler awaits come out, and what is generated. -/
structure Outcome where
  now : Int
  fresh : Messages.Id
  jobId : Scheduler.Uuid
  scheduling : Scheduler.SchedulingCalls
  execution : Scheduler.ExecutionCalls
  cancelling : Scheduler.CancellingCalls
  health : HealthCalls

section Handlers

variable (E : Env) (o : Outcome) (d : Data)

/-- The service, called with a user id that is no text. No column of ids reads it. -/
def performWithoutText : Messages.Operation → Messages.Reply
  | .create _ dto =>
    match Messages.createMessage E.platform o.now .undefined dto with
    | .error e => .error (.http e)
    | .ok _ => .error .database
  | _ => .error .database

/-- `ScheduledMessagesController`, for the user that `CurrentUser` gives. -/
def handleMessages (route : MessagesRoute) (userId : Value) : Data × Answer :=
  match route.operation E o.fresh with
  | none => (d, .badRequest [])
  | some operation =>
    match userId with
    | .str userId =>
      let (messages, reply) :=
        Messages.perform E.uuids E.platform d.messages ⟨.val userId, o.now, operation⟩
      ({ d with messages }, .messages reply)
    | _ => (d, .messages (performWithoutText E o operation))

/-- `SchedulerService.getJob`. -/
def getJob (jobId : String) : Except Scheduler.HttpException Scheduler.Job :=
  match Scheduler.findOneById E.database Scheduler.Job.id d.scheduler.jobs.rows (.str jobId) with
  | .error () => .error (.internalServerError "Internal server error")
  | .ok none => .error (.notFound ("Job with ID " ++ jobId ++ " not found"))
  | .ok (some job) => .ok job

/-- `SchedulerController.scheduleJob`: the id of the path replaces that of the body
once the pipe has let the body through. -/
def scheduleJob (jobId : String) (body : Scheduler.ScheduleJobDto) : Data × Answer :=
  let rt := { E.runtime with now := o.now }
  match invalidSchedule E body with
  | [] =>
    let dto := { body with jobId := .str jobId }
    match dto.validate rt with
    | [] =>
      let (scheduler, result) :=
        Scheduler.scheduleJob rt E.database o.scheduling dto d.scheduler
      ({ d with scheduler }, .schedule result)
    | errors => (d, .badRequest errors)
  | properties => (d, .badRequest properties)

/-- `SchedulerController`. -/
def handleJobs : JobsRoute → Data × Answer
  | .createJob dto =>
    match dto.invalid E.validators with
    | [] =>
      let (scheduler, result) := Scheduler.createJob E.database o.jobId dto d.scheduler
      ({ d with scheduler }, .job result)
    | properties => (d, .badRequest properties)
  | .getJob jobId =>
    if E.parseUuid jobId then (d, .job (getJob E d jobId)) else (d, .badRequest [])
  | .scheduleJob jobId body =>
    if E.parseUuid jobId then scheduleJob E o d jobId body else (d, .badRequest [])
  | .executeJob jobId =>
    if E.parseUuid jobId then
      let (executions, result) := Scheduler.executeJob { E.runtime with now := o.now } E.database
        o.execution d.scheduler.jobs.rows (.str jobId) .undefined .undefined
      ({ d with executions := executions ++ d.executions }, .execution result)
    else (d, .badRequest [])
  | .cancelSchedule scheduleId =>
    if E.parseUuid scheduleId then
      let (scheduler, result) :=
        Scheduler.cancelSchedule E.database o.cancelling (.str scheduleId) d.scheduler
      ({ d with scheduler }, .cancelled result)
    else (d, .badRequest [])

/-- The data after `cacheManager.set(key, 'ok', 1000)`. -/
def setOk (key : String) : Data :=
  if o.health.set.stored then { d with cache := Function.update d.cache key (.str "ok") } else d

/-- `HealthController`. -/
def handleHealth : HealthRoute → Data × Answer
  | .check =>
    -- the two services are checked one after the other, whatever came of the first
    let d' := setOk o d "health-check"
    (d', .health o.health.select (o.health.set.returned && o.health.get))
  | .readiness =>
    let notReady := .notReady o.health.message
    if o.health.select then
      (setOk o d "readiness-check", if o.health.set.returned then .ready else notReady)
    else (d, notReady)
  | .alive => (d, .alive)

/-- What follows `JwtAuthGuard`, for the user it has set. -/
def handle (request : Request) (user : Option Auth.User) : Data × Answer :=
  if request.route.isInternal && !internalAllowed E request then (d, .unauthorized)
  else match request.route with
    | .messages route =>
      match currentUser user with
      | none => (d, .unauthorized)
      | some userId => handleMessages E o d route userId
    | .jobs route => handleJobs E o d route
    | .health route => handleHealth o d route

end Handlers

/-- None of the handlers of jobs writes a message. -/
theorem handleJobs_messages (E : Env) (o : Outcome) (d : Data) (route : JobsRoute) :
    (handleJobs E o d route).1.messages = d.messages := by
  cases route with
  | createJob dto =>
    simp only [handleJobs]
    split <;> rfl
  | getJob jobId =>
    simp only [handleJobs]
    split <;> rfl
  | scheduleJob jobId body =>
    simp only [handleJobs]
    split
    · unfold scheduleJob
      dsimp only
      split
      · split <;> rfl
      · rfl
    · rfl
  | executeJob jobId =>
    simp only [handleJobs]
    split <;> rfl
  | cancelSchedule scheduleId =>
    simp only [handleJobs]
    split <;> rfl

/-! ## What a health check does -/

/-- Only the keys of the health checks are other than before. -/
structure SameButHealth (d d' : Data) : Prop where
  messages : d'.messages = d.messages
  scheduler : d'.scheduler = d.scheduler
  executions : d'.executions = d.executions
  cache : ∀ key, key ≠ "health-check" → key ≠ "readiness-check" → d'.cache key = d.cache key

/-- The answers that say nothing of what is stored. -/
inductive Answer.OfHealth : Answer → Prop
  | health (database cache : Bool) : OfHealth (.health database cache)
  | ready : OfHealth .ready
  | notReady (error : Value) : OfHealth (.notReady error)
  | alive : OfHealth .alive

theorem sameButHealth_setOk (o : Outcome) (d : Data) {key : String}
    (hkey : key = "health-check" ∨ key = "readiness-check") : SameButHealth d (setOk o d key) := by
  unfold setOk
  split
  · refine ⟨rfl, rfl, rfl, fun other hcheck hready => ?_⟩
    have hne : other ≠ key := by
      rintro rfl
      exact hkey.elim hcheck hready
    exact Function.update_of_ne hne _ _
  · exact ⟨rfl, rfl, rfl, fun _ _ _ => rfl⟩

theorem handleHealth_spec (o : Outcome) (d : Data) (route : HealthRoute) :
    SameButHealth d (handleHealth o d route).1 ∧ (handleHealth o d route).2.OfHealth := by
  cases route with
  | check => exact ⟨sameButHealth_setOk o d (.inl rfl), .health _ _⟩
  | readiness =>
    simp only [handleHealth]
    split
    · refine ⟨sameButHealth_setOk o d (.inr rfl), ?_⟩
      split
      · exact .ready
      · exact .notReady _
    · exact ⟨⟨rfl, rfl, rfl, fun _ _ _ => rfl⟩, .notReady _⟩
  | alive => exact ⟨⟨rfl, rfl, rfl, fun _ _ _ => rfl⟩, .alive⟩

/-! ## Stored schedules -/

section Stored

open Scheduler (ScheduleJobDto Schedule WellFormed)

variable {E : Env} {o : Outcome} {d : Data} {body : ScheduleJobDto}

/-- What the pipe lets through has the field that its type needs. -/
theorem configured_of_invalidSchedule (hempty : E.isISO8601 "" = false)
    (h : invalidSchedule E body = []) (jobId : String) :
    ScheduleJobDto.Configured { body with jobId := .str jobId } := by
  have hchecks : ∀ check ∈ scheduleJobChecks E body, check.2 = true := by
    intro check hcheck
    simp only [invalidSchedule, List.map_eq_nil_iff, List.filter_eq_nil_iff] at h
    simpa using h check hcheck
  simp only [scheduleJobChecks, List.forall_mem_cons, Bool.or_eq_true, Bool.and_eq_true,
    decide_eq_true_eq] at hchecks
  obtain ⟨-, hcron, hinterval, honce, -⟩ := hchecks
  constructor
  · intro htype
    obtain ⟨htext, hnonempty⟩ := hcron.resolve_left (not_not_intro htype)
    show body.cronExpression.truthy = true
    cases hv : body.cronExpression <;> simp_all [isString, isNotEmpty, Value.truthy]
  · intro htype
    obtain ⟨-, hmin⟩ := hinterval.resolve_left (not_not_intro htype)
    show Scheduler.atLeastSixty body.intervalSeconds = true
    cases hv : body.intervalSeconds with
    | num n =>
      rw [hv] at hmin
      exact hmin
    | _ =>
      rw [hv] at hmin
      cases hmin
  · intro htype
    have hdate := honce.resolve_left (not_not_intro htype)
    show body.scheduledAt.truthy = true
    cases hv : body.scheduledAt with
    | str text =>
      -- the empty text is falsy, and no date
      rw [hv] at hdate
      have hne : text ≠ "" := by
        rintro rfl
        exact absurd (hempty.symm.trans hdate) (by simp)
      simpa [Value.truthy] using hne
    | _ =>
      rw [hv] at hdate
      cases hdate

/-- A row of the table is one of before, but for `isActive`, or well formed now. -/
def OldOrWellFormed (now : Int) (d d' : Data) : Prop :=
  ∀ row ∈ d'.scheduler.schedules.rows,
    (∃ row₀ ∈ d.scheduler.schedules.rows, row₀.Becomes row) ∨ WellFormed now row

theorem oldOrWellFormed_of_same {now : Int} {d' : Data}
    (h : d'.scheduler.schedules = d.scheduler.schedules) : OldOrWellFormed now d d' := by
  intro row hrow
  rw [h] at hrow
  exact .inl ⟨row, hrow, .rfl⟩

/-- What the controller adds to `validate`: the pipe, before the path's id is put in. -/
theorem oldOrWellFormed_scheduleJob (hempty : E.isISO8601 "" = false) (jobId : String) :
    OldOrWellFormed o.now d (scheduleJob E o d jobId body).1 := by
  unfold scheduleJob
  dsimp only
  cases hpipe : invalidSchedule E body with
  | cons property properties => exact oldOrWellFormed_of_same rfl
  | nil =>
    dsimp only
    split
    · -- the row is stored by the service, from a request that both have let through
      intro row hrow
      by_cases hold : row ∈ d.scheduler.schedules.rows
      · exact .inl ⟨row, hold, .rfl⟩
      · obtain ⟨job, schedules, hsaved⟩ := Scheduler.saved_of_stored hrow hold
        have hs := Scheduler.newSchedule_spec hsaved.row
        have hvalid := Scheduler.validated_of_validate hsaved.valid
        have hconfigured := configured_of_invalidSchedule hempty hpipe jobId
        have htype := hs.scheduleType.symm
        refine .inr ⟨?_, ?_, ?_, fun a b ha hb => Scheduler.stored_window hs hvalid ha hb⟩
        · intro ht
          exact (Scheduler.stored_cron_iff hs hvalid).mpr (hconfigured.cron (htype.trans ht))
        · intro ht
          exact (Scheduler.stored_interval_iff hs).mpr (hconfigured.interval (htype.trans ht))
        · intro ht
          have ht' := htype.trans ht
          exact (Scheduler.stored_once_iff hs hvalid ht').mpr (hconfigured.once ht')
    · exact oldOrWellFormed_of_same rfl

/-- Cancelling changes `isActive` of one row. -/
theorem schedules_cancelSchedule (db : Scheduler.Database) (calls : Scheduler.CancellingCalls)
    (id : Value) (st : Scheduler.Store) :
    (Scheduler.cancelSchedule db calls id st).1.schedules = st.schedules ∨
      ∃ row ∈ st.schedules.rows, (Scheduler.cancelSchedule db calls id st).1.schedules =
        st.schedules.put { row with isActive := false } := by
  have hfirst : (Scheduler.cancelSchedule db calls id st).1.schedules =
      (Scheduler.deactivate db calls id st).1.schedules := by
    unfold Scheduler.cancelSchedule
    split <;> simp_all
  rw [hfirst]
  unfold Scheduler.deactivate
  split
  · exact .inl rfl
  · split
    · exact .inl rfl
    · exact .inl rfl
    · rename_i row hfound
      by_cases hstored : calls.save.stored = true
      · refine .inr ⟨row, Scheduler.mem_of_findOneById hfound, ?_⟩
        simp [hstored]
      · refine .inl ?_
        simp [hstored]

theorem oldOrWellFormed_cancelSchedule (db : Scheduler.Database)
    (calls : Scheduler.CancellingCalls) (id : Value) (now : Int) :
    OldOrWellFormed now d
      { d with scheduler := (Scheduler.cancelSchedule db calls id d.scheduler).1 } := by
  rcases schedules_cancelSchedule db calls id d.scheduler with hsame | ⟨row, hrow, hput⟩
  · exact oldOrWellFormed_of_same hsame
  · intro x hx
    refine .inl ?_
    rw [hput] at hx
    obtain ⟨x₀, hx₀, rfl⟩ := List.mem_map.mp hx
    refine ⟨x₀, hx₀, ?_⟩
    by_cases hid : x₀.id = row.id
    · obtain rfl := d.scheduler.schedules.eq_of_key_eq hx₀ hrow hid
      rw [if_pos (by rfl)]
      exact ⟨rfl, rfl, rfl, ⟨rfl, rfl, rfl, rfl⟩, ⟨rfl, rfl⟩, fun h => by cases h⟩
    · rw [if_neg (by exact hid)]
      exact .rfl

/-- **Stored schedules.** Whatever a handler does: the schedules are those of before,
but for `isActive`, and well-formed ones. The service alone would store a type without
its field; the pipe refuses that. -/
theorem oldOrWellFormed_handle (hempty : E.isISO8601 "" = false) (request : Request)
    (user : Option Auth.User) : OldOrWellFormed o.now d (handle E o d request user).1 := by
  unfold handle
  split
  · exact oldOrWellFormed_of_same rfl
  · split
    · split
      · exact oldOrWellFormed_of_same rfl
      · unfold handleMessages
        split
        · exact oldOrWellFormed_of_same rfl
        · split <;> exact oldOrWellFormed_of_same rfl
    · rename_i route _
      cases route with
      | createJob dto =>
        simp only [handleJobs]
        split
        · refine oldOrWellFormed_of_same ?_
          rcases Scheduler.createJob_cases E.database o.jobId dto d.scheduler with
            ⟨-, _, hdown⟩ | ⟨-, _, _, _, -, -, -, hdone⟩
          · simp [hdown]
          · simp [hdone]
        · exact oldOrWellFormed_of_same rfl
      | getJob jobId =>
        simp only [handleJobs]
        split <;> exact oldOrWellFormed_of_same rfl
      | scheduleJob jobId body =>
        simp only [handleJobs]
        split
        · exact oldOrWellFormed_scheduleJob hempty jobId
        · exact oldOrWellFormed_of_same rfl
      | executeJob jobId =>
        simp only [handleJobs]
        split <;> exact oldOrWellFormed_of_same rfl
      | cancelSchedule scheduleId =>
        simp only [handleJobs]
        split
        · exact oldOrWellFormed_cancelSchedule E.database o.cancelling (.str scheduleId) o.now
        · exact oldOrWellFormed_of_same rfl
    · rename_i route _
      have hsame := (handleHealth_spec o d route).1.scheduler
      exact oldOrWellFormed_of_same (congrArg Scheduler.Store.schedules hsame)

end Stored

end SchedulingService.Http
