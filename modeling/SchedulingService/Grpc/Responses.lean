import SchedulingService.Grpc.Requests
import SchedulingService.Js.Json
import SchedulingService.Js.ProtobufSchema
import SchedulingService.Scheduler.Paging

/-!
# What a gRPC client is answered

A row on its way out: `SchedulerService` makes a response of it, `GrpcSchedulerService`
makes the message's object of that, and the loader encodes the object. The object has
the keys of the TypeScript interface, and the loader of `main.ts` looks under the names
of `scheduler.proto`.

Main result: `replies_alike_iff` — which rows a client can tell apart.
-/

namespace SchedulingService.Grpc

open Js Js.Protobuf Scheduler

/-! ## The messages of scheduler.proto -/

/-- `enum ExecutionStatus`. -/
def executionStatusNames : List (Int32 × String) :=
  [(0, "EXECUTION_STATUS_UNSPECIFIED"), (1, "PENDING"), (2, "RUNNING"), (3, "COMPLETED"),
    (4, "FAILED"), (5, "CANCELLED"), (6, "TIMEOUT")]

def jobResponse : Schema :=
  [("id", .string), ("name", .string), ("description", .string), ("category_id", .string),
    ("target_service", .string), ("target_method", .string), ("payload", .string),
    ("priority", .enum priorityNames), ("max_retries", .int32), ("timeout_seconds", .int32),
    ("is_active", .bool), ("created_by", .string), ("created_at", .timestamp),
    ("updated_at", .timestamp)]

def scheduleResponse : Schema :=
  [("id", .string), ("job_id", .string), ("schedule_type", .enum scheduleTypeNames),
    ("cron_expression", .string), ("interval_seconds", .int32), ("scheduled_at", .timestamp),
    ("timezone", .string), ("starts_at", .timestamp), ("ends_at", .timestamp),
    ("is_active", .bool), ("created_at", .timestamp), ("updated_at", .timestamp)]

def executionResponse : Schema :=
  [("id", .string), ("job_id", .string), ("schedule_id", .string),
    ("status", .enum executionStatusNames), ("started_at", .timestamp),
    ("completed_at", .timestamp), ("failed_at", .timestamp), ("attempt_number", .int32),
    ("result_data", .string), ("error_data", .string), ("duration_ms", .int32),
    ("worker_id", .string), ("correlation_id", .string), ("created_at", .timestamp)]

/-! ## Rows with their time stamps -/

structure JobRow extends Job where
  createdAt : Int
  updatedAt : Int

structure ScheduleRow extends Schedule where
  createdAt : Int
  updatedAt : Int

/-! ## `SchedulerService` -/

/-- The members of the enums are their names. -/
def executionStatusName : ExecutionStatus → String
  | .pending => "PENDING"
  | .running => "RUNNING"
  | .completed => "COMPLETED"
  | .failed => "FAILED"
  | .cancelled => "CANCELLED"
  | .timeout => "TIMEOUT"

/-- `column ?? undefined`. -/
def orMissing {α : Type} (ofVal : α → Value) (column : Option α) : Value :=
  (orUndefined column).toValue ofVal

def intValue (n : Int) : Value := .num (.fin n)

def dateValue (t : Int) : Value := .date (.ms t)

def mapJobToResponse (job : JobRow) : Value :=
  .obj [
    ("id", .str job.id),
    ("name", .str job.name),
    ("description", orMissing .str job.description),
    ("categoryId", (Slot.ofNullable job.categoryId).toValue .str),
    ("targetService", .str job.targetService),
    ("targetMethod", .str job.targetMethod),
    ("payload", job.payload),
    ("priority", .str (priorityName job.priority)),
    ("maxRetries", intValue job.maxRetries),
    ("timeoutSeconds", intValue job.timeoutSeconds),
    ("isActive", .bool job.isActive),
    ("createdBy", orMissing .str job.createdBy),
    ("createdAt", dateValue job.createdAt),
    ("updatedAt", dateValue job.updatedAt),
    ("deletedAt", orMissing dateValue job.deletedAt)]

def mapScheduleToResponse (schedule : ScheduleRow) : Value :=
  .obj [
    ("id", .str schedule.id),
    ("jobId", .str schedule.jobId),
    ("scheduleType", .str (scheduleTypeName schedule.scheduleType)),
    ("cronExpression", orMissing .str schedule.cronExpression),
    ("intervalSeconds", orMissing intValue schedule.intervalSeconds),
    ("scheduledAt", orMissing dateValue schedule.scheduledAt),
    ("timezone", .str schedule.timezone),
    ("startsAt", orMissing dateValue schedule.startsAt),
    ("endsAt", orMissing dateValue schedule.endsAt),
    ("isActive", .bool schedule.isActive),
    ("createdAt", dateValue schedule.createdAt),
    ("updatedAt", dateValue schedule.updatedAt)]

/-- The response of an execution as an object. -/
def executionObject (execution : ExecutionResponseDto) : Value :=
  .obj [
    ("id", .str execution.id),
    ("jobId", .str execution.jobId),
    ("scheduleId", execution.scheduleId.toValue .str),
    ("status", .str (executionStatusName execution.status)),
    ("startedAt", dateValue execution.startedAt),
    ("completedAt", execution.completedAt.toValue dateValue),
    ("failedAt", execution.failedAt.toValue dateValue),
    ("attemptNumber", intValue execution.attemptNumber),
    ("resultData", execution.resultData.toValue id),
    ("errorData", execution.errorData.toValue id),
    ("durationMs", execution.durationMs.toValue intValue),
    ("workerId", execution.workerId.toValue .str),
    ("correlationId", execution.correlationId.toValue .str),
    ("createdAt", dateValue execution.createdAt)]

/-! ## `GrpcSchedulerService` -/

def mapPrismaToGrpcPriority : Value → Value
  | .str "LOW" => intValue 1
  | .str "MEDIUM" => intValue 2
  | .str "HIGH" => intValue 3
  | .str "CRITICAL" => intValue 4
  | _ => intValue 2

def mapPrismaToGrpcScheduleType : Value → Value
  | .str "CRON" => intValue 1
  | .str "INTERVAL" => intValue 2
  | .str "ONCE" => intValue 3
  | .str "IMMEDIATE" => intValue 4
  | _ => intValue 3

def mapPrismaToGrpcExecutionStatus : Value → Value
  | .str "PENDING" => intValue 1
  | .str "RUNNING" => intValue 2
  | .str "COMPLETED" => intValue 3
  | .str "FAILED" => intValue 4
  | .str "CANCELLED" => intValue 5
  | .str "TIMEOUT" => intValue 6
  | _ => intValue 1

section Mapping

variable (T : Texts)

/-- `JSON.stringify(v)`. -/
def stringifyValue (v : Value) : Value := ((stringify T v).map Value.str).getD .undefined

def mapJobToGrpcResponse (job : Value) : Value :=
  .obj [
    ("id", job.get "id"),
    ("name", job.get "name"),
    ("description", job.get "description"),
    ("categoryId", (job.get "categoryId").orElse (.str "")),
    ("targetService", job.get "targetService"),
    ("targetMethod", job.get "targetMethod"),
    ("payload", stringifyValue T (job.get "payload")),
    ("priority", mapPrismaToGrpcPriority (job.get "priority")),
    ("maxRetries", job.get "maxRetries"),
    ("timeoutSeconds", job.get "timeoutSeconds"),
    ("isActive", job.get "isActive"),
    ("createdBy", job.get "createdBy"),
    ("createdAt", job.get "createdAt"),
    ("updatedAt", job.get "updatedAt")]

def mapScheduleToGrpcResponse (schedule : Value) : Value :=
  .obj [
    ("id", schedule.get "id"),
    ("jobId", schedule.get "jobId"),
    ("scheduleType", mapPrismaToGrpcScheduleType (schedule.get "scheduleType")),
    ("cronExpression", schedule.get "cronExpression"),
    ("intervalSeconds", schedule.get "intervalSeconds"),
    ("scheduledAt", schedule.get "scheduledAt"),
    ("timezone", schedule.get "timezone"),
    ("startsAt", schedule.get "startsAt"),
    ("endsAt", schedule.get "endsAt"),
    ("isActive", schedule.get "isActive"),
    ("createdAt", schedule.get "createdAt"),
    ("updatedAt", schedule.get "updatedAt")]

/-- `v ? JSON.stringify(v) : undefined`. -/
def stringifyIfAny (v : Value) : Value := if v.truthy then stringifyValue T v else .undefined

def mapExecutionToGrpcResponse (execution : Value) : Value :=
  .obj [
    ("id", execution.get "id"),
    ("jobId", execution.get "jobId"),
    ("scheduleId", execution.get "scheduleId"),
    ("status", mapPrismaToGrpcExecutionStatus (execution.get "status")),
    ("startedAt", execution.get "startedAt"),
    ("completedAt", execution.get "completedAt"),
    ("failedAt", execution.get "failedAt"),
    ("attemptNumber", execution.get "attemptNumber"),
    ("resultData", stringifyIfAny T (execution.get "resultData")),
    ("errorData", stringifyIfAny T (execution.get "errorData")),
    ("durationMs", execution.get "durationMs"),
    ("workerId", execution.get "workerId"),
    ("correlationId", execution.get "correlationId"),
    ("createdAt", execution.get "createdAt")]

/-! ## What is put on the wire -/

variable (C : Conversions)

/-- The answer to CreateJob and GetJob. -/
def jobReply (job : JobRow) : Option (List Wire) :=
  fromObject C loader jobResponse (mapJobToGrpcResponse T (mapJobToResponse job))

/-- The answer to ScheduleJob. -/
def scheduleReply (schedule : ScheduleRow) : Option (List Wire) :=
  fromObject C loader scheduleResponse
    (mapScheduleToGrpcResponse (mapScheduleToResponse schedule))

/-- The answer to ExecuteJob. -/
def executionReply (execution : ExecutionRow) : Option (List Wire) :=
  fromObject C loader executionResponse
    (mapExecutionToGrpcResponse T (executionObject (mapExecutionToResponse execution)))

end Mapping

/-! ## What a client can tell apart -/

/-- The fields of a message whose names are keys of the interface. -/
def jobFound : Schema :=
  [("id", .string), ("name", .string), ("description", .string), ("payload", .string),
    ("priority", .enum priorityNames)]

def scheduleFound : Schema := [("id", .string), ("timezone", .string)]

def executionFound : Schema := [("id", .string), ("status", .enum executionStatusNames)]

section Found

variable (T : Texts) (C : Conversions)

theorem findsOnly_job (job : JobRow) :
    FindsOnly loader jobResponse jobFound (mapJobToGrpcResponse T (mapJobToResponse job)) := by
  unfold FindsOnly jobResponse
  simp only [List.forall_mem_cons, List.not_mem_nil, false_implies, implies_true, and_true]
  refine ⟨.inl (by decide), .inl (by decide), .inl (by decide), .inr rfl, .inr rfl, .inr rfl,
    .inl (by decide), .inl (by decide), .inr rfl, .inr rfl, .inr rfl, .inr rfl, .inr rfl,
    .inr rfl⟩

theorem findsOnly_schedule (schedule : ScheduleRow) :
    FindsOnly loader scheduleResponse scheduleFound
      (mapScheduleToGrpcResponse (mapScheduleToResponse schedule)) := by
  unfold FindsOnly scheduleResponse
  simp only [List.forall_mem_cons, List.not_mem_nil, false_implies, implies_true, and_true]
  refine ⟨.inl (by decide), .inr rfl, .inr rfl, .inr rfl, .inr rfl, .inr rfl, .inl (by decide),
    .inr rfl, .inr rfl, .inr rfl, .inr rfl, .inr rfl⟩

theorem findsOnly_execution (execution : ExecutionRow) :
    FindsOnly loader executionResponse executionFound
      (mapExecutionToGrpcResponse T (executionObject (mapExecutionToResponse execution))) := by
  unfold FindsOnly executionResponse
  simp only [List.forall_mem_cons, List.not_mem_nil, false_implies, implies_true, and_true]
  refine ⟨.inl (by decide), .inr rfl, .inr rfl, .inl (by decide), .inr rfl, .inr rfl, .inr rfl,
    .inr rfl, .inr rfl, .inr rfl, .inr rfl, .inr rfl, .inr rfl, .inr rfl⟩

theorem readString_orMissing (text : Option String) :
    C.readString (orMissing .str text) = some (text.getD "") := by
  cases text with
  | none => rfl
  | some s => exact C.readString_str s

theorem readString_stringifyValue (v : Value) :
    C.readString (stringifyValue T v) = some ((stringify T v).getD "") := by
  unfold stringifyValue
  cases stringify T v with
  | none => rfl
  | some text => exact C.readString_str text

/-- The mappers have a number for each member of an enum. -/
theorem readEnum_priority {p p' : Priority}
    (h : readEnum priorityNames (mapPrismaToGrpcPriority (.str (priorityName p))) =
      readEnum priorityNames (mapPrismaToGrpcPriority (.str (priorityName p')))) : p = p' := by
  revert h
  cases p <;> cases p' <;> decide

theorem readEnum_status {status status' : ExecutionStatus}
    (h : readEnum executionStatusNames
        (mapPrismaToGrpcExecutionStatus (.str (executionStatusName status))) =
      readEnum executionStatusNames
        (mapPrismaToGrpcExecutionStatus (.str (executionStatusName status')))) :
    status = status' := by
  revert h
  cases status <;> cases status' <;> decide

end Found

/-- A client sees nothing else of a job. -/
structure JobsAlike (T : Texts) (job job' : JobRow) : Prop where
  id : job.id = job'.id
  name : job.name = job'.name
  /-- No description is as good as an empty one. -/
  description : job.description.getD "" = job'.description.getD ""
  payload : (stringify T job.payload).getD "" = (stringify T job'.payload).getD ""
  priority : job.priority = job'.priority

section Replies

variable (T : Texts) (C : Conversions)

/-- The number of a member on the wire. -/
def priorityNumberOf (p : Priority) : Int32 :=
  readEnum priorityNames (mapPrismaToGrpcPriority (.str (priorityName p)))

def statusNumberOf (status : ExecutionStatus) : Int32 :=
  readEnum executionStatusNames
    (mapPrismaToGrpcExecutionStatus (.str (executionStatusName status)))

/-- What the encoder reads of a job. -/
theorem readFound_job (job : JobRow) :
    readFound C loader jobFound (mapJobToGrpcResponse T (mapJobToResponse job)) =
      [.string job.id, .string job.name, .string (job.description.getD ""),
        .string ((stringify T job.payload).getD ""), .enum (priorityNumberOf job.priority)].map
          some := by
  have hid : C.readString (.str job.id) = some job.id := C.readString_str _
  have hname : C.readString (.str job.name) = some job.name := C.readString_str _
  have hdescription := readString_orMissing C job.description
  have hpayload := readString_stringifyValue T C job.payload
  show [(C.readString (.str job.id)).map Wire.string, (C.readString (.str job.name)).map _,
    (C.readString (orMissing .str job.description)).map _,
    (C.readString (stringifyValue T job.payload)).map _, _] = _
  rw [hid, hname, hdescription, hpayload]
  rfl

theorem readFound_schedule (schedule : ScheduleRow) :
    readFound C loader scheduleFound
        (mapScheduleToGrpcResponse (mapScheduleToResponse schedule)) =
      [.string schedule.id, .string schedule.timezone].map some := by
  have hid : C.readString (.str schedule.id) = some schedule.id := C.readString_str _
  have htimezone : C.readString (.str schedule.timezone) = some schedule.timezone :=
    C.readString_str _
  show [(C.readString (.str schedule.id)).map Wire.string,
    (C.readString (.str schedule.timezone)).map _] = _
  rw [hid, htimezone]
  rfl

theorem readFound_execution (execution : ExecutionRow) :
    readFound C loader executionFound
        (mapExecutionToGrpcResponse T (executionObject (mapExecutionToResponse execution))) =
      [.string execution.id, .enum (statusNumberOf execution.status)].map some := by
  have hid : C.readString (.str execution.id) = some execution.id := C.readString_str _
  show [(C.readString (.str execution.id)).map Wire.string, _] = _
  rw [hid]
  rfl

end Replies

/-- **What a client can tell apart.** Under the options of `main.ts` two jobs are
answered alike exactly if they agree in id, name, description, payload and priority,
two schedules if they agree in id and timezone, and two executions in id and status.
The client sees nothing of what a schedule or an execution is of, or when. -/
theorem replies_alike_iff (T : Texts) (C : Conversions) :
    (∀ job job', jobReply T C job = jobReply T C job' ↔ JobsAlike T job job') ∧
    (∀ schedule schedule', scheduleReply C schedule = scheduleReply C schedule' ↔
      schedule.id = schedule'.id ∧ schedule.timezone = schedule'.timezone) ∧
    ∀ execution execution', executionReply T C execution = executionReply T C execution' ↔
      execution.id = execution'.id ∧ execution.status = execution'.status := by
  refine ⟨fun job job' => ?_, fun schedule schedule' => ?_, fun execution execution' => ?_⟩
  · rw [jobReply, jobReply, fromObject_eq_iff_found (by decide) (findsOnly_job T job)
      (findsOnly_job T job') (readFound_job T C job) (readFound_job T C job')]
    simp only [List.cons.injEq, Wire.string.injEq, Wire.enum.injEq, and_true]
    constructor
    · rintro ⟨hid, hname, hdescription, hpayload, hpriority⟩
      exact ⟨hid, hname, hdescription, hpayload, readEnum_priority hpriority⟩
    · rintro ⟨hid, hname, hdescription, hpayload, hpriority⟩
      exact ⟨hid, hname, hdescription, hpayload, by rw [hpriority]⟩
  · rw [scheduleReply, scheduleReply, fromObject_eq_iff_found (by decide)
      (findsOnly_schedule schedule) (findsOnly_schedule schedule')
      (readFound_schedule C schedule) (readFound_schedule C schedule')]
    simp only [List.cons.injEq, Wire.string.injEq, and_true]
  · rw [executionReply, executionReply, fromObject_eq_iff_found (by decide)
      (findsOnly_execution T execution) (findsOnly_execution T execution')
      (readFound_execution T C execution) (readFound_execution T C execution')]
    simp only [List.cons.injEq, Wire.string.injEq, Wire.enum.injEq, and_true]
    constructor
    · rintro ⟨hid, hstatus⟩
      exact ⟨hid, readEnum_status hstatus⟩
    · rintro ⟨hid, hstatus⟩
      exact ⟨hid, by rw [hstatus]⟩

end SchedulingService.Grpc
