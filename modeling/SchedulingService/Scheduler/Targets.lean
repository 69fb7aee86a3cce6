import SchedulingService.Scheduler.Entity

/-!
# Calling a job's target

`executeWithTimeout` and what it races against the clock: `executeJobByService`
routes a job by its target service, and the messaging methods build their
request from the job's payload.

The messaging service answers a call as it likes; `Target` holds its answer and
whether the timer was first.
-/

namespace SchedulingService.Scheduler

open Js

/-- How a promise settles. -/
inductive Outcome
  | resolved (result : Value)
  | rejected (error : Value)

def Outcome.isRejected : Outcome → Bool
  | resolved _ => false
  | rejected _ => true

/-- `new Error(message)`. -/
def errorObject (message : String) : Value := .obj [("message", .str message)]

/-- A call of `MessagingGrpcClient` with its argument. -/
inductive MessagingCall
  | sendScheduledMessage (request : Value)
  | cleanupExpiredMessages (request : Value)

/-- What the target does during one execution. -/
structure Target where
  answer : MessagingCall → Outcome
  /-- The timer fires before the answer. -/
  timedOut : Bool

/-- The request of a `sendScheduledMessage` job. -/
def scheduledMessageRequest (rt : Runtime) (payload : Value) : Value :=
  .obj [
    ("conversationId", payload.get "conversationId"),
    ("senderId", payload.get "senderId"),
    ("messageType", if (payload.get "messageType").truthy then payload.get "messageType"
      else .str "TEXT"),
    ("content", payload.get "content"),
    ("metadata", payload.get "metadata"),
    ("scheduledFor", .date (if (payload.get "scheduledFor").truthy
      then rt.newDate (payload.get "scheduledFor") else .ms rt.now))]

/-- The request of a `cleanupExpiredMessages` job. -/
def cleanupRequest (rt : Runtime) (payload : Value) : Value :=
  .obj [
    ("olderThan", .date (rt.newDate (payload.get "olderThan"))),
    ("batchSize", payload.get "batchSize")]

def executeMessagingJob (rt : Runtime) (target : Target) (job : Job) : Outcome :=
  if job.targetMethod = "sendScheduledMessage" then
    -- a property of a null payload cannot be read
    if job.payload.isNullish then .rejected (errorObject "Cannot read properties of null")
    else target.answer (.sendScheduledMessage (scheduledMessageRequest rt job.payload))
  else if job.targetMethod = "cleanupExpiredMessages" then
    if job.payload.isNullish then .rejected (errorObject "Cannot read properties of null")
    else target.answer (.cleanupExpiredMessages (cleanupRequest rt job.payload))
  else .rejected (errorObject ("Unknown messaging method: " ++ job.targetMethod))

/-- The result of a target that is not called. -/
def notCalledResult (rt : Runtime) (service : String) (job : Job) (status : String) : Value :=
  .obj [
    ("service", .str service),
    ("method", .str job.targetMethod),
    ("payload", job.payload),
    ("executedAt", .str (rt.toISOString rt.now)),
    ("status", .str status)]

def executeNotificationJob (rt : Runtime) (job : Job) : Outcome :=
  .resolved (notCalledResult rt "notification" job "placeholder")

def executeJobByService (rt : Runtime) (target : Target) (job : Job) : Outcome :=
  if job.targetService = "messaging" then executeMessagingJob rt target job
  else if job.targetService = "notification" then executeNotificationJob rt job
  else .resolved (notCalledResult rt job.targetService job "simulated")

/-- The race between the target and the timer. -/
def executeWithTimeout (rt : Runtime) (target : Target) (job : Job) : Outcome :=
  if target.timedOut then .rejected (errorObject "Job execution timeout")
  else executeJobByService rt target job

end SchedulingService.Scheduler
