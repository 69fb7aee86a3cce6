import SchedulingService.Js.Value
import SchedulingService.Common.Validation

/-!
# Scheduler requests

The enums of the `scheduler` module and the two request objects its service
takes, with the one check that does not run in the HTTP pipe:
`ScheduleJobDto.validate`.

The declared type of a field says little about what a caller puts there, so a
field holds a run-time value.
-/

namespace SchedulingService.Scheduler

open Js Common

inductive Priority
  | low
  | medium
  | high
  | critical
  deriving DecidableEq

inductive ScheduleType
  | cron
  | interval
  | once
  | immediate
  deriving DecidableEq

/-- The parts of the language's library that requests are read with, and the
clock's reading. -/
structure Runtime where
  /-- `JSON.parse`; `none` where it throws a SyntaxError. -/
  parseJson : Value → Option Value
  /-- `new Date(v)`. -/
  newDate : Value → Date
  /-- `Date.prototype.toISOString` of a valid date. -/
  toISOString : Int → String
  /-- `new Date()`. -/
  now : Int

structure CreateJobDto where
  name : Value
  description : Value
  categoryId : Value
  targetService : Value
  targetMethod : Value
  payload : Value
  priority : Slot Priority
  maxRetries : Value
  timeoutSeconds : Value
  createdBy : Value

structure ScheduleJobDto where
  jobId : Value
  scheduleType : ScheduleType
  cronExpression : Value
  intervalSeconds : Value
  scheduledAt : Value
  timezone : Value
  startsAt : Value
  endsAt : Value

/-- `validate()`: the messages of the checks that fail, in order. -/
def ScheduleJobDto.validate (rt : Runtime) (dto : ScheduleJobDto) : List String :=
  (if dto.cronExpression.truthy && !isValidCronExpression dto.cronExpression then
    ["Invalid cron expression"] else []) ++
  (if dto.timezone.truthy && !isValidTimezone dto.timezone then
    ["Invalid timezone"] else []) ++
  -- `start >= end` is false when either date is invalid
  (if dto.startsAt.truthy && dto.endsAt.truthy &&
      (rt.newDate dto.endsAt).le (rt.newDate dto.startsAt) then
    ["Start date must be before end date"] else []) ++
  (if dto.scheduleType = .once && dto.scheduledAt.truthy &&
      (rt.newDate dto.scheduledAt).le (.ms rt.now) then
    ["Scheduled date must be in the future"] else [])

end SchedulingService.Scheduler
