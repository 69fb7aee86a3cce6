import SchedulingService.Lib.Transition
import SchedulingService.Lib.Total
import SchedulingService.Lib.Lease
import SchedulingService.Lib.WorkClaim
import SchedulingService.Lib.Keyed
import SchedulingService.Lib.Retry
import SchedulingService.Lib.Batches
import SchedulingService.Lib.Noninterference
import SchedulingService.Lib.Spacing
import SchedulingService.Lib.Numerals
import SchedulingService.Lib.Calendar
import SchedulingService.Lib.Encoding
import SchedulingService.Lib.Paging
import SchedulingService.Lib.PercentEncoding
import SchedulingService.Lib.Relational
import SchedulingService.Js.Value
import SchedulingService.Js.Protobuf
import SchedulingService.Js.ProtobufEncode
import SchedulingService.Js.ProtobufSchema
import SchedulingService.Js.Numerals
import SchedulingService.Js.Json
import SchedulingService.Js.Arithmetic
import SchedulingService.Messages.Entity
import SchedulingService.Messages.Repository
import SchedulingService.Messages.Service
import SchedulingService.Messages.System
import SchedulingService.Messages.Steps
import SchedulingService.Messages.Handover
import SchedulingService.Messages.Work
import SchedulingService.Messages.Claiming
import SchedulingService.Messages.Delivery
import SchedulingService.Messages.Writes
import SchedulingService.Messages.Authorship
import SchedulingService.Messages.Calls
import SchedulingService.Messages.Lifecycle
import SchedulingService.Messages.LockLease
import SchedulingService.Messages.InFlight
import SchedulingService.Messages.Timing
import SchedulingService.Messages.Edits
import SchedulingService.Messages.Tick
import SchedulingService.Messages.Draining
import SchedulingService.Messages.Progress
import SchedulingService.Messages.Isolation
import SchedulingService.Messages.Sending
import SchedulingService.Messages.Batch
import SchedulingService.Messages.SendOrder
import SchedulingService.Messages.Budget
import SchedulingService.Common.Validation
import SchedulingService.Common.Decorators
import SchedulingService.Common.PayloadSize
import SchedulingService.Common.Iso8601
import SchedulingService.Common.Cron
import SchedulingService.Common.Retry
import SchedulingService.Common.Backoff
import SchedulingService.Messages.Validity
import SchedulingService.Messages.SendTimes
import SchedulingService.Scheduler.Dto
import SchedulingService.Scheduler.Entity
import SchedulingService.Scheduler.Targets
import SchedulingService.Queues.Queue
import SchedulingService.Scheduler.Service
import SchedulingService.Scheduler.Jobs
import SchedulingService.Scheduler.Scheduling
import SchedulingService.Scheduler.Execution
import SchedulingService.Scheduler.Retries
import SchedulingService.Scheduler.System
import SchedulingService.Scheduler.Sanity
import SchedulingService.Scheduler.Integrity
import SchedulingService.Scheduler.Attempts
import SchedulingService.Scheduler.Conservation
import SchedulingService.Scheduler.Cancelling
import SchedulingService.Scheduler.Windows
import SchedulingService.Scheduler.Paging
import SchedulingService.Scheduler.Executions
import SchedulingService.Scheduler.Records
import SchedulingService.Scheduler.LivePaging
import SchedulingService.Grpc.Scheduler
import SchedulingService.Grpc.Requests
import SchedulingService.Grpc.Messaging
import SchedulingService.Grpc.Creation
import SchedulingService.Grpc.Responses
import SchedulingService.Jwks.Keys
import SchedulingService.Jwks.System
import SchedulingService.Jwks.Tracking
import SchedulingService.Jwks.Reloads
import SchedulingService.Jwks.Newest
import SchedulingService.Jwks.Recovery
import SchedulingService.Jwks.Rotation
import SchedulingService.Jwks.Loading
import SchedulingService.Jwks.Shutdown
import SchedulingService.Auth.Guard
import SchedulingService.Auth.Soundness
import SchedulingService.Auth.Refusals
import SchedulingService.Auth.Rotation
import SchedulingService.Http.Controllers
import SchedulingService.Http.System
import SchedulingService.Http.EndToEnd
import SchedulingService.Webhook.Signature
import SchedulingService.App.Database
import SchedulingService.App.Tables
import SchedulingService.App.Migrations
import SchedulingService.App.Rollback
import SchedulingService.Monitoring.Health
import SchedulingService.Monitoring.Metrics
import SchedulingService.Operations.System
import SchedulingService.Operations.Shelved
import SchedulingService.Operations.Keeping
import SchedulingService.Operations.Cancelling
import SchedulingService.Operations.Windows
import SchedulingService.Operations.Attempts
