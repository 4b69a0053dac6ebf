import RunAnywhere.Logic.TSys
import RunAnywhere.Logic.Table
import RunAnywhere.Logic.Tx
import RunAnywhere.Contracts.Worker
import RunAnywhere.Repository.Recovery
import RunAnywhere.Repository.Spec
import RunAnywhere.Repository.WorkerSpec
import RunAnywhere.Repository.Run
import RunAnywhere.Theorems.Lifecycle
import RunAnywhere.Theorems.Capacity
import RunAnywhere.Theorems.Fencing
import RunAnywhere.Theorems.Heartbeat
import RunAnywhere.Theorems.Outcomes
import RunAnywhere.Logic.Prog
import RunAnywhere.Logic.Rely
import RunAnywhere.Scheduler.Fairness
import RunAnywhere.Scheduler.Stream
import RunAnywhere.Scheduler.Cluster
import RunAnywhere.Scheduler.Delivery
import RunAnywhere.Scheduler.Dlq
import RunAnywhere.Scheduler.Advisory
import RunAnywhere.Scheduler.Control
import RunAnywhere.Scheduler.Publisher
import RunAnywhere.Scheduler.Reconciler
import RunAnywhere.Scheduler.Machine
import RunAnywhere.Scheduler.Keys
import RunAnywhere.Repository.OutboxRun
import RunAnywhere.Theorems.Attempts
import RunAnywhere.Theorems.Recovery
import RunAnywhere.Theorems.Cancellation
import RunAnywhere.Repository.Locks
import RunAnywhere.Theorems.Quotas
import RunAnywhere.Theorems.Creation
import RunAnywhere.Scheduler.Loops
import RunAnywhere.Theorems.Outbox
import RunAnywhere.Theorems.Expired
import RunAnywhere.Theorems.Passed
import RunAnywhere.Theorems.Parked
import RunAnywhere.Scheduler.Markers
import RunAnywhere.Scheduler.Settled
import RunAnywhere.Scheduler.Discipline
import RunAnywhere.Scheduler.Rules
import RunAnywhere.Scheduler.Snapshots
import RunAnywhere.Scheduler.Deliveries
import RunAnywhere.Scheduler.Advisories
import RunAnywhere.Scheduler.Passes
import RunAnywhere.Scheduler.Requests
import RunAnywhere.Logic.Path
import RunAnywhere.Scheduler.Finalizers
import RunAnywhere.Theorems.DebugSessions
import RunAnywhere.Theorems.Finalization
import RunAnywhere.Theorems.Marker
import RunAnywhere.Theorems.DeadLetters
import RunAnywhere.Theorems.Subjects
import RunAnywhere.Theorems.Buffer
import RunAnywhere.Theorems.Constraints
import RunAnywhere.Scheduler.Security
import RunAnywhere.Logic.LockTx
import RunAnywhere.Repository.LockTrace
import RunAnywhere.Theorems.Locking
import RunAnywhere.Repository.EventSpec
import RunAnywhere.Theorems.EventLog
import RunAnywhere.Theorems.Visibility
import RunAnywhere.Api.Events
import RunAnywhere.Theorems.EventStream
import RunAnywhere.Theorems.OwnWorld
import RunAnywhere.Logic.Trace
import RunAnywhere.Theorems.Reaper
import RunAnywhere.Repository.Failures
import RunAnywhere.Theorems.Matching
import RunAnywhere.Logic.RoundRobin
import RunAnywhere.Scheduler.Turns
import RunAnywhere.Theorems.Classification
import RunAnywhere.Theorems.Receipt
import RunAnywhere.Theorems.Turns
import RunAnywhere.Logic.Cycle
import RunAnywhere.Theorems.Lanes
import RunAnywhere.Logic.Ordered
import RunAnywhere.Scheduler.Finalizing
import RunAnywhere.Theorems.Starvation
import RunAnywhere.Scheduler.Races
import RunAnywhere.Theorems.Isolation
import RunAnywhere.Logic.Base64
import RunAnywhere.Logic.Json
import RunAnywhere.Logic.Keyset
import RunAnywhere.Logic.Listing
import RunAnywhere.Repository.Artifacts
import RunAnywhere.Repository.CursorText
import RunAnywhere.Repository.Pages
import RunAnywhere.Theorems.Pages
import RunAnywhere.Logic.Journal
import RunAnywhere.Api.Webhook
import RunAnywhere.Theorems.Artifacts
import RunAnywhere.Theorems.Screening
import RunAnywhere.Theorems.QueueWire
import RunAnywhere.Repository.Columns
import RunAnywhere.Theorems.Storable
import RunAnywhere.Logic.Chrono
import RunAnywhere.Logic.Script
import RunAnywhere.Scheduler.Config
import RunAnywhere.Theorems.Configuration
import RunAnywhere.Theorems.Poison
import RunAnywhere.Api.Handlers
import RunAnywhere.Theorems.Cursors
import RunAnywhere.Theorems.Deadlines
import RunAnywhere.Theorems.Leadership
import RunAnywhere.Theorems.Provisioning
import RunAnywhere.Theorems.Keys
import RunAnywhere.Scheduler.Docker
import RunAnywhere.Theorems.Docker
import RunAnywhere.Api.Uploads
import RunAnywhere.Theorems.Uploads
import RunAnywhere.Scheduler.Acknowledgements
import RunAnywhere.Theorems.Acknowledgements
import RunAnywhere.Api.Webhooks
import RunAnywhere.Theorems.Webhooks
import RunAnywhere.Logic.Board
import RunAnywhere.Theorems.Board
