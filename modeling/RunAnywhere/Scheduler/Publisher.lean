import RunAnywhere.Scheduler.Cluster

/-!
# The queue publisher

`api/src/queue.rs`: the API leases `jobs.queued` rows and publishes each of them
concurrently under its job identifier. It runs in another process than the leader.
-/

namespace RunAnywhere

open Logic

/-- `OutboxDispatcherConfig`, as far as the leases go; microseconds. -/
structure OutboxDispatcherConfig where
  dispatcherId : String
  leaseTimeout : Int
  batchSize : Nat
  deriving DecidableEq

namespace OutboxDispatcher

/-- The leases of `dispatch_once`. -/
def leaseBatch (cfg : OutboxDispatcherConfig) : Task (Except RepositoryError (List OutboxMessage)) :=
  Repository.leaseOutboxMessagesForSubject cfg.dispatcherId jobsQueuedSubject cfg.leaseTimeout
    cfg.batchSize

/-- `publish_outbox_message`: the row must carry a `JobQueued` under its own key. -/
def publishOutboxMessage (outbox : OutboxMessage) : TaskOr String Unit := do
  if outbox.subject ≠ jobsQueuedSubject then
    .fail "queue subject must be a concrete non-empty NATS subject"
  else
    match outbox.payload with
    | .jobQueued queued =>
        if outbox.eventKey ≠ queued.jobId.val then
          .fail "queue message ID must not be blank or contain control characters"
        else act (.stream (.publish ⟨some queued.jobId.val, outbox.traceHeaders, .jobQueued queued⟩))
    | _ => .fail "failed to serialize JobQueued"

/-- `dispatch_message`; a timeout is a publication that was not confirmed. The instant
of the next attempt (`backoff_for`) is read like a clock. -/
def dispatchMessage (cfg : OutboxDispatcherConfig) (message : OutboxMessage) :
    TaskOr RepositoryError Unit := do
  match ← (publishOutboxMessage message).attempt with
  | .ok () =>
      let _ ← .try_ (Repository.markOutboxPublished message.id cfg.dispatcherId) id
  | .error text => do
      let availableAt ← now
      let _ ← .try_ (Repository.retryOutboxMessage message.id cfg.dispatcherId availableAt text) id

end OutboxDispatcher

end RunAnywhere
