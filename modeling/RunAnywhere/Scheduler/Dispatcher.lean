import RunAnywhere.Scheduler.Dlq

/-!
# The dispatcher

`scheduler/src/dispatcher.rs`. `acceptDelivery` settles one delivery against the
canonical snapshot: it is buffered, bound to the lease that owns its job, retired or
dead-lettered. `dispatchOne` takes one entry out of the buffer, settles it again and
claims its job for a worker. Messages are named by their stream sequence.
-/

namespace RunAnywhere

open Logic

inductive DispatcherError
  | repository (error : RepositoryError)
  | dlq (error : DlqError)
  | acknowledge (text : String)
  | fairness (text : String)
  | redrive (text : String)
  | invalidExhaustionMarker (eventKey : String)
  deriving DecidableEq

/-- The `Nats-Msg-Id` of a redrive: the source sequence makes retries and the advisory
path converge on one deduplication key. -/
def redriveId (sourceStreamSequence : Nat) : String :=
  "redrive:JOB_QUEUE:job-dispatch-v1:" ++ toString sourceStreamSequence

/-- The message a redrive publishes. -/
def redriveMessage (queued : JobQueued) (traceContext : List (String × String))
    (sourceStreamSequence : Nat) : QueueMessage :=
  ⟨some (redriveId sourceStreamSequence), traceContext, .jobQueued queued⟩

namespace Dispatcher

/-- `progress`. -/
def progress (n : Nat) : TaskOr DispatcherError Unit :=
  .try_ (act (.stream (.progress n))) .acknowledge

/-- `confirm_ack`. -/
def confirmAck (n : Nat) : TaskOr DispatcherError Unit :=
  .try_ (act (.stream (.doubleAck n))) .acknowledge

/-- A double acknowledgement whose failure is ignored. -/
def ackDuplicate (n : Nat) : Task Unit := do
  let _ ← act (.stream (.doubleAck n))
  pure ()

/-- `ack_with(Term)`, then `delete_source`. -/
def terminate (n : Nat) : TaskOr DispatcherError Unit := do
  .try_ (act (.stream (.term n))) .acknowledge
  .try_ (Dlq.deleteSource n) .dlq

/-- `get_job_scheduling_snapshot`. -/
def snapshot (j : JobId) : TaskOr DispatcherError (Option JobSchedulingSnapshot) :=
  .try_ (Repository.getJobSchedulingSnapshot j) .repository

/-- `redrive_canonical`: confirm a replacement canonical delivery before retiring a
known-job poison message. -/
def redriveCanonical (queued : JobQueued) (traceContext : List (String × String))
    (sourceStreamSequence : Nat) : TaskOr DispatcherError Unit :=
  .try_ (act (.stream (.publish (redriveMessage queued traceContext sourceStreamSequence))))
    .redrive

/-- `dead_letter_delivery`. -/
def deadLetterDelivery (cfg : Config) (n attempt : Nat) (j : Option JobId)
    (project : Option ProjectId) (reason : JobDeadLetterReason)
    (traceContext : List (String × String)) : TaskOr DispatcherError Unit := do
  let deadLetter ← expect
    (JobDeadLetter.new j project (some n) (max attempt 1) reason (← now))
  let _ ← .try_ (Dlq.ensurePublished cfg.dispatcherId deadLetter traceContext) .dlq
  terminate n

/-- `finish_terminal_delivery`: a terminal `infra_failed` record that carries an
exhaustion marker must not retire the source message until the marker has been
publish-confirmed. -/
def finishTerminalDelivery (cfg : Config) (snap : JobSchedulingSnapshot) (n : Nat)
    (traceContext : List (String × String)) : TaskOr DispatcherError Unit := do
  if snap.job.state = .infraFailed then
    let attempt := max snap.deliveryAttempts 1
    let eventKey := exhaustionEventKey snap.job.id attempt
    match ← Routine.try_ (Repository.getOutboxMessage eventKey) .repository with
    | some outbox =>
        if isMatchingExhaustionMarker outbox snap.job.id attempt then do
          let deadLetter ← expect (JobDeadLetter.new (some snap.job.id) (some snap.job.projectId)
            (some n) attempt .attemptsExhausted (← now))
          let _ ← .try_ (Dlq.ensurePublished cfg.dispatcherId deadLetter traceContext) .dlq
          terminate n
        else .fail (.invalidExhaustionMarker eventKey)
    | none => confirmAck n
  else confirmAck n

/-- `finalize_queued_cancellation`. -/
def finalizeQueuedCancellation (snap : JobSchedulingSnapshot) : TaskOr DispatcherError Unit := do
  if snap.job.state = .collectingArtifacts then
    let _ ← .try_ (Repository.transitionJobState snap.job.id .collectingArtifacts .cleaningUp
      ⟨some .cancelled, true, false⟩ none [("finalizer", .text "empty_queue_job")]) .repository
  let refreshed ← snapshot snap.job.id
  if refreshed.any (fun job => decide (job.job.state = .cleaningUp)) then
    let _ ← .try_ (Repository.transitionJobState snap.job.id .cleaningUp .cancelled
      ⟨some .cancelled, true, true⟩ none [("cleanup", .text "not_started")]) .repository

/-- `bind_or_ack_duplicate`: an older sequence never displaces a newer one bound to
the same lease. -/
def bindOrAckDuplicate (j : JobId) (w : WorkerId) (l : LeaseId) (n : Nat) :
    TaskOr DispatcherError Unit := do
  let bindHere : TaskOr DispatcherError Unit := do
    AckRegistry.bind j ⟨w, l, n⟩
    progress n
  match ← (AckRegistry.binding j w l).attempt with
  | .ok existing =>
      if n < existing.streamSequence then ackDuplicate n
      else if existing.streamSequence < n then do
        ackDuplicate existing.streamSequence
        bindHere
      else bindHere
  | .error _ => bindHere

/-- Push an entry, as `accept_delivery` and `requeue` do. -/
def requeue (entry : FairEntry PendingDelivery) : TaskOr DispatcherError Unit :=
  .try_ (act (.memory (.fairPush entry))) fun _ => .fairness "buffer is full"

/-- The `Buffer` arm of `accept_delivery`: an older, possibly exhausted source sequence
never displaces a newer canonical delivery. -/
def bufferDelivery (queued : JobQueued) (snap : JobSchedulingSnapshot) (lane : PriorityLane)
    (n : Nat) (traceContext : List (String × String)) : TaskOr DispatcherError Unit := do
  -- the new handle takes over the entry, and its progress is reported
  let replace (existing : FairEntry PendingDelivery) : TaskOr DispatcherError Unit := do
    let payload := { existing.payload with streamSequence := n, traceContext := traceContext }
    let _ ← act (.memory (.fairSet queued.jobId payload))
    progress n
    let at_ ← now
    let _ ← act (.memory (.fairSet queued.jobId { payload with lastProgressAt := at_ }))
  match ← act (.memory (.fairGet queued.jobId)) with
  | some existing =>
      if existing.payload.streamSequence = n then replace existing
      else if existing.payload.streamSequence < n then do
        ackDuplicate existing.payload.streamSequence
        replace existing
      else ackDuplicate n
  | none => do
      let enqueuedAt ← now
      let progressAt ← now
      requeue ⟨queued.jobId, queued.projectId, lane, snap.job.createdAt, enqueuedAt,
        ⟨queued, traceContext, n, progressAt⟩⟩

/-- `accept_delivery`. -/
def acceptDelivery (cfg : Config) (n : Nat) (message : QueueMessage) :
    TaskOr DispatcherError Unit := do
  let traceContext := message.traceContext
  match decodeQueuePayload message.payload with
  | .error _ => deadLetterDelivery cfg n 1 none none .malformedMessage traceContext
  | .ok queued => do
      match ← snapshot queued.jobId with
      | none =>
          deadLetterDelivery cfg n 1 (some queued.jobId) (some queued.projectId)
            .canonicalJobInconsistent traceContext
      | some snap => do
          match classifyCanonicalDelivery queued snap (← now) with
          | .ackTerminal => finishTerminalDelivery cfg snap n traceContext
          | .finalizeCancellation => do
              finalizeQueuedCancellation snap
              confirmAck n
          | .rebind lease => bindOrAckDuplicate queued.jobId lease.workerId lease.leaseId n
          | .holdForReconciliation =>
              match snap.lease with
              | some lease => bindOrAckDuplicate queued.jobId lease.workerId lease.leaseId n
              | none => progress n
          | .deadLetter reason => do
              if reason = .canonicalJobInconsistent then
                redriveCanonical snap.queued traceContext n
              deadLetterDelivery cfg n (max snap.deliveryAttempts 1) (some snap.job.id)
                (some snap.job.projectId) reason traceContext
          | .buffer lane => bufferDelivery queued snap lane n traceContext

/-- One delivery in the loop of `run`: a failure leaves it pending, and is logged. -/
def deliver (cfg : Config) (n : Nat) (message : QueueMessage) :
    Task (Except DispatcherError Unit) := do
  match ← (show Task (Except DispatcherError Unit) from acceptDelivery cfg n message) with
  | .ok () => pure (.ok ())
  | .error error => do
      let _ ← act (.stream (.progress n))
      pure (.error error)

/-! ## Dispatch -/

/-- `PendingDelivery::progress_if_due`, on an entry taken out of the buffer. -/
def progressIfDue (cfg : Config) (entry : FairEntry PendingDelivery) :
    TaskOr DispatcherError (FairEntry PendingDelivery) := do
  if (cfg.timing.workerHeartbeat : Int) ≤ (← now) - entry.payload.lastProgressAt then do
    progress entry.payload.streamSequence
    let at_ ← now
    pure { entry with payload := { entry.payload with lastProgressAt := at_ } }
  else pure entry

/-- Renew the delivery and put it back. -/
def hold (cfg : Config) (entry : FairEntry PendingDelivery) : TaskOr DispatcherError Unit := do
  let entry ← progressIfDue cfg entry
  requeue entry

/-- `dead_letter_entry`. -/
def deadLetterEntry (cfg : Config) (entry : FairEntry PendingDelivery)
    (reason : JobDeadLetterReason) (attempt : Nat) : TaskOr DispatcherError Unit :=
  deadLetterDelivery cfg entry.payload.streamSequence attempt (some entry.payload.queued.jobId)
    (some entry.payload.queued.projectId) reason entry.payload.traceContext

/-- The errors of a claim after which the next worker is tried. -/
def triesNextWorker : RepositoryError → Bool
  | .compareAndSwapLost _ _ | .conflict _ => true
  | .notFound entity _ => decide (entity = "worker")
  | _ => false

/-- The loop over the matching workers. A claim that succeeded ends it whether or not
the worker accepts: the durable lease stays the sole owner. -/
def claimFirst (cfg : Config) (entry : FairEntry PendingDelivery) :
    List WorkerStatus → TaskOr DispatcherError Unit
  | [] => hold cfg entry
  | worker :: rest => do
      let d ← draw
      let leaseExpiresAt := (← now) + (cfg.timing.databaseLeaseTtl : Int)
      match ← Repository.claimJobWithOptions entry.jobId worker.workerId d.leaseId leaseExpiresAt
          ⟨cfg.timing.staleWorkerThreshold⟩ with
      | .ok claim => do
          AckRegistry.bind claim.jobId
            ⟨claim.workerId, claim.leaseId, entry.payload.streamSequence⟩
          progress entry.payload.streamSequence
          let _ ← act (.outside (.requestWorker claim.workerId
            ⟨claim, entry.payload.traceContext⟩))
      | .error (.quotaExceeded _ .concurrentJobs _ _) => hold cfg entry
      | .error error =>
          if triesNextWorker error then claimFirst cfg entry rest else .fail (.repository error)

/-- `dispatch_one`. -/
def dispatchOne (cfg : Config) : TaskOr DispatcherError Unit := do
  match ← act (.memory (.fairPop (← now))) with
  | none => pure ()
  | some entry => do
      let n := entry.payload.streamSequence
      match ← snapshot entry.jobId with
      | none => deadLetterEntry cfg entry .canonicalJobInconsistent 1
      | some snap => do
          match classifyCanonicalDelivery entry.payload.queued snap (← now) with
          | .ackTerminal => finishTerminalDelivery cfg snap n entry.payload.traceContext
          | .finalizeCancellation => do
              finalizeQueuedCancellation snap
              confirmAck n
          | .rebind lease => bindOrAckDuplicate entry.jobId lease.workerId lease.leaseId n
          | .holdForReconciliation => hold cfg entry
          | .deadLetter reason => do
              if reason = .canonicalJobInconsistent then
                redriveCanonical snap.queued entry.payload.traceContext n
              deadLetterEntry cfg entry reason (max snap.deliveryAttempts 1)
          | .buffer _ => do
              let cutoff := (← now) - (cfg.timing.staleWorkerThreshold : Int)
              let workers ← .try_ (Repository.findWorkersMatching snap.runtimeProfile
                entry.payload.queued.minIsolation cutoff 200) .repository
              if workers.isEmpty then hold cfg entry else claimFirst cfg entry workers

end Dispatcher

end RunAnywhere
