import RunAnywhere.Scheduler.Delivery

/-!
# The control plane

`scheduler/src/control.rs`: the worker's registrations, heartbeats, transitions and
results. Every mutation is fenced by the worker named in the subject and by the exact
lease; a compare-and-swap that lost is classified from a later snapshot, and a job
that ended has its queue message acknowledged.
-/

namespace RunAnywhere

open Logic

inductive ResponseClass
  | staleLease | quotaExceeded | retry
  deriving DecidableEq

/-- `classify_repository_error`. -/
def classifyRepositoryError : RepositoryError → ResponseClass
  | .quotaExceeded _ _ _ _ => .quotaExceeded
  | .notFound _ _ | .compareAndSwapLost _ _ | .conflict _ | .invalidTransition _ => .staleLease
  | .validation _ | .decode _ _ | .sqlx _ => .retry

/-- `classify_ack_error`. -/
def classifyAckError : AckRegistryError → ResponseClass
  | .staleLease _ => .staleLease
  | .missing _ | .jetStream _ => .retry

/-- `is_cas_or_conflict`. -/
def isCasOrConflict : RepositoryError → Bool
  | .compareAndSwapLost _ _ | .conflict _ => true
  | _ => false

/-- `response_for_class`; the interval is in microseconds, and its seconds are a `u64`. -/
def responseForClass (c : ResponseClass) (retryAfter : Nat) : ControlResponse :=
  let retryAfterSeconds : DurationSeconds :=
    ⟨max (retryAfter / 1000000 % 2 ^ 64) 1, by omega, by omega⟩
  match c with
  | .staleLease => .staleLease
  | .quotaExceeded => .quotaExceeded retryAfterSeconds
  | .retry => .retry retryAfterSeconds

/-- `terminal_state`. -/
def terminalState : JobOutcome → JobState
  | .passed => .passed
  | .failed => .failed
  | .cancelled => .cancelled
  | .timedOut => .timedOut
  | .infraFailed => .infraFailed

/-- `next_result_state`. -/
def nextResultState (state : JobState) (result : JobResult) : Option JobState :=
  match state with
  | .queued | .claimed | .provisioningRuntime | .booting | .installingApk | .runningTests
  | .debugAvailable => some .collectingArtifacts
  | .collectingArtifacts => if result.artifactsFinalized then some .cleaningUp else none
  | .cleaningUp => if result.cleanupCompleted then some (terminalState result.outcome) else none
  | .passed | .failed | .cancelled | .timedOut | .infraFailed => none

namespace ControlPlane

/-- `response`. -/
def response (cfg : Config) (c : ResponseClass) : ControlResponse :=
  responseForClass c cfg.timing.reconciliationInterval

/-- The answer to a repository error. -/
def repositoryFailure (cfg : Config) (error : RepositoryError) : ControlResponse :=
  response cfg (classifyRepositoryError error)

/-- `register_worker`. -/
def registerWorker (cfg : Config) (subjectWorker : WorkerId)
    (payload : Option WorkerRegistration) : Task ControlResponse := do
  match payload with
  | none => pure (response cfg .retry)
  | some registration =>
      if subjectWorker ≠ registration.workerId then pure .staleLease
      else do
        match ← act (.call (.upsertWorker registration)) with
        | .ok _ => pure .accepted
        | .error error => pure (repositoryFailure cfg error)

/-- The loop over the extended leases of a heartbeat: the first failure answers. -/
def progressAll (w : WorkerId) : List JobLeaseExtension → TaskOr AckRegistryError Unit
  | [] => pure ()
  | extension :: rest => do
      AckRegistry.progress extension.jobId w extension.leaseId
      progressAll w rest

/-- `record_heartbeat`. -/
def recordHeartbeat (cfg : Config) (subjectWorker : WorkerId)
    (payload : Option WorkerHeartbeat) : Task ControlResponse := do
  match payload with
  | none => pure (response cfg .retry)
  | some heartbeat =>
      if subjectWorker ≠ heartbeat.workerId then pure .staleLease
      else do
        match ← act (.call (.recordHeartbeat heartbeat cfg.timing.databaseLeaseTtl)) with
        | .error error => pure (repositoryFailure cfg error)
        | .ok receipt => do
            match ← (show Task (Except AckRegistryError Unit) from
                progressAll subjectWorker receipt.extended) with
            | .error error => pure (response cfg (classifyAckError error))
            | .ok () =>
                pure (.heartbeat receipt.extended receipt.cancelRequested receipt.rejected)

/-- `confirm_ack`: a missing binding counts as acknowledged. -/
def confirmAck (cfg : Config) (rounds : Nat) (j : JobId) (lease : LeaseGuard) :
    Task ControlResponse := do
  match ← (show Task (Except AckRegistryError Unit) from
      AckRegistry.confirmAck rounds j lease.workerId lease.leaseId) with
  | .ok () | .error (.missing _) => pure .accepted
  | .error error => pure (response cfg (classifyAckError error))

/-- `classify_replayed_transition`. -/
def classifyReplayedTransition (cfg : Config) (rounds : Nat) (request : JobStateTransitionRequest)
    (lease : LeaseGuard) : Task ControlResponse := do
  match ← act (.query (.schedulingSnapshot request.jobId (some request.target))) with
  | .ok none => pure .staleLease
  | .error error => pure (repositoryFailure cfg error)
  | .ok (some snap) =>
      if snap.job.state ≠ request.target then pure .staleLease
      else if request.target.isTerminal then confirmAck cfg rounds request.jobId lease
      else if snap.lease = some lease then pure .accepted
      else pure .staleLease

/-- `transition_job`. -/
def transitionJob (cfg : Config) (rounds : Nat) (subjectWorker : WorkerId)
    (payload : Option JobStateTransitionRequest) : Task ControlResponse := do
  match payload with
  | none => pure (response cfg .retry)
  | some request =>
      if subjectWorker ≠ request.workerId then pure .staleLease
      else
        match request.validate with
        | .error _ => pure (response cfg .retry)
        | .ok () => do
            let lease : LeaseGuard := ⟨request.workerId, request.leaseId⟩
            match ← Repository.transitionJobState request.jobId request.source request.target
                request.evidence (some lease) [] with
            | .ok _ =>
                if request.target.isTerminal then confirmAck cfg rounds request.jobId lease
                else pure .accepted
            | .error error =>
                if isCasOrConflict error then classifyReplayedTransition cfg rounds request lease
                else pure (repositoryFailure cfg error)

/-- A terminal job that carries the result's outcome and its worker. -/
def endedBy (snap : JobSchedulingSnapshot) (result : JobResult) : Bool :=
  decide (snap.job.outcome = some result.outcome) && decide (snap.job.workerId = some result.workerId)

/-- `drive_result_finalizer`: at most `fuel` more edges. -/
def driveResultFinalizer (cfg : Config) (rounds : Nat) (result : JobResult) (lease : LeaseGuard) :
    Nat → JobState → Task ControlResponse
  | 0, _ => pure (response cfg .retry)
  | fuel + 1, state =>
      if state.isTerminal then confirmAck cfg rounds result.jobId lease
      else
        match nextResultState state result with
        | none => pure .accepted
        | some target => do
            match ← Repository.transitionJobState result.jobId state target
                ⟨some result.outcome, result.artifactsFinalized, result.cleanupCompleted⟩
                (some lease) [] with
            | .ok job => driveResultFinalizer cfg rounds result lease fuel job.state
            | .error error =>
                if isCasOrConflict error then do
                  match ← Repository.getJobSchedulingSnapshot result.jobId with
                  | .ok none => pure .staleLease
                  | .error error => pure (repositoryFailure cfg error)
                  | .ok (some snap) =>
                      if snap.job.state.isTerminal then
                        if endedBy snap result then confirmAck cfg rounds result.jobId lease
                        else pure .staleLease
                      else if snap.lease ≠ some lease ∨
                          snap.pendingOutcome ≠ some result.outcome then pure .staleLease
                      else driveResultFinalizer cfg rounds result lease fuel snap.job.state
                else pure (repositoryFailure cfg error)

/-- The iterations of `drive_result_finalizer`. -/
def finalizerIterations : Nat := 6

/-- `classify_replayed_result`. -/
def classifyReplayedResult (cfg : Config) (rounds : Nat) (result : JobResult)
    (lease : LeaseGuard) : Task ControlResponse := do
  match ← Repository.getJobSchedulingSnapshot result.jobId with
  | .ok none => pure .staleLease
  | .error error => pure (repositoryFailure cfg error)
  | .ok (some snap) =>
      if snap.job.state.isTerminal && endedBy snap result then
        confirmAck cfg rounds result.jobId lease
      else if snap.lease = some lease ∧ snap.pendingOutcome = some result.outcome then
        driveResultFinalizer cfg rounds result lease finalizerIterations snap.job.state
      else pure .staleLease

/-- `record_result`. -/
def recordResult (cfg : Config) (rounds : Nat) (subjectWorker : WorkerId)
    (payload : Option JobResult) : Task ControlResponse := do
  match payload with
  | none => pure (response cfg .retry)
  | some result =>
      if subjectWorker ≠ result.workerId then pure .staleLease
      else do
        let lease : LeaseGuard := ⟨result.workerId, result.leaseId⟩
        match ← Repository.recordJobResult result with
        | .ok job => driveResultFinalizer cfg rounds result lease finalizerIterations job.state
        | .error error =>
            if isCasOrConflict error then classifyReplayedResult cfg rounds result lease
            else pure (repositoryFailure cfg error)

end ControlPlane

end RunAnywhere
