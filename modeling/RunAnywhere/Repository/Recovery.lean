import RunAnywhere.Repository.Workers

/-!
# Stale-lease recovery

`find_stale_jobs` and `recover_stale_job` (`repository/src/jobs.rs`). Recovery
acts on a snapshot that may be out of date: it compares the whole fence again and
answers `lostRace` when anything moved. It ends a lease in one of three ways,
chosen by a pending cancellation and by the attempts used.
-/

namespace RunAnywhere

open Logic

structure StaleJobCriteria where
  leaseExpiredBefore : Time
  workerHeartbeatBefore : Time
  limit : Nat
  deriving DecidableEq

structure StaleJob where
  jobId : JobId
  workerId : WorkerId
  leaseId : LeaseId
  state : JobState
  deliveryAttempts : Nat
  leaseExpiresAt : Time
  workerLastHeartbeatAt : Time
  leaseExpiredBefore : Time
  workerHeartbeatBefore : Time
  deriving DecidableEq

inductive RecoveryDisposition
  | requeued (job : Job)
  | cancelling (job : Job)
  | finalizing (job : Job)
  | lostRace
  deriving DecidableEq

/-- One row of the stale-lease scan: a leased job joined with its worker. -/
def staleRow (criteria : StaleJobCriteria) (db : Db) (j : JobId) (r : JobRow) :
    Option StaleJob :=
  match r.workerId, r.leaseId, r.leaseExpiresAt with
  | some w, some l, some expiresAt =>
      match db.worker? w with
      | none => none
      | some worker =>
          if !(decide (r.state = .queued) || r.state.isTerminal) &&
              (decide (expiresAt ≤ criteria.leaseExpiredBefore) ||
                decide (worker.lastHeartbeatAt ≤ criteria.workerHeartbeatBefore)) then
            some ⟨j, w, l, r.state, r.deliveryAttempts, expiresAt, worker.lastHeartbeatAt,
              criteria.leaseExpiredBefore, criteria.workerHeartbeatBefore⟩
          else none
  | _, _, _ => none

/-- `find_stale_jobs`: `ORDER BY LEAST(lease_expires_at, last_heartbeat_at), id LIMIT n`. -/
def findStaleJobs (criteria : StaleJobCriteria) : RepoTx (List StaleJob) := do
  checkedLimit criteria.limit
  let stale ← .read fun db => db.jobs.rows.filterMap fun x => staleRow criteria db x.1 x.2.val
  let ordered := stale.insertionSort fun a b =>
    min a.leaseExpiresAt a.workerLastHeartbeatAt < min b.leaseExpiresAt b.workerLastHeartbeatAt ∨
      (min a.leaseExpiresAt a.workerLastHeartbeatAt =
        min b.leaseExpiresAt b.workerLastHeartbeatAt ∧ a.jobId.val ≤ b.jobId.val)
  let page := ordered.take criteria.limit
  .require (page.all fun s => decide (s.deliveryAttempts < 4294967296))
    (.decode "jobs.delivery_attempts" "out of range integral type conversion attempted")
  pure page

/-- The row of an exhausted or cancelled recovery: off its worker and on the
finalizer path, keeping the evidence of a cleanup that had begun. -/
def JobRow.toFinalizer (outcome : JobOutcome) (failure : Option FailureDetail) (r : JobRow) :
    JobRow :=
  let cleaning := decide (r.state = .cleaningUp)
  { r with
    state := if cleaning then .cleaningUp else .collectingArtifacts
    workerId := none
    leaseId := none
    leaseExpiresAt := none
    lastLeaseExtendedAt := none
    pendingOutcome := some outcome
    outcome := none
    failure := failure
    artifactsFinalized := if cleaning then r.artifactsFinalized else false
    cleanupCompleted := if cleaning then r.cleanupCompleted else false }

/-- The row of a recovery with attempts left: back in the queue. -/
def JobRow.requeued (r : JobRow) : JobRow :=
  { r with
    state := .queued
    workerId := none
    leaseId := none
    leaseExpiresAt := none
    lastLeaseExtendedAt := none
    pendingOutcome := none
    outcome := none
    failure := none
    artifactsFinalized := false
    cleanupCompleted := false }

/-- The failure an exhausted job carries. -/
def abandonedFailure : FailureDetail :=
  ⟨.infraFailed, "job lease was abandoned after maximum delivery attempts"⟩

/-- The three ways a lease ends in recovery. -/
inductive RecoveryKind
  | requeue | cancelling | exhausted
  deriving DecidableEq

/-- Which way a stale lease ends. -/
def recoveryKind (stale : StaleJob) (maxDeliver : Nat) (current : JobRow) : RecoveryKind :=
  if current.pendingOutcome = some .cancelled then .cancelling
  else if stale.deliveryAttempts < maxDeliver then .requeue
  else .exhausted

/-- The SET list of a recovery. -/
def JobRow.recovered (kind : RecoveryKind) (r : JobRow) : JobRow :=
  match kind with
  | .requeue => r.requeued
  | .cancelling => r.toFinalizer .cancelled none
  | .exhausted => r.toFinalizer .infraFailed (some abandonedFailure)

/-- The WHERE clause of a recovery: the whole fence of the snapshot. -/
def recoverGuard (stale : StaleJob) (r : JobRow) : Bool :=
  r.heldBy stale.workerId stale.leaseId &&
    decide (r.leaseExpiresAt = some stale.leaseExpiresAt) && decide (r.state = stale.state) &&
    decide (r.deliveryAttempts = stale.deliveryAttempts)

/-- The state a recovery leaves the job in, as the event records it. -/
def recoveredState (kind : RecoveryKind) (stale : StaleJob) : JobState :=
  match kind with
  | .requeue => .queued
  | .cancelling | .exhausted =>
      if stale.state = .cleaningUp then .cleaningUp else .collectingArtifacts

/-- The event a recovery appends. -/
def RecoveryKind.eventType : RecoveryKind → String
  | .requeue => "job.recovered_requeued"
  | .cancelling => "job.recovery_cancelled"
  | .exhausted => "job.recovery_exhausted"

/-- The disposition a recovery answers. -/
def RecoveryKind.disposition (kind : RecoveryKind) (job : Job) : RecoveryDisposition :=
  match kind with
  | .requeue => .requeued job
  | .cancelling => .cancelling job
  | .exhausted => .finalizing job

/-- The dead letter of an exhausted job: the durable exhaustion marker. -/
def insertExhaustionMarker (stale : StaleJob) (current : JobRow) (t : DbTime) : RepoTx Unit := do
  let deadLetter ← .ofExcept ((JobDeadLetter.new (some stale.jobId) (some current.projectId) none
    stale.deliveryAttempts .attemptsExhausted t.clock).mapError fun e => .validation e.message)
  let _ ← insertJobDeadLetterOutbox deadLetter [] t
  pure ()

/-- `snapshot_matches`: the row still carries the whole fence of the snapshot. The
attempt counter is decoded only when the fence matched so far. -/
def snapshotMatches (stale : StaleJob) (current : JobRow) : RepoTx Bool :=
  if current.heldBy stale.workerId stale.leaseId && decide (current.state = stale.state) then do
    let attempts ← .ofExcept (toU32 "jobs.delivery_attempts" current.deliveryAttempts)
    pure (decide (attempts = stale.deliveryAttempts) &&
      decide (current.leaseExpiresAt = some stale.leaseExpiresAt))
  else pure false

/-- `recover_stale_job`, over the release it performs. -/
def recoverStaleJobWith (release : WorkerId → RepoTx Unit) (stale : StaleJob) (maxDeliver : Nat)
    (eventId : JobEventId) (t : DbTime) : RepoTx RecoveryDisposition := do
  .require (decide (maxDeliver ≠ 0)) (.validation "max_deliver must be positive")
  match ← lockJob stale.jobId with
  | none => pure .lostRace
  | some current => do
      let matched ← snapshotMatches stale current
      if !matched || decide (current.state = .queued) || current.state.isTerminal then
        pure .lostRace
      else match ← lockWorker stale.workerId with
        | none => pure .lostRace
        | some worker => do
            let leaseExpired := decide (stale.leaseExpiresAt ≤ stale.leaseExpiredBefore)
            let workerStale := decide (worker.lastHeartbeatAt ≤ stale.workerHeartbeatBefore)
            if !leaseExpired && !workerStale then pure .lostRace
            else do
              let kind := recoveryKind stale maxDeliver current
              match ← updateJob stale.jobId (recoverGuard stale) (·.recovered kind) with
              | none => pure .lostRace
              | some row => do
                  release stale.workerId
                  let newState := recoveredState kind stale
                  let _ ← appendEvent eventId stale.jobId kind.eventType (some newState)
                    (decide (newState ≠ stale.state))
                    [("delivery_attempts", .number stale.deliveryAttempts),
                      ("lease_expired", .bool leaseExpired), ("worker_stale", .bool workerStale)] t
                  if kind = .exhausted then insertExhaustionMarker stale current t
                  pure (kind.disposition (row.intoJob stale.jobId))

/-- `recover_stale_job`. -/
def recoverStaleJob (stale : StaleJob) (maxDeliver : Nat) (eventId : JobEventId) (t : DbTime) :
    RepoTx RecoveryDisposition :=
  recoverStaleJobWith (releaseWorkerCapacity t) stale maxDeliver eventId t

end RunAnywhere
