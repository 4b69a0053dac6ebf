import Mathlib.Data.List.Dedup
import Mathlib.Data.Prod.Lex
import Mathlib.Data.String.Basic
import RunAnywhere.Logic.LockTx
import RunAnywhere.Repository.DebugSessions
import RunAnywhere.Repository.Run

/-!
# The locks of the repository's transactions

Every transaction of the repository again, with the explicit locks its statements ask
for: the advisory lock of a create, `SELECT … FOR UPDATE`, and the rows an UPDATE hits.

* **order** — `RowLock` is ordered by kind, job rows also by their identifier;
* **programs** — `Traced.*`: each function with its locks, under its own name;
* **erasure** — `*_erase`: without the locks it is the transaction of the other modules.

A transaction sees one database, with its own writes. A row it inserted is its own.
-/

namespace RunAnywhere

open Logic

/-- What a transaction locks. An advisory lock is a pair of hashes. -/
inductive RowLock
  | key (project idempotencyKey : Int)
  | job (j : JobId)
  | project (p : ProjectId)
  | worker (w : WorkerId)
  | session (id : DebugSessionId)
  | outbox (eventKey : String)
  deriving DecidableEq

namespace RowLock

/-- The place of the lock's kind in the order. -/
def rank : RowLock → Nat
  | .key _ _ => 0
  | .job _ => 1
  | .project _ => 2
  | .worker _ => 3
  | .session _ => 4
  | .outbox _ => 5

/-- Jobs are locked by identifier. -/
def name : RowLock → String
  | .job j => j.val
  | _ => ""

/-- Keys, jobs by identifier, projects, workers, debug sessions, outbox rows. -/
instance : Preorder RowLock := Preorder.lift fun l => toLex (l.rank, l.name)

@[simp] theorem lt_iff {a b : RowLock} :
    a < b ↔ a.rank < b.rank ∨ (a.rank = b.rank ∧ a.name < b.name) :=
  Prod.Lex.toLex_lt_toLex

end RowLock

open LockTx (erase_seq)
open Request (waitIf)

namespace Traced

abbrev RepoLockTx := LockTx RowLock RepositoryError Db
abbrev DebugLockTx := LockTx RowLock RepositoryError DebugDb

/-! ## Statements -/

/-- `lock_job`. -/
def lockJob (j : JobId) : RepoLockTx (Option JobRow) :=
  .stmt (fun db => waitIf (db.job? j).isSome (.job j)) (RunAnywhere.lockJob j)

/-- `lock_worker`. -/
def lockWorker (w : WorkerId) : RepoLockTx (Option WorkerRow) :=
  .stmt (fun db => waitIf (db.worker? w).isSome (.worker w)) (RunAnywhere.lockWorker w)

/-- `SELECT … FROM projects WHERE id = $1 FOR UPDATE`. -/
def lockProject (p : ProjectId) : RepoLockTx ProjectRow :=
  .stmt (fun db => waitIf (db.catalog.projects.get? p).isSome (.project p))
    (RunAnywhere.lockProject p)

/-- `UPDATE jobs`: the row it hits. -/
def updateJob (j : JobId) (guard : JobRow → Bool) (set : JobRow → JobRow) :
    RepoLockTx (Option JobRow) :=
  .stmt (fun db => waitIf ((db.job? j).any guard) (.job j)) (RunAnywhere.updateJob j guard set)

/-- `INSERT INTO jobs`: nobody else has the new row. -/
def insertJob (j : JobId) (row : JobRow) : RepoLockTx Unit :=
  .stmt (fun db => if (db.job? j).isNone then [.skip (.job j)] else []) (RunAnywhere.insertJob j row)

/-- `UPDATE workers`: the row it hits. -/
def updateWorker (w : WorkerId) (guard : WorkerRow → Bool) (set : WorkerRow → WorkerRow) :
    RepoLockTx (Option WorkerRow) :=
  .stmt (fun db => waitIf ((db.worker? w).any guard) (.worker w))
    (RunAnywhere.updateWorker w guard set)

/-- `UPDATE outbox_messages`: the row it hits. -/
def updateOutbox (key : String) (guard : OutboxRow → Bool) (set : OutboxRow → OutboxRow) :
    RepoLockTx (Option OutboxRow) :=
  .stmt (fun db => waitIf ((db.message? key).any guard) (.outbox key))
    (RunAnywhere.updateOutbox key guard set)

@[simp] theorem lockJob_erase (j : JobId) : (lockJob j).erase = RunAnywhere.lockJob j := rfl

@[simp] theorem lockWorker_erase (w : WorkerId) :
    (lockWorker w).erase = RunAnywhere.lockWorker w := rfl

@[simp] theorem lockProject_erase (p : ProjectId) :
    (lockProject p).erase = RunAnywhere.lockProject p := rfl

@[simp] theorem updateJob_erase (j : JobId) (guard : JobRow → Bool) (set : JobRow → JobRow) :
    (updateJob j guard set).erase = RunAnywhere.updateJob j guard set := rfl

@[simp] theorem insertJob_erase (j : JobId) (row : JobRow) :
    (insertJob j row).erase = RunAnywhere.insertJob j row := rfl

@[simp] theorem updateWorker_erase (w : WorkerId) (guard : WorkerRow → Bool)
    (set : WorkerRow → WorkerRow) :
    (updateWorker w guard set).erase = RunAnywhere.updateWorker w guard set := rfl

@[simp] theorem updateOutbox_erase (key : String) (guard : OutboxRow → Bool)
    (set : OutboxRow → OutboxRow) :
    (updateOutbox key guard set).erase = RunAnywhere.updateOutbox key guard set := rfl

/-! ## Events -/

/-- `append_event`. -/
def appendEvent (id : JobEventId) (j : JobId) (eventType : String) (state : Option JobState)
    (stateChanged : Bool) (payload : List (String × EventValue)) (t : DbTime) :
    RepoLockTx JobEvent := do
  .require (!isBlank eventType) (.validation "job event type must not be blank")
  let job ← lockJob j
  .require job.isSome (.notFound "job" j.val)
  .require (!(stateChanged && state.isNone))
    (.validation "a state-transition event must include its resulting state")
  let event ← insertEvent id j eventType state payload t
  if stateChanged then insertWebhookEventOutbox event t
  pure event

@[simp] theorem appendEvent_erase (id : JobEventId) (j : JobId) (eventType : String)
    (state : Option JobState) (stateChanged : Bool) (payload : List (String × EventValue))
    (t : DbTime) : (appendEvent id j eventType state stateChanged payload t).erase =
      RunAnywhere.appendEvent id j eventType state stateChanged payload t := by
  cases stateChanged <;> simp [appendEvent, RunAnywhere.appendEvent, RunAnywhere.lockJob]

/-- `append_job_event`. -/
def appendJobEvent (id : JobEventId) (j : JobId) (eventType : String) (state : Option JobState)
    (payload : List (String × EventValue)) (t : DbTime) : RepoLockTx JobEvent :=
  appendEvent id j eventType state false payload t

theorem appendJobEvent_erase (id : JobEventId) (j : JobId) (eventType : String)
    (state : Option JobState) (payload : List (String × EventValue)) (t : DbTime) :
    (appendJobEvent id j eventType state payload t).erase =
      RunAnywhere.appendJobEvent id j eventType state payload t :=
  appendEvent_erase id j eventType state false payload t

/-! ## Jobs -/

/-- The checks of a create. -/
def admitJob (request : CreateJobRequest) : RepoLockTx RuntimeProfile := do
  let project ← lockProject request.projectId
  let outstanding ← .read fun db => db.outstandingJobs request.projectId
  requireQuota request.projectId .outstandingJobs "project outstanding jobs"
    "projects.max_outstanding_jobs" outstanding project.maxOutstandingJobs
  .require (decide (request.testUploadId ≠ some request.apkUploadId))
    (.validation "APK and test uploads must be different")
  requireUploadKind request.projectId request.apkUploadId .apk
  match request.testUploadId with
  | some testUploadId => requireUploadKind request.projectId testUploadId .test
  | none => pure ()
  let profile ← .okOr (← loadProfile request.runtimeProfile)
    (.notFound "runtime profile" request.runtimeProfile.val)
  .require (profile.isolationTier.satisfies request.minIsolation)
    (.validation ("runtime profile " ++ profile.id.val ++ " does not satisfy "
      ++ request.minIsolation.debug ++ " isolation"))
  pure profile

@[simp] theorem admitJob_erase (request : CreateJobRequest) :
    (admitJob request).erase = RunAnywhere.admitJob request := by
  unfold admitJob RunAnywhere.admitJob
  cases request.testUploadId <;> simp

/-- `create_job_with_outbox`, over the hash of its advisory lock. -/
def createJobWithOutbox (hashtext : String → Int) (id : JobId) (eventId : JobEventId)
    (request : CreateJobRequest) (idempotencyKey : String) (traceHeaders : List (String × String))
    (t : DbTime) : RepoLockTx CreatedJob := do
  validateIdempotencyKey idempotencyKey
  .stmt (fun _ => waitIf true (.key (hashtext request.projectId.val) (hashtext idempotencyKey)))
    (pure ())
  match ← .read fun db => db.jobByKey? request.projectId idempotencyKey with
  | some (existing, row) => pure ⟨row.intoJob existing, false, none⟩
  | none => do
      let profile ← admitJob request
      let _ ← .ofExcept (checkedI64 "timeout_seconds" request.timeoutSeconds.seconds)
      let row := newJobRow request idempotencyKey t
      insertJob id row
      let event ← appendEvent eventId id "job.queued" (some .queued) true [] t
      let queued : JobQueued :=
        ⟨id, request.projectId, profile.id, request.minIsolation, request.timeoutSeconds⟩
      insertJobQueuedOutbox queued traceHeaders t
      pure ⟨row.intoJob id, true, some event⟩

theorem createJobWithOutbox_erase (hashtext : String → Int) (id : JobId) (eventId : JobEventId)
    (request : CreateJobRequest) (key : String) (headers : List (String × String)) (t : DbTime) :
    (createJobWithOutbox hashtext id eventId request key headers t).erase =
      RunAnywhere.createJobWithOutbox id eventId request key headers t := by
  unfold createJobWithOutbox RunAnywhere.createJobWithOutbox
  refine erase_seq rfl fun _ => ?_
  rw [LockTx.erase_bind, LockTx.erase_stmt, pure_bind]
  refine erase_seq rfl fun found => ?_
  cases found <;> simp

/-- `request_job_cancellation`. -/
def requestJobCancellation (j : JobId) (eventId : JobEventId) (t : DbTime) :
    RepoLockTx JobMutation := do
  let current ← .okOr (← lockJob j) (.notFound "job" j.val)
  .require (!current.state.isTerminal) (.conflict "cannot cancel a terminal job")
  match current.pendingOutcome with
  | some .cancelled => pure ⟨current.intoJob j, false, none⟩
  | some pending => .fail (.conflict ("job already has pending outcome " ++ pending.debug))
  | none => do
      let row ← updateJob j
        (fun r => decide (r.state = current.state) && r.pendingOutcome.isNone)
        (·.cancelRequested)
      let row ← .okOr row (.compareAndSwapLost "job cancellation" j.val)
      let event ← appendEvent eventId j "job.cancellation_requested" (some .collectingArtifacts)
        (decide (current.state ≠ .collectingArtifacts)) [("previous_state", .state current.state)] t
      pure ⟨row.intoJob j, true, some event⟩

theorem requestJobCancellation_erase (j : JobId) (eventId : JobEventId) (t : DbTime) :
    (requestJobCancellation j eventId t).erase = RunAnywhere.requestJobCancellation j eventId t := by
  refine erase_seq rfl fun _ => erase_seq rfl fun current => erase_seq rfl fun _ => ?_
  cases current.pendingOutcome with
  | none => simp
  | some pending => cases pending <;> rfl

/-- The checks of a claim: the job, its project, the worker. -/
def admitClaim (j : JobId) (w : WorkerId) (leaseExpiresAt : Time) (options : ClaimJobOptions)
    (t : DbTime) : RepoLockTx (JobRow × RuntimeProfile) := do
  .require (decide (0 < options.workerStaleAfter))
    (.validation "worker freshness duration must be positive")
  let job ← .okOr (← lockJob j) (.notFound "job" j.val)
  .require (decide (job.state = .queued) && job.leaseId.isNone && job.workerId.isNone)
    (.compareAndSwapLost "job" j.val)
  let project ← lockProject job.projectId
  let active ← .read fun db => db.activeProjectJobs job.projectId
  requireQuota job.projectId .concurrentJobs "project active jobs" "projects.max_concurrent_jobs"
    active project.maxConcurrentJobs
  let worker ← .okOr (← lockWorker w) (.notFound "worker" w.val)
  let profile ← .okOr (← loadProfile job.runtimeProfileId)
    (.notFound "runtime profile" job.runtimeProfileId.val)
  .require (decide (t.clock < leaseExpiresAt))
    (.validation "lease expiry must be later than database time")
  validateWorkerMatch worker profile job.minIsolation t.clock options.workerStaleAfter
  pure (job, profile)

@[simp] theorem admitClaim_erase (j : JobId) (w : WorkerId) (expires : Time)
    (options : ClaimJobOptions) (t : DbTime) :
    (admitClaim j w expires options t).erase = RunAnywhere.admitClaim j w expires options t := by
  simp [admitClaim, RunAnywhere.admitClaim]

/-- `claim_job_with_options`. -/
def claimJobWithOptions (j : JobId) (w : WorkerId) (l : LeaseId) (leaseExpiresAt : Time)
    (options : ClaimJobOptions) (eventId : JobEventId) (t : DbTime) : RepoLockTx JobClaim := do
  let (_, profile) ← admitClaim j w leaseExpiresAt options t
  let reserved ← updateWorker w
    (fun r => decide (r.state = .online) && decide (r.activeJobs < r.capacity)) (·.reserved t)
  .require reserved.isSome (.compareAndSwapLost "worker capacity" w.val)
  let claimed ← updateJob j
    (fun r => decide (r.state = .queued) && r.workerId.isNone && r.leaseId.isNone)
    (·.claimed w l leaseExpiresAt t.clock)
  let row ← .okOr claimed (.compareAndSwapLost "job" j.val)
  let _ ← appendEvent eventId j "job.claimed" (some .claimed) true
    [("worker_id", .text w.val), ("lease_id", .text l.val)] t
  pure {
    jobId := j, projectId := row.projectId, workerId := w, leaseId := l,
    apkUploadId := row.apkUploadId, testUploadId := row.testUploadId, runtimeProfile := profile,
    mode := row.mode, minIsolation := row.minIsolation, automation := row.automation,
    artifacts := row.requestedArtifacts, timeoutSeconds := row.timeoutSeconds,
    claimedAt := t.clock, leaseExpiresAt := leaseExpiresAt }

theorem claimJobWithOptions_erase (j : JobId) (w : WorkerId) (l : LeaseId) (expires : Time)
    (options : ClaimJobOptions) (eventId : JobEventId) (t : DbTime) :
    (claimJobWithOptions j w l expires options eventId t).erase =
      RunAnywhere.claimJobWithOptions j w l expires options eventId t := by
  simp [claimJobWithOptions, RunAnywhere.claimJobWithOptions]

/-- `release_worker_capacity`. -/
def releaseWorkerCapacity (t : DbTime) (w : WorkerId) : RepoLockTx Unit := do
  let _ ← updateWorker w (fun _ => true) (·.released t)
  pure ()

@[simp] theorem releaseWorkerCapacity_erase (t : DbTime) (w : WorkerId) :
    (releaseWorkerCapacity t w).erase = RunAnywhere.releaseWorkerCapacity t w := by
  simp [releaseWorkerCapacity, RunAnywhere.releaseWorkerCapacity]

/-- `transition_job_state`. -/
def transitionJobState (j : JobId) (expectedFrom target : JobState)
    (evidence : TransitionEvidence) (lease : Option LeaseGuard)
    (eventPayload : List (String × EventValue)) (eventId : JobEventId) (t : DbTime) :
    RepoLockTx Job := do
  .ofExcept ((validateTransition expectedFrom target evidence).mapError .invalidTransition)
  let row ← updateJob j (transitionGuard expectedFrom evidence lease t)
    (·.transitioned target evidence t)
  let row ← .okOr row (.compareAndSwapLost "job" j.val)
  if target.isTerminal then
    match row.workerId with
    | some w => releaseWorkerCapacity t w
    | none => pure ()
  let _ ← appendEvent eventId j ("job." ++ target.wire) (some target)
    (decide (expectedFrom ≠ target)) eventPayload t
  pure (row.intoJob j)

theorem transitionJobState_erase (j : JobId) (source target : JobState)
    (evidence : TransitionEvidence) (lease : Option LeaseGuard)
    (payload : List (String × EventValue)) (eventId : JobEventId) (t : DbTime) :
    (transitionJobState j source target evidence lease payload eventId t).erase =
      RunAnywhere.transitionJobState j source target evidence lease payload eventId t := by
  refine erase_seq rfl fun _ => erase_seq rfl fun _ => erase_seq rfl fun row => ?_
  by_cases hterminal : target.isTerminal
  · cases hw : row.workerId <;> simp [hterminal]
  · simp [hterminal]

/-- `record_job_result`. -/
def recordJobResult (result : JobResult) (eventId : JobEventId) (t : DbTime) : RepoLockTx Job := do
  .require (!(result.cleanupCompleted && !result.artifactsFinalized))
    (.validation "cleanup completion requires finalized artifacts")
  .require (!(decide (result.outcome = .passed) && result.error.isSome))
    (.validation "a passed result cannot include an error")
  let current ← .okOr (← lockJob result.jobId) (.notFound "job" result.jobId.val)
  .require (current.heldBy result.workerId result.leaseId)
    (.compareAndSwapLost "job lease" result.jobId.val)
  .require (!current.state.isTerminal) (.conflict "cannot record a result for a terminal job")
  .require (!(result.cleanupCompleted && !(current.artifactsFinalized || result.artifactsFinalized)))
    (.validation "cleanup completion requires finalized artifacts")
  match current.pendingOutcome with
  | some existing =>
      .require (decide (existing = result.outcome))
        (.conflict ("job already has pending outcome " ++ existing.debug))
  | none => pure ()
  verifyArtifactIds result.jobId result.artifactIds
  .require (result.error.all fun failure => jsonbHolds failure.message)
    (.sqlx .untranslatableCharacter)
  let row ← updateJob result.jobId (resultGuard result t) (·.withResult result)
  let row ← .okOr row (.compareAndSwapLost "job result" result.jobId.val)
  let _ ← appendEvent eventId result.jobId "job.result_recorded" (some current.state) false
    [("outcome", .outcome result.outcome), ("completed_at", .instant result.completedAt),
      ("artifact_ids", .artifacts result.artifactIds)] t
  pure (row.intoJob result.jobId)

theorem recordJobResult_erase (result : JobResult) (eventId : JobEventId) (t : DbTime) :
    (recordJobResult result eventId t).erase = RunAnywhere.recordJobResult result eventId t := by
  refine erase_seq rfl fun _ => erase_seq rfl fun _ => erase_seq rfl fun _ =>
    erase_seq rfl fun current => erase_seq rfl fun _ => erase_seq rfl fun _ =>
    erase_seq rfl fun _ => ?_
  cases current.pendingOutcome <;> simp

/-! ## Dead letters and recovery -/

/-- `insert_job_dead_letter_outbox`: the row of the same attempt is locked. -/
def insertJobDeadLetterOutbox (deadLetter : JobDeadLetter)
    (traceHeaders : List (String × String)) (t : DbTime) : RepoLockTx OutboxMessage := do
  let invalid := fun (e : JobDeadLetterValidationError) => RepositoryError.validation e.message
  .ofExcept (deadLetter.validate.mapError invalid)
  validateTraceHeaders traceHeaders
  let eventKey ← .ofExcept (deadLetter.idempotencyKey.mapError invalid)
  match ← insertOutbox eventKey jobsDeadSubject (.jobDeadLetter deadLetter) traceHeaders t with
  | some row => pure (row.intoMessage eventKey)
  | none =>
      let found ← .stmt (fun db => waitIf (db.message? eventKey).isSome (.outbox eventKey))
        (.read fun db => db.message? eventKey)
      let row ← .okOr found
        (.conflict "dead-letter outbox winner was not visible after conflict")
      .require (decide (row.subject = jobsDeadSubject))
        (.conflict ("outbox key `" ++ eventKey ++ "` is already used by subject `"
          ++ row.subject ++ "`"))
      pure (row.intoMessage eventKey)

@[simp] theorem insertJobDeadLetterOutbox_erase (deadLetter : JobDeadLetter)
    (headers : List (String × String)) (t : DbTime) :
    (insertJobDeadLetterOutbox deadLetter headers t).erase =
      RunAnywhere.insertJobDeadLetterOutbox deadLetter headers t := by
  refine erase_seq rfl fun _ => erase_seq rfl fun _ => erase_seq rfl fun _ =>
    erase_seq rfl fun inserted => ?_
  cases inserted <;> simp

/-- The dead letter of an exhausted job. -/
def insertExhaustionMarker (stale : StaleJob) (current : JobRow) (t : DbTime) :
    RepoLockTx Unit := do
  let deadLetter ← .ofExcept ((JobDeadLetter.new (some stale.jobId) (some current.projectId) none
    stale.deliveryAttempts .attemptsExhausted t.clock).mapError fun e => .validation e.message)
  let _ ← insertJobDeadLetterOutbox deadLetter [] t
  pure ()

@[simp] theorem insertExhaustionMarker_erase (stale : StaleJob) (current : JobRow) (t : DbTime) :
    (insertExhaustionMarker stale current t).erase =
      RunAnywhere.insertExhaustionMarker stale current t := by
  simp [insertExhaustionMarker, RunAnywhere.insertExhaustionMarker]

/-- `recover_stale_job`. -/
def recoverStaleJob (stale : StaleJob) (maxDeliver : Nat) (eventId : JobEventId) (t : DbTime) :
    RepoLockTx RecoveryDisposition := do
  .require (decide (maxDeliver ≠ 0)) (.validation "max_deliver must be positive")
  match ← lockJob stale.jobId with
  | none => pure .lostRace
  | some current => do
      let matched ← snapshotMatches stale current
      if !matched || decide (current.state = .queued) || current.state.isTerminal then
        pure .lostRace
      else match ← lockWorker stale.workerId with
        | none => pure .lostRace
        | some worker => do
            let leaseExpired := decide (stale.leaseExpiresAt ≤ stale.leaseExpiredBefore)
            let workerStale := decide (worker.lastHeartbeatAt ≤ stale.workerHeartbeatBefore)
            if !leaseExpired && !workerStale then pure .lostRace
            else do
              let kind := recoveryKind stale maxDeliver current
              match ← updateJob stale.jobId (recoverGuard stale) (·.recovered kind) with
              | none => pure .lostRace
              | some row => do
                  releaseWorkerCapacity t stale.workerId
                  let newState := recoveredState kind stale
                  let _ ← appendEvent eventId stale.jobId kind.eventType (some newState)
                    (decide (newState ≠ stale.state))
                    [("delivery_attempts", .number stale.deliveryAttempts),
                      ("lease_expired", .bool leaseExpired), ("worker_stale", .bool workerStale)] t
                  if kind = .exhausted then insertExhaustionMarker stale current t
                  pure (kind.disposition (row.intoJob stale.jobId))

theorem recoverStaleJob_erase (stale : StaleJob) (maxDeliver : Nat) (eventId : JobEventId)
    (t : DbTime) : (recoverStaleJob stale maxDeliver eventId t).erase =
      RunAnywhere.recoverStaleJob stale maxDeliver eventId t := by
  refine erase_seq rfl fun _ => erase_seq rfl fun found => ?_
  cases found with
  | none => rfl
  | some current =>
      refine erase_seq rfl fun matched => ?_
      by_cases hlost : !matched || decide (current.state = .queued) || current.state.isTerminal
      · simp [hlost]
      · rw [if_neg hlost, if_neg hlost]
        refine erase_seq rfl fun locked => ?_
        cases locked with
        | none => rfl
        | some worker =>
            simp only [LockTx.erase_ite, LockTx.erase_pure]
            congr 1
            refine erase_seq rfl fun updated => ?_
            cases updated with
            | none => rfl
            | some row =>
                refine erase_seq (releaseWorkerCapacity_erase _ _) fun _ =>
                  erase_seq (appendEvent_erase _ _ _ _ _ _ _) fun _ => ?_
                cases recoveryKind stale maxDeliver current <;> simp

/-! ## Workers -/

/-- `upsert_worker`: a stored row is locked before its WHERE clause is evaluated. -/
def upsertWorker (registration : WorkerRegistration) (t : DbTime) : RepoLockTx WorkerStatus := do
  validateRuntimes registration.runtimes
  match ← lockWorker registration.workerId with
  | none => do
      let row := newWorkerRow registration t
      insertWorker registration.workerId row
      pure (row.intoStatus registration.workerId)
  | some _ => do
      let updated ← updateWorker registration.workerId
        (fun r => decide (r.activeJobs ≤ registration.capacity)) (·.registered registration t)
      let row ← .okOr updated
        (.conflict "worker capacity cannot be lowered below its active reservations")
      pure (row.intoStatus registration.workerId)

theorem upsertWorker_erase (registration : WorkerRegistration) (t : DbTime) :
    (upsertWorker registration t).erase = RunAnywhere.upsertWorker registration t := by
  refine erase_seq rfl fun _ => erase_seq rfl fun found => ?_
  cases found <;> simp

/-- `set_worker_state`. -/
def setWorkerState (w : WorkerId) (state : WorkerState) (t : DbTime) :
    RepoLockTx WorkerStatus := do
  let updated ← updateWorker w (fun _ => true) (·.withState state t)
  let row ← .okOr updated (.notFound "worker" w.val)
  pure (row.intoStatus w)

theorem setWorkerState_erase (w : WorkerId) (state : WorkerState) (t : DbTime) :
    (setWorkerState w state t).erase = RunAnywhere.setWorkerState w state t := by
  simp [setWorkerState, RunAnywhere.setWorkerState]

/-- `SELECT id FROM jobs WHERE id = ANY($1) ORDER BY id`. -/
def extendedJobs (extends_ : List JobLeaseExtension) (db : Db) : List JobId :=
  ((extends_.map (·.jobId)).dedup.filter fun j => (db.job? j).isSome).insertionSort
    fun a b => a.val ≤ b.val

/-- One requested extension. -/
def extendLease (w : WorkerId) (recordedAt : Time) (leaseSeconds : Int)
    (extension : JobLeaseExtension) : RepoLockTx ExtensionOutcome := do
  let updated ← updateJob extension.jobId (extendGuard w extension.leaseId recordedAt)
    (·.extended recordedAt leaseSeconds)
  if updated.isSome then pure .extended
  else do
    let cancellation ← .read fun db =>
      (db.job? extension.jobId).any (cancelGuard w extension.leaseId)
    pure (if cancellation then .cancelRequested else .rejected)

@[simp] theorem extendLease_erase (w : WorkerId) (recordedAt : Time) (leaseSeconds : Int)
    (extension : JobLeaseExtension) : (extendLease w recordedAt leaseSeconds extension).erase =
      RunAnywhere.extendLease w recordedAt leaseSeconds extension := by
  simp [extendLease, RunAnywhere.extendLease]

/-- The loop over the requested extensions. -/
def extendLeases (w : WorkerId) (recordedAt : Time) (leaseSeconds : Int) :
    List JobLeaseExtension → RepoLockTx HeartbeatReceipt
  | [] => pure ⟨recordedAt, [], [], []⟩
  | extension :: rest => do
      let outcome ← extendLease w recordedAt leaseSeconds extension
      let receipt ← extendLeases w recordedAt leaseSeconds rest
      pure (match outcome with
        | .extended => { receipt with extended := extension :: receipt.extended }
        | .cancelRequested =>
            { receipt with cancelRequested := extension :: receipt.cancelRequested }
        | .rejected => { receipt with rejected := extension :: receipt.rejected })

@[simp] theorem extendLeases_erase (w : WorkerId) (recordedAt : Time) (leaseSeconds : Int)
    (extends_ : List JobLeaseExtension) : (extendLeases w recordedAt leaseSeconds extends_).erase =
      RunAnywhere.extendLeases w recordedAt leaseSeconds extends_ := by
  induction extends_ with
  | nil => rfl
  | cons extension rest ih =>
      refine erase_seq (extendLease_erase w recordedAt leaseSeconds extension) fun outcome =>
        erase_seq ih fun receipt => ?_
      cases outcome <;> rfl

/-- `record_heartbeat`: the named jobs first, in the order of their identifiers. -/
def recordHeartbeat (heartbeat : WorkerHeartbeat) (leaseTtl : Int) (t : DbTime) :
    RepoLockTx HeartbeatReceipt := do
  .require (decide (0 < numSeconds leaseTtl)) (.validation "lease TTL must be at least one second")
  .require (decide (heartbeat.activeJobs ≤ heartbeat.capacity))
    (.validation "heartbeat capacity must be at least active_jobs")
  validateRuntimes heartbeat.runtimes
  .stmt (fun db => (extendedJobs heartbeat.leaseExtends db).map fun j => .wait (.job j)) (pure ())
  let worker ← .okOr (← lockWorker heartbeat.workerId) (.notFound "worker" heartbeat.workerId.val)
  .require (decide (worker.activeJobs ≤ heartbeat.capacity))
    (.conflict "reported capacity is below active reservations")
  let _ ← updateWorker heartbeat.workerId (fun _ => true) (·.heartbeat heartbeat t.clock)
  extendLeases heartbeat.workerId t.clock (numSeconds leaseTtl) heartbeat.leaseExtends

theorem recordHeartbeat_erase (heartbeat : WorkerHeartbeat) (leaseTtl : Int) (t : DbTime) :
    (recordHeartbeat heartbeat leaseTtl t).erase =
      RunAnywhere.recordHeartbeat heartbeat leaseTtl t := by
  simp [recordHeartbeat, RunAnywhere.recordHeartbeat]

/-! ## The outbox -/

/-- `FOR UPDATE SKIP LOCKED` on the rows a lease selects. -/
def selectOutbox (candidates : Db → List String) : RepoLockTx (List String) :=
  .stmt (fun db => (candidates db).map fun key => .skip (.outbox key)) (.read candidates)

@[simp] theorem selectOutbox_erase (candidates : Db → List String) :
    (selectOutbox candidates).erase = .read candidates := rfl

/-- The UPDATE of the selected rows. -/
def lockOutboxRows (dispatcherId : String) (clock : Time) :
    List String → RepoLockTx (List OutboxMessage)
  | [] => pure []
  | key :: rest => do
      let row ← updateOutbox key (fun _ => true) (·.lock dispatcherId clock)
      let messages ← lockOutboxRows dispatcherId clock rest
      pure ((row.map (·.intoMessage key)).toList ++ messages)

@[simp] theorem lockOutboxRows_erase (dispatcherId : String) (clock : Time) (keys : List String) :
    (lockOutboxRows dispatcherId clock keys).erase =
      RunAnywhere.lockOutboxRows dispatcherId clock keys := by
  induction keys with
  | nil => rfl
  | cons key rest ih => simp [lockOutboxRows, RunAnywhere.lockOutboxRows, ih]

/-- `lease_outbox_messages_for_subject`. -/
def leaseOutboxMessagesForSubject (dispatcherId subject : String) (leaseTimeout : Int)
    (limit : Nat) (skip : String → Bool) (t : DbTime) : RepoLockTx (List OutboxMessage) := do
  validateDispatcherId dispatcherId
  validateSubject subject
  let leaseMicros := leaseTimeout.tdiv 1000 * 1000
  .require (decide (0 < leaseMicros)) (.validation "outbox lease timeout must be positive")
  checkedLimit limit
  let keys ← selectOutbox fun db => db.leaseCandidates subject leaseMicros t.clock limit skip
  lockOutboxRows dispatcherId t.clock keys

theorem leaseOutboxMessagesForSubject_erase (dispatcherId subject : String) (leaseTimeout : Int)
    (limit : Nat) (skip : String → Bool) (t : DbTime) :
    (leaseOutboxMessagesForSubject dispatcherId subject leaseTimeout limit skip t).erase =
      RunAnywhere.leaseOutboxMessagesForSubject dispatcherId subject leaseTimeout limit skip t := by
  simp [leaseOutboxMessagesForSubject, RunAnywhere.leaseOutboxMessagesForSubject]

/-- `lease_outbox_messages`. -/
def leaseOutboxMessages (dispatcherId : String) (leaseTimeout : Int) (limit : Nat)
    (skip : String → Bool) (t : DbTime) : RepoLockTx (List OutboxMessage) := do
  validateDispatcherId dispatcherId
  let leaseMicros := leaseTimeout.tdiv 1000 * 1000
  .require (decide (0 < leaseMicros)) (.validation "outbox lease timeout must be positive")
  checkedLimit limit
  let keys ← selectOutbox fun db => db.anyLeaseCandidates leaseMicros t.clock limit skip
  lockOutboxRows dispatcherId t.clock keys

theorem leaseOutboxMessages_erase (dispatcherId : String) (leaseTimeout : Int) (limit : Nat)
    (skip : String → Bool) (t : DbTime) :
    (leaseOutboxMessages dispatcherId leaseTimeout limit skip t).erase =
      RunAnywhere.leaseOutboxMessages dispatcherId leaseTimeout limit skip t := by
  simp [leaseOutboxMessages, RunAnywhere.leaseOutboxMessages]

/-- `mark_outbox_published`. -/
def markOutboxPublished (messageId : Nat) (dispatcherId : String) (t : DbTime) :
    RepoLockTx OutboxMessage := do
  validateDispatcherId dispatcherId
  let lost := RepositoryError.compareAndSwapLost "outbox message lease" (toString messageId)
  let key ← .okOr (← .read fun db => db.messageKey? messageId) lost
  let row ← updateOutbox key
    (fun r => r.publishedAt.isNone && decide (r.lockedBy = some dispatcherId))
    (fun r => { r with
      publishedAt := some t.clock, lockedBy := none, lockedAt := none, lastError := none })
  let row ← .okOr row lost
  pure (row.intoMessage key)

theorem markOutboxPublished_erase (messageId : Nat) (dispatcherId : String) (t : DbTime) :
    (markOutboxPublished messageId dispatcherId t).erase =
      RunAnywhere.markOutboxPublished messageId dispatcherId t := by
  simp [markOutboxPublished, RunAnywhere.markOutboxPublished]

/-- `retry_outbox_message`. -/
def retryOutboxMessage (messageId : Nat) (dispatcherId : String) (availableAt : Time)
    (lastError : String) : RepoLockTx OutboxMessage := do
  validateDispatcherId dispatcherId
  .require (!isBlank lastError) (.validation "outbox retry error must not be blank")
  let lost := RepositoryError.compareAndSwapLost "outbox message lease" (toString messageId)
  let key ← .okOr (← .read fun db => db.messageKey? messageId) lost
  let row ← updateOutbox key
    (fun r => r.publishedAt.isNone && decide (r.lockedBy = some dispatcherId))
    (fun r => { r with
      availableAt := availableAt, lastError := some lastError, lockedBy := none,
      lockedAt := none })
  let row ← .okOr row lost
  pure (row.intoMessage key)

theorem retryOutboxMessage_erase (messageId : Nat) (dispatcherId : String) (availableAt : Time)
    (lastError : String) : (retryOutboxMessage messageId dispatcherId availableAt lastError).erase =
      RunAnywhere.retryOutboxMessage messageId dispatcherId availableAt lastError := by
  simp [retryOutboxMessage, RunAnywhere.retryOutboxMessage]

/-! ## Debug sessions -/

/-- `lock_debug_session_job`. -/
def lockDebugSessionJob (j : JobId) : DebugLockTx JobState := do
  let row ← .stmt (fun s => waitIf (s.db.job? j).isSome (.job j)) (.read fun s => s.db.job? j)
  .okOr (row.map (·.state)) (.notFound "job" j.val)

@[simp] theorem lockDebugSessionJob_erase (j : JobId) :
    (lockDebugSessionJob j).erase = RunAnywhere.lockDebugSessionJob j := by
  simp [lockDebugSessionJob, RunAnywhere.lockDebugSessionJob]

/-- `end_expired_debug_session`: the rows it hits, as the scan finds them. -/
def endExpiredDebugSession (j : JobId) (c : DebugClocks) : DebugLockTx Unit :=
  .stmt (fun s => (s.sessions.rows.filter fun p => p.2.val.expiredOf j c.expiry).map
    fun p => .wait (.session p.1)) (RunAnywhere.endExpiredDebugSession j c)

@[simp] theorem endExpiredDebugSession_erase (j : JobId) (c : DebugClocks) :
    (endExpiredDebugSession j c).erase = RunAnywhere.endExpiredDebugSession j c := rfl

/-- `UPDATE debug_sessions`: the row it hits. -/
def updateDebugSession (id : DebugSessionId) (guard : DebugSessionRow → Bool)
    (set : DebugSessionRow → DebugSessionRow) : DebugLockTx (Option DebugSessionRow) :=
  .stmt (fun s => waitIf ((s.session? id).any guard) (.session id))
    (RunAnywhere.updateDebugSession id guard set)

@[simp] theorem updateDebugSession_erase (id : DebugSessionId) (guard : DebugSessionRow → Bool)
    (set : DebugSessionRow → DebugSessionRow) :
    (updateDebugSession id guard set).erase = RunAnywhere.updateDebugSession id guard set := rfl

/-- `create_debug_session`. -/
def createDebugSession (request : DebugSessionRequest) (c : DebugClocks) :
    DebugLockTx StoredDebugSession := do
  validateDebugSession request.jti request.createdBy
  let _ ← lockDebugSessionJob request.jobId
  endExpiredDebugSession request.jobId c
  insertDebugSession request.jobId request.id request.jti request.createdBy request.mode
    request.expiresAt c

theorem createDebugSession_erase (request : DebugSessionRequest) (c : DebugClocks) :
    (createDebugSession request c).erase = RunAnywhere.createDebugSession request c := by
  simp [createDebugSession, RunAnywhere.createDebugSession]

/-- `create_debug_session_with_audit`. -/
def createDebugSessionWithAudit (request : DebugSessionRequest) (c : DebugClocks) :
    DebugLockTx CreatedDebugSession := do
  validateDebugSession request.jti request.createdBy
  let state ← lockDebugSessionJob request.jobId
  .require (decide (state = .debugAvailable))
    (.conflict "debug sessions require a job in debug_available state")
  endExpiredDebugSession request.jobId c
  let session ← insertDebugSession request.jobId request.id request.jti request.createdBy
    request.mode request.expiresAt c
  let audit ← insertAudit request.createdBy "debug_session.created" session.id.val
    request.auditPayload c.now
  pure ⟨session, audit⟩

theorem createDebugSessionWithAudit_erase (request : DebugSessionRequest) (c : DebugClocks) :
    (createDebugSessionWithAudit request c).erase =
      RunAnywhere.createDebugSessionWithAudit request c := by
  simp [createDebugSessionWithAudit, RunAnywhere.createDebugSessionWithAudit]

/-- `end_debug_session`. -/
def endDebugSession (id : DebugSessionId) (now : Time) : DebugLockTx StoredDebugSession := do
  let row ← updateDebugSession id (fun _ => true)
    fun r => { r with endedAt := some (r.endedAt.getD now) }
  let row ← .okOr row (.notFound "debug session" id.val)
  pure ⟨id, row⟩

theorem endDebugSession_erase (id : DebugSessionId) (now : Time) :
    (endDebugSession id now).erase = RunAnywhere.endDebugSession id now := by
  simp [endDebugSession, RunAnywhere.endDebugSession]

/-- End the candidates one by one. -/
def endDebugSessions (actor : String) (clock : DebugSessionId → Time) (now : Time) :
    List (DebugSessionId × DebugSessionEndReason) → DebugLockTx (List EndedDebugSession)
  | [] => pure []
  | (id, reason) :: rest => do
      let row ← updateDebugSession id (·.endedAt.isNone)
        fun r => { r with endedAt := some (max r.createdAt (clock id)) }
      let row ← .okOr row (.compareAndSwapLost "debug session" id.val)
      let audit ← insertAudit actor "debug_session.ended" id.val
        [("job_id", .jobId row.jobId), ("reason", .reason reason)] now
      let ended ← endDebugSessions actor clock now rest
      pure (⟨⟨id, row⟩, audit, reason⟩ :: ended)

@[simp] theorem endDebugSessions_erase (actor : String) (clock : DebugSessionId → Time)
    (now : Time) (candidates : List (DebugSessionId × DebugSessionEndReason)) :
    (endDebugSessions actor clock now candidates).erase =
      RunAnywhere.endDebugSessions actor clock now candidates := by
  induction candidates with
  | nil => rfl
  | cons candidate rest ih => simp [endDebugSessions, RunAnywhere.endDebugSessions, ih]

/-- `end_expired_or_terminal_debug_sessions_with_audit`. -/
def endExpiredOrTerminalDebugSessionsWithAudit (expiredBefore : Time) (actor : String)
    (limit : Nat) (skip : DebugSessionId → Bool) (clock : DebugSessionId → Time) (now : Time) :
    DebugLockTx (List EndedDebugSession) := do
  .require (!isBlank actor) (.validation "debug-session reconciler actor must not be blank")
  .require (decide (0 < limit) && decide (limit ≤ 200))
    (.validation "limit must be between 1 and 200")
  let candidates ← .stmt
    (fun s => (s.endCandidates expiredBefore limit skip).map fun p => .skip (.session p.1))
    (.read fun s => s.endCandidates expiredBefore limit skip)
  endDebugSessions actor clock now candidates

theorem endExpiredOrTerminalDebugSessionsWithAudit_erase (expiredBefore : Time) (actor : String)
    (limit : Nat) (skip : DebugSessionId → Bool) (clock : DebugSessionId → Time) (now : Time) :
    (endExpiredOrTerminalDebugSessionsWithAudit expiredBefore actor limit skip clock now).erase =
      RunAnywhere.endExpiredOrTerminalDebugSessionsWithAudit expiredBefore actor limit skip clock
        now := by
  simp [endExpiredOrTerminalDebugSessionsWithAudit,
    RunAnywhere.endExpiredOrTerminalDebugSessionsWithAudit]

/-! ## All of them -/

/-- The transaction of a call with its locks. -/
def op (hashtext : String → Int) : (op : Op) → DbTime → RepoLockTx op.Out
  | .setCatalog catalog, _ => liftM (Tx.write fun db => { db with catalog := catalog } : RepoTx Unit)
  | .upsertWorker registration, t => upsertWorker registration t
  | .setWorkerState w state, t => setWorkerState w state t
  | .recordHeartbeat heartbeat leaseTtl, t => recordHeartbeat heartbeat leaseTtl t
  | .createJobWithOutbox id eventId request key headers, t =>
      createJobWithOutbox hashtext id eventId request key headers t
  | .requestJobCancellation j eventId, t => requestJobCancellation j eventId t
  | .claimJobWithOptions j w l expires options eventId, t =>
      claimJobWithOptions j w l expires options eventId t
  | .transitionJobState j source target evidence lease payload eventId, t =>
      transitionJobState j source target evidence lease payload eventId t
  | .recordJobResult result eventId, t => recordJobResult result eventId t
  | .recoverStaleJob stale maxDeliver eventId, t => recoverStaleJob stale maxDeliver eventId t
  | .enqueueJobDeadLetter deadLetter headers, t => insertJobDeadLetterOutbox deadLetter headers t
  | .leaseOutboxMessages dispatcherId subject leaseTimeout limit skip, t =>
      leaseOutboxMessagesForSubject dispatcherId subject leaseTimeout limit skip t
  | .markOutboxPublished id dispatcherId, t => markOutboxPublished id dispatcherId t
  | .retryOutboxMessage id dispatcherId availableAt lastError, _ =>
      retryOutboxMessage id dispatcherId availableAt lastError

/-- **Erasure.** Without its locks a call is the transaction of the repository. -/
theorem op_erase (hashtext : String → Int) (o : Op) (t : DbTime) :
    (op hashtext o t).erase = o.tx t := by
  cases o with
  | setCatalog catalog => rfl
  | upsertWorker registration => exact upsertWorker_erase _ _
  | setWorkerState w state => exact setWorkerState_erase _ _ _
  | recordHeartbeat heartbeat leaseTtl => exact recordHeartbeat_erase _ _ _
  | createJobWithOutbox id eventId request key headers => exact createJobWithOutbox_erase _ _ _ _ _ _ _
  | requestJobCancellation j eventId => exact requestJobCancellation_erase _ _ _
  | claimJobWithOptions j w l expires options eventId => exact claimJobWithOptions_erase _ _ _ _ _ _ _
  | transitionJobState j source target evidence lease payload eventId =>
      exact transitionJobState_erase _ _ _ _ _ _ _ _
  | recordJobResult result eventId => exact recordJobResult_erase _ _ _
  | recoverStaleJob stale maxDeliver eventId => exact recoverStaleJob_erase _ _ _ _
  | enqueueJobDeadLetter deadLetter headers => exact insertJobDeadLetterOutbox_erase _ _ _
  | leaseOutboxMessages dispatcherId subject leaseTimeout limit skip =>
      exact leaseOutboxMessagesForSubject_erase _ _ _ _ _ _
  | markOutboxPublished id dispatcherId => exact markOutboxPublished_erase _ _ _
  | retryOutboxMessage id dispatcherId availableAt lastError => exact retryOutboxMessage_erase _ _ _ _

/-- What the transactions of the repository request, from any database. A job has at most
one unended debug session, by an index. -/
inductive Requested (hashtext : String → Int) : List (Request RowLock) → Prop
  | op (o : Op) (t : DbTime) (db : Db) : Requested hashtext ((op hashtext o t).requests db)
  | appendJobEvent (id : JobEventId) (j : JobId) (eventType : String) (state : Option JobState)
      (payload : List (String × EventValue)) (t : DbTime) (db : Db) :
      Requested hashtext ((appendJobEvent id j eventType state payload t).requests db)
  | leaseOutboxMessages (dispatcherId : String) (leaseTimeout : Int) (limit : Nat)
      (skip : String → Bool) (t : DbTime) (db : Db) :
      Requested hashtext ((leaseOutboxMessages dispatcherId leaseTimeout limit skip t).requests db)
  | createDebugSession (request : DebugSessionRequest) (c : DebugClocks) (s : DebugDb)
      (one : s.OneUnended) : Requested hashtext ((createDebugSession request c).requests s)
  | createDebugSessionWithAudit (request : DebugSessionRequest) (c : DebugClocks) (s : DebugDb)
      (one : s.OneUnended) :
      Requested hashtext ((createDebugSessionWithAudit request c).requests s)
  | endDebugSession (id : DebugSessionId) (now : Time) (s : DebugDb) :
      Requested hashtext ((endDebugSession id now).requests s)
  | endExpiredOrTerminalDebugSessionsWithAudit (expiredBefore : Time) (actor : String)
      (limit : Nat) (skip : DebugSessionId → Bool) (clock : DebugSessionId → Time) (now : Time)
      (s : DebugDb) : Requested hashtext
        ((endExpiredOrTerminalDebugSessionsWithAudit expiredBefore actor limit skip clock
          now).requests s)

end Traced

end RunAnywhere
