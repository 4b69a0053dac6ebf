import RunAnywhere.Logic.Chrono
import RunAnywhere.Repository.Events

/-!
# Job operations

`repository/src/jobs.rs`: create, cancel, claim, transition, result and the
scheduling snapshot. Identifiers the source draws at random (`new_id`) are
arguments; the clock readings of the transaction come as a `DbTime`. Each UPDATE
is a guard (its WHERE clause) and a row function (its SET list), so that the
specifications can name what a committed call did to the row.
-/

namespace RunAnywhere

open Logic

structure LeaseGuard where
  workerId : WorkerId
  leaseId : LeaseId
  deriving DecidableEq

structure CreatedJob where
  job : Job
  wasCreated : Bool
  /-- The persisted event of a winning create. Replays do not emit an event. -/
  queuedEvent : Option JobEvent
  deriving DecidableEq

/-- Result of an idempotent state mutation such as cancellation. -/
structure JobMutation where
  job : Job
  wasChanged : Bool
  event : Option JobEvent
  deriving DecidableEq

/-- Canonical database state used to validate and safely rebind queue deliveries. -/
structure JobSchedulingSnapshot where
  job : Job
  queued : JobQueued
  runtimeProfile : RuntimeProfile
  lease : Option LeaseGuard
  leaseExpiresAt : Option Time
  lastLeaseExtendedAt : Option Time
  deliveryAttempts : Nat
  pendingOutcome : Option JobOutcome
  artifactsFinalized : Bool
  cleanupCompleted : Bool
  deriving DecidableEq

/-! ## Reads and checks -/

/-- `lock_job`. -/
def lockJob (j : JobId) : RepoTx (Option JobRow) := .read fun db => db.job? j

/-- `lock_worker`. -/
def lockWorker (w : WorkerId) : RepoTx (Option WorkerRow) := .read fun db => db.worker? w

/-- `load_profile`: the row is validated as it is decoded. -/
def loadProfile (id : RuntimeProfileId) : RepoTx (Option RuntimeProfile) := do
  let profile ← .read fun db => (db.catalog.runtimeProfiles.get? id).map (·.intoProfile id)
  .require (profile.all (·.isValid)) (.decode "runtime_profiles"
    "runtime kind BrowserNativeWasm is reserved and is not valid in Part 01 profiles")
  pure profile

/-- `validate_idempotency_key`: 1 to 255 visible ASCII bytes. -/
def validateIdempotencyKey (key : String) : RepoTx Unit :=
  .require (!(key.toList.isEmpty || decide (255 < key.utf8ByteSize) ||
      !key.toList.all fun c => decide (0x21 ≤ c.toNat) && decide (c.toNat ≤ 0x7e)))
    (.validation "idempotency key must be 1..=255 visible ASCII bytes")

/-- `require_upload_kind`. -/
def requireUploadKind (p : ProjectId) (u : UploadId) (expected : UploadKind) : RepoTx Unit := do
  let upload ← .read fun db => (db.catalog.uploads.get? u).filter (·.projectId = p)
  let upload ← .okOr upload
    (.validation ("upload " ++ u.val ++ " does not belong to project " ++ p.val))
  .require (decide (upload.kind = expected)) (.validation ("upload " ++ u.val ++ " must be "
    ++ expected.debug ++ ", found " ++ upload.kind.debug))

/-- `SELECT … FROM jobs WHERE project_id = $1 AND idempotency_key = $2`. -/
def Db.jobByKey? (db : Db) (p : ProjectId) (key : String) : Option (JobId × JobRow) :=
  (db.jobs.rows.find? fun x =>
    decide (x.2.val.projectId = p) && decide (x.2.val.idempotencyKey = key)).map
      fun x => (x.1, x.2.val)

/-- The project's jobs outside a terminal state. -/
def Db.outstandingJobs (db : Db) (p : ProjectId) : Nat :=
  Table.countRows db.jobs fun _ r => decide (r.projectId = p) && !r.state.isTerminal

/-- The project's leased jobs outside a terminal state. -/
def Db.activeProjectJobs (db : Db) (p : ProjectId) : Nat :=
  Table.countRows db.jobs fun _ r =>
    decide (r.projectId = p) && r.leaseId.isSome && !r.state.isTerminal

/-- `SELECT … FROM projects WHERE id = $1 FOR UPDATE`. -/
def lockProject (p : ProjectId) : RepoTx ProjectRow := do
  let project ← .read fun db => db.catalog.projects.get? p
  .okOr project (.notFound "project" p.val)

/-- Fail with the quota error when `current` has reached `limit`. -/
def requireQuota (p : ProjectId) (quota : ProjectQuota) (currentField limitField : String)
    (current limit : Nat) : RepoTx Unit :=
  if limit ≤ current then do
    let current ← .ofExcept (toU32 currentField current)
    let limit ← .ofExcept (toU32 limitField limit)
    .fail (.quotaExceeded p.val quota current limit)
  else pure ()

/-! ## Create -/

/-- The row an INSERT stores; the other columns take their defaults. -/
def newJobRow (request : CreateJobRequest) (idempotencyKey : String) (t : DbTime) : JobRow where
  projectId := request.projectId
  apkUploadId := request.apkUploadId
  testUploadId := request.testUploadId
  runtimeProfileId := request.runtimeProfile
  workerId := none
  mode := request.mode
  minIsolation := request.minIsolation
  automation := request.automation
  requestedArtifacts := request.artifacts
  timeoutSeconds := request.timeoutSeconds
  idempotencyKey := idempotencyKey
  state := .queued
  pendingOutcome := none
  outcome := none
  failure := none
  artifactsFinalized := false
  cleanupCompleted := false
  leaseId := none
  leaseExpiresAt := none
  lastLeaseExtendedAt := none
  deliveryAttempts := 0
  createdAt := t.now
  startedAt := none
  finishedAt := none

/-- The checks a new job passes before it is inserted; the profile it will run on. -/
def admitJob (request : CreateJobRequest) : RepoTx RuntimeProfile := do
  let project ← lockProject request.projectId
  let outstanding ← .read fun db => db.outstandingJobs request.projectId
  requireQuota request.projectId .outstandingJobs "project outstanding jobs"
    "projects.max_outstanding_jobs" outstanding project.maxOutstandingJobs
  .require (decide (request.testUploadId ≠ some request.apkUploadId))
    (.validation "APK and test uploads must be different")
  requireUploadKind request.projectId request.apkUploadId .apk
  match request.testUploadId with
  | some testUploadId => requireUploadKind request.projectId testUploadId .test
  | none => pure ()
  let profile ← .okOr (← loadProfile request.runtimeProfile)
    (.notFound "runtime profile" request.runtimeProfile.val)
  .require (profile.isolationTier.satisfies request.minIsolation)
    (.validation ("runtime profile " ++ profile.id.val ++ " does not satisfy "
      ++ request.minIsolation.debug ++ " isolation"))
  pure profile

/-- `create_job_with_outbox`: atomically create a job, its initial event, and its
queue outbox message. The advisory lock on the key makes the lookup and the
insert one step, so the insert's `ON CONFLICT (project_id, idempotency_key)` arm
is never taken. -/
def createJobWithOutbox (id : JobId) (eventId : JobEventId) (request : CreateJobRequest)
    (idempotencyKey : String) (traceHeaders : List (String × String)) (t : DbTime) :
    RepoTx CreatedJob := do
  validateIdempotencyKey idempotencyKey
  match ← .read fun db => db.jobByKey? request.projectId idempotencyKey with
  | some (existing, row) => pure ⟨row.intoJob existing, false, none⟩
  | none => do
      let profile ← admitJob request
      let _ ← .ofExcept (checkedI64 "timeout_seconds" request.timeoutSeconds.seconds)
      let row := newJobRow request idempotencyKey t
      insertJob id row
      let event ← appendEvent eventId id "job.queued" (some .queued) true [] t
      let queued : JobQueued :=
        ⟨id, request.projectId, profile.id, request.minIsolation, request.timeoutSeconds⟩
      insertJobQueuedOutbox queued traceHeaders t
      pure ⟨row.intoJob id, true, some event⟩

/-! ## Cancel -/

/-- The SET list of a cancellation. -/
def JobRow.cancelRequested (r : JobRow) : JobRow :=
  { r with state := .collectingArtifacts, pendingOutcome := some .cancelled }

/-- `request_job_cancellation`: request cancellation at the existing
artifact-finalization boundary. Repeating the same request is idempotent. -/
def requestJobCancellation (j : JobId) (eventId : JobEventId) (t : DbTime) :
    RepoTx JobMutation := do
  let current ← .okOr (← lockJob j) (.notFound "job" j.val)
  .require (!current.state.isTerminal) (.conflict "cannot cancel a terminal job")
  match current.pendingOutcome with
  | some .cancelled => pure ⟨current.intoJob j, false, none⟩
  | some pending => .fail (.conflict ("job already has pending outcome " ++ pending.debug))
  | none => do
      let row ← updateJob j
        (fun r => decide (r.state = current.state) && r.pendingOutcome.isNone)
        (·.cancelRequested)
      let row ← .okOr row (.compareAndSwapLost "job cancellation" j.val)
      let event ← appendEvent eventId j "job.cancellation_requested" (some .collectingArtifacts)
        (decide (current.state ≠ .collectingArtifacts)) [("previous_state", .state current.state)] t
      pure ⟨row.intoJob j, true, some event⟩

/-! ## Claim -/

/-- `abi_supported`. -/
def abiSupported (abi : AndroidAbi) (arch : HostArch) : Bool :=
  match abi, arch with
  | .x86, .x86_64 | .x86_64, .x86_64 => true
  | .armeabiV7a, .aarch64 | .arm64V8a, .aarch64 => true
  | _, _ => false

/-- Whether a profile needs KVM on its host. -/
def RuntimeProfile.needsKvm (profile : RuntimeProfile) : Bool :=
  decide (profile.isolationTier = .vmIsolated) ||
    decide (profile.runtimeKind = .androidEmulatorContainer) ||
    decide (profile.runtimeKind = .cuttlefish)

/-- `checked_sub_signed`, in microseconds: an instant outside the calendar of `chrono` is none. -/
def checkedSubSigned (t : Time) (d : Int) : Option Time :=
  (Chrono.DateTime.ofNanos ((t - d) * 1000)).map fun instant => instant.nanos / 1000

/-- `validate_worker_match`. -/
def validateWorkerMatch (worker : WorkerRow) (profile : RuntimeProfile) (minimum : IsolationTier)
    (databaseNow : Time) (workerStaleAfter : Int) : RepoTx Unit := do
  .require (decide (worker.state = .online)) (.conflict "worker is not online")
  .require (decide (worker.activeJobs < worker.capacity)) (.conflict "worker has no spare capacity")
  let heartbeatCutoff ← .okOr (checkedSubSigned databaseNow workerStaleAfter)
    (.validation "worker freshness duration is too large")
  .require (decide (heartbeatCutoff ≤ worker.lastHeartbeatAt)) (.conflict "worker heartbeat is stale")
  .require (worker.runtimes.contains profile.runtimeKind)
    (.conflict "worker does not support the runtime")
  .require (decide (worker.arch = profile.hostArch) && abiSupported profile.abi worker.arch)
    (.conflict "worker architecture is incompatible with the runtime profile")
  .require (!(profile.needsKvm && !worker.kvm)) (.conflict "worker lacks KVM required by the runtime")
  .require (profile.isolationTier.satisfies minimum)
    (.conflict "runtime isolation does not satisfy the job minimum")

/-- Atomic-claim policy supplied by the scheduler's configuration. -/
structure ClaimJobOptions where
  workerStaleAfter : Int
  deriving DecidableEq

/-- The SET list of a claim. -/
def JobRow.claimed (w : WorkerId) (l : LeaseId) (leaseExpiresAt claimedAt : Time) (r : JobRow) :
    JobRow :=
  { r with
    state := .claimed
    workerId := some w
    leaseId := some l
    leaseExpiresAt := some leaseExpiresAt
    lastLeaseExtendedAt := some claimedAt
    deliveryAttempts := r.deliveryAttempts + 1
    startedAt := some (r.startedAt.getD claimedAt) }

/-- The SET list of a reservation. -/
def WorkerRow.reserved (t : DbTime) (r : WorkerRow) : WorkerRow :=
  { r with activeJobs := r.activeJobs + 1, updatedAt := t.now }

/-- The checks a claim passes before it reserves capacity; the row and the
profile of the claimed job. -/
def admitClaim (j : JobId) (w : WorkerId) (leaseExpiresAt : Time) (options : ClaimJobOptions)
    (t : DbTime) : RepoTx (JobRow × RuntimeProfile) := do
  .require (decide (0 < options.workerStaleAfter))
    (.validation "worker freshness duration must be positive")
  let job ← .okOr (← lockJob j) (.notFound "job" j.val)
  .require (decide (job.state = .queued) && job.leaseId.isNone && job.workerId.isNone)
    (.compareAndSwapLost "job" j.val)
  let project ← lockProject job.projectId
  let active ← .read fun db => db.activeProjectJobs job.projectId
  requireQuota job.projectId .concurrentJobs "project active jobs" "projects.max_concurrent_jobs"
    active project.maxConcurrentJobs
  let worker ← .okOr (← lockWorker w) (.notFound "worker" w.val)
  let profile ← .okOr (← loadProfile job.runtimeProfileId)
    (.notFound "runtime profile" job.runtimeProfileId.val)
  .require (decide (t.clock < leaseExpiresAt))
    (.validation "lease expiry must be later than database time")
  validateWorkerMatch worker profile job.minIsolation t.clock options.workerStaleAfter
  pure (job, profile)

/-- `claim_job_with_options`. -/
def claimJobWithOptions (j : JobId) (w : WorkerId) (l : LeaseId) (leaseExpiresAt : Time)
    (options : ClaimJobOptions) (eventId : JobEventId) (t : DbTime) : RepoTx JobClaim := do
  let (_, profile) ← admitClaim j w leaseExpiresAt options t
  let reserved ← updateWorker w
    (fun r => decide (r.state = .online) && decide (r.activeJobs < r.capacity)) (·.reserved t)
  .require reserved.isSome (.compareAndSwapLost "worker capacity" w.val)
  let claimed ← updateJob j
    (fun r => decide (r.state = .queued) && r.workerId.isNone && r.leaseId.isNone)
    (·.claimed w l leaseExpiresAt t.clock)
  let row ← .okOr claimed (.compareAndSwapLost "job" j.val)
  let _ ← appendEvent eventId j "job.claimed" (some .claimed) true
    [("worker_id", .text w.val), ("lease_id", .text l.val)] t
  pure {
    jobId := j, projectId := row.projectId, workerId := w, leaseId := l,
    apkUploadId := row.apkUploadId, testUploadId := row.testUploadId, runtimeProfile := profile,
    mode := row.mode, minIsolation := row.minIsolation, automation := row.automation,
    artifacts := row.requestedArtifacts, timeoutSeconds := row.timeoutSeconds,
    claimedAt := t.clock, leaseExpiresAt := leaseExpiresAt }

/-! ## Transition -/

/-- The SET list of a release: subtraction stops at 0 (`GREATEST(active_jobs - 1, 0)`). -/
def WorkerRow.released (t : DbTime) (r : WorkerRow) : WorkerRow :=
  { r with activeJobs := r.activeJobs - 1, updatedAt := t.now }

/-- `release_worker_capacity`. -/
def releaseWorkerCapacity (t : DbTime) (w : WorkerId) : RepoTx Unit := do
  let _ ← updateWorker w (fun _ => true) (·.released t)
  pure ()

/-- The WHERE clause of a transition. -/
def transitionGuard (source : JobState) (evidence : TransitionEvidence)
    (lease : Option LeaseGuard) (t : DbTime) (r : JobRow) : Bool :=
  decide (r.state = source) &&
    (evidence.pendingOutcome.isNone || r.pendingOutcome.isNone ||
      decide (r.pendingOutcome = evidence.pendingOutcome)) &&
    lease.all fun g => r.heldBy g.workerId g.leaseId && r.leaseLiveAt t.statement

/-- The SET list of a transition: stored evidence is kept, a terminal target ends
the lease. -/
def JobRow.transitioned (target : JobState) (evidence : TransitionEvidence) (t : DbTime)
    (r : JobRow) : JobRow :=
  let ends := target.terminalOutcome.isSome
  { r with
    state := target
    pendingOutcome := evidence.pendingOutcome.or r.pendingOutcome
    artifactsFinalized := r.artifactsFinalized || evidence.artifactsFinalized
    cleanupCompleted := r.cleanupCompleted || evidence.cleanupCompleted
    outcome := target.terminalOutcome
    finishedAt := if ends then some t.now else r.finishedAt
    leaseId := if ends then none else r.leaseId
    leaseExpiresAt := if ends then none else r.leaseExpiresAt
    lastLeaseExtendedAt := if ends then none else r.lastLeaseExtendedAt }

/-- `transition_job_state`, over the release it performs (the capacity theorems
run it with one that reports a second release). -/
def transitionJobStateWith (release : WorkerId → RepoTx Unit) (j : JobId)
    (expectedFrom target : JobState) (evidence : TransitionEvidence) (lease : Option LeaseGuard)
    (eventPayload : List (String × EventValue)) (eventId : JobEventId) (t : DbTime) :
    RepoTx Job := do
  .ofExcept ((validateTransition expectedFrom target evidence).mapError .invalidTransition)
  let row ← updateJob j (transitionGuard expectedFrom evidence lease t)
    (·.transitioned target evidence t)
  let row ← .okOr row (.compareAndSwapLost "job" j.val)
  if target.isTerminal then
    match row.workerId with
    | some w => release w
    | none => pure ()
  let _ ← appendEvent eventId j ("job." ++ target.wire) (some target)
    (decide (expectedFrom ≠ target)) eventPayload t
  pure (row.intoJob j)

/-- `transition_job_state`. -/
def transitionJobState (j : JobId) (expectedFrom target : JobState)
    (evidence : TransitionEvidence) (lease : Option LeaseGuard)
    (eventPayload : List (String × EventValue)) (eventId : JobEventId) (t : DbTime) :
    RepoTx Job :=
  transitionJobStateWith (releaseWorkerCapacity t) j expectedFrom target evidence lease eventPayload
    eventId t

/-! ## Result -/

/-- `verify_artifact_ids`: `count(*)` counts each listed artifact once. -/
def verifyArtifactIds (j : JobId) (ids : List ArtifactId) : RepoTx Unit :=
  if ids.isEmpty then pure ()
  else do
    let count ← .read fun db => db.catalog.artifacts.count fun id job =>
      decide (job = j) && ids.contains id
    .require (decide (count = ids.length))
      (.validation "one or more result artifact IDs do not belong to the job")

/-- The WHERE clause of a result. -/
def resultGuard (result : JobResult) (t : DbTime) (r : JobRow) : Bool :=
  r.heldBy result.workerId result.leaseId && r.leaseLiveAt t.statement &&
    (r.pendingOutcome.isNone || decide (r.pendingOutcome = some result.outcome)) &&
    !r.state.isTerminal

/-- The SET list of a result. -/
def JobRow.withResult (result : JobResult) (r : JobRow) : JobRow :=
  { r with
    pendingOutcome := some result.outcome
    failure := result.error.or r.failure
    artifactsFinalized := r.artifactsFinalized || result.artifactsFinalized
    cleanupCompleted := r.cleanupCompleted || result.cleanupCompleted }

/-- `record_job_result`. -/
def recordJobResult (result : JobResult) (eventId : JobEventId) (t : DbTime) : RepoTx Job := do
  .require (!(result.cleanupCompleted && !result.artifactsFinalized))
    (.validation "cleanup completion requires finalized artifacts")
  .require (!(decide (result.outcome = .passed) && result.error.isSome))
    (.validation "a passed result cannot include an error")
  let current ← .okOr (← lockJob result.jobId) (.notFound "job" result.jobId.val)
  .require (current.heldBy result.workerId result.leaseId)
    (.compareAndSwapLost "job lease" result.jobId.val)
  .require (!current.state.isTerminal) (.conflict "cannot record a result for a terminal job")
  .require (!(result.cleanupCompleted && !(current.artifactsFinalized || result.artifactsFinalized)))
    (.validation "cleanup completion requires finalized artifacts")
  match current.pendingOutcome with
  | some existing =>
      .require (decide (existing = result.outcome))
        (.conflict ("job already has pending outcome " ++ existing.debug))
  | none => pure ()
  verifyArtifactIds result.jobId result.artifactIds
  -- the parameter of a column `jsonb` is refused before the UPDATE looks at a row
  .require (result.error.all fun failure => jsonbHolds failure.message)
    (.sqlx .untranslatableCharacter)
  let row ← updateJob result.jobId (resultGuard result t) (·.withResult result)
  let row ← .okOr row (.compareAndSwapLost "job result" result.jobId.val)
  let _ ← appendEvent eventId result.jobId "job.result_recorded" (some current.state) false
    [("outcome", .outcome result.outcome), ("completed_at", .instant result.completedAt),
      ("artifact_ids", .artifacts result.artifactIds)] t
  pure (row.intoJob result.jobId)

/-! ## Snapshot -/

/-- The lease columns as a guard; a lease without an owner does not decode. -/
def JobRow.lease (r : JobRow) : Except RepositoryError (Option LeaseGuard) :=
  match r.workerId, r.leaseId with
  | some w, some l => .ok (some ⟨w, l⟩)
  | none, none | some _, none => .ok none
  | none, some _ => .error (.decode "jobs.lease_id" "lease is present without an owning worker")

/-- `get_job_scheduling_snapshot`. -/
def getJobSchedulingSnapshot (j : JobId) : RepoTx (Option JobSchedulingSnapshot) := do
  match ← lockJob j with
  | none => pure none
  | some row => do
      let profile ← .okOr (← loadProfile row.runtimeProfileId)
        (.notFound "runtime profile" row.runtimeProfileId.val)
      let lease ← .ofExcept row.lease
      let deliveryAttempts ← .ofExcept (toU32 "jobs.delivery_attempts" row.deliveryAttempts)
      pure (some {
        job := row.intoJob j
        queued := ⟨j, row.projectId, profile.id, row.minIsolation, row.timeoutSeconds⟩
        runtimeProfile := profile
        lease := lease
        leaseExpiresAt := row.leaseExpiresAt
        lastLeaseExtendedAt := row.lastLeaseExtendedAt
        deliveryAttempts := deliveryAttempts
        pendingOutcome := row.pendingOutcome
        artifactsFinalized := row.artifactsFinalized
        cleanupCompleted := row.cleanupCompleted })

end RunAnywhere
