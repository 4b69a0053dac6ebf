import RunAnywhere.Contracts.Worker
import RunAnywhere.Logic.Table

/-!
# Rows and their CHECK constraints

The tables of `migrations/` the job lifecycle lives in, one structure a row. The
primary key is the key of the table that holds the row and is not repeated in
it. `JobRow.Checks`, `WorkerRow.Checks` and `OutboxRow.Checks` are the CHECK
constraints the column types do not already express; `Db` stores only rows that
satisfy them, and a statement that would store another row fails.
-/

namespace RunAnywhere

open Logic

/-! ## Jobs -/

/-- Table `jobs`. -/
structure JobRow where
  projectId : ProjectId
  apkUploadId : UploadId
  testUploadId : Option UploadId
  runtimeProfileId : RuntimeProfileId
  workerId : Option WorkerId
  mode : JobMode
  minIsolation : IsolationTier
  automation : AutomationSpec
  requestedArtifacts : ArtifactSelection
  timeoutSeconds : DurationSeconds
  idempotencyKey : String
  state : JobState
  pendingOutcome : Option JobOutcome
  outcome : Option JobOutcome
  failure : Option FailureDetail
  artifactsFinalized : Bool
  cleanupCompleted : Bool
  leaseId : Option LeaseId
  leaseExpiresAt : Option Time
  lastLeaseExtendedAt : Option Time
  deliveryAttempts : Nat
  createdAt : Time
  startedAt : Option Time
  finishedAt : Option Time
  deriving DecidableEq

/-- `jobs_automation_valid`: a script reference is not blank and has no control character. -/
def JobRow.automationValid (r : JobRow) : Prop :=
  match r.automation with
  | .builtInSmoke => True
  | .appium scriptRef =>
      btrimEmpty scriptRef.val = false ∧ scriptRef.val.toList.any isControl = false

/-- The text has no U+0000, which `jsonb` does not hold. -/
def jsonbHolds (s : String) : Bool := s.toList.all (· ≠ Char.ofNat 0)

/-- `jobs_failure_valid`, of a column `jsonb`: a recorded failure has a message. -/
def JobRow.failureValid (r : JobRow) : Prop :=
  match r.failure with
  | none => True
  | some failure => jsonbHolds failure.message = true ∧ btrimEmpty failure.message = false

/-- `jobs_lease_consistent`: all three lease columns, with an owner and an
expiry after the last extension, or none of them. -/
def JobRow.leaseConsistent (r : JobRow) : Prop :=
  match r.leaseId, r.leaseExpiresAt, r.lastLeaseExtendedAt with
  | none, none, none => True
  | some _, some expiresAt, some extendedAt => r.workerId.isSome ∧ extendedAt < expiresAt
  | _, _, _ => False

/-- `jobs_terminal_state_consistent`. -/
def JobRow.terminalStateConsistent (r : JobRow) : Prop :=
  match r.state.terminalOutcome with
  | some outcome => r.pendingOutcome = some outcome ∧ r.outcome = some outcome
  | none => r.outcome = none ∧ r.finishedAt = none

/-- The CHECK constraints of table `jobs`. -/
structure JobRow.Checks (r : JobRow) : Prop where
  automation : r.automationValid
  idempotencyKey : btrimEmpty r.idempotencyKey = false
  failure : r.failureValid
  distinctUploads : r.testUploadId ≠ some r.apkUploadId
  lease : r.leaseConsistent
  leaseHasWorker : r.leaseId.isSome → r.workerId.isSome
  queuedUnassigned : r.state = .queued → r.workerId = none ∧ r.leaseId = none
  cleanupAfterArtifacts : r.cleanupCompleted = true → r.artifactsFinalized = true
  terminalState : r.terminalStateConsistent
  terminalEvidence : r.state.isTerminal = true →
    r.artifactsFinalized = true ∧ r.cleanupCompleted = true ∧ r.finishedAt.isSome
  startedOrder : ∀ t ∈ r.startedAt, r.createdAt ≤ t
  finishedOrder : ∀ t ∈ r.finishedAt, r.createdAt ≤ t

instance (r : JobRow) : Decidable r.automationValid := by
  unfold JobRow.automationValid; split <;> infer_instance

instance (r : JobRow) : Decidable r.failureValid := by
  unfold JobRow.failureValid; split <;> infer_instance

instance (r : JobRow) : Decidable r.leaseConsistent := by
  unfold JobRow.leaseConsistent; split <;> infer_instance

instance (r : JobRow) : Decidable r.terminalStateConsistent := by
  unfold JobRow.terminalStateConsistent; split <;> infer_instance

instance : DecidablePred JobRow.Checks := fun r =>
  decidable_of_iff
    (r.automationValid ∧ btrimEmpty r.idempotencyKey = false ∧ r.failureValid ∧
      r.testUploadId ≠ some r.apkUploadId ∧ r.leaseConsistent ∧
      (r.leaseId.isSome → r.workerId.isSome) ∧
      (r.state = .queued → r.workerId = none ∧ r.leaseId = none) ∧
      (r.cleanupCompleted = true → r.artifactsFinalized = true) ∧ r.terminalStateConsistent ∧
      (r.state.isTerminal = true →
        r.artifactsFinalized = true ∧ r.cleanupCompleted = true ∧ r.finishedAt.isSome) ∧
      (∀ t ∈ r.startedAt, r.createdAt ≤ t) ∧ (∀ t ∈ r.finishedAt, r.createdAt ≤ t))
    ⟨fun ⟨h1, h2, h3, h4, h5, h6, h7, h8, h9, h10, h11, h12⟩ =>
      ⟨h1, h2, h3, h4, h5, h6, h7, h8, h9, h10, h11, h12⟩,
     fun ⟨h1, h2, h3, h4, h5, h6, h7, h8, h9, h10, h11, h12⟩ =>
      ⟨h1, h2, h3, h4, h5, h6, h7, h8, h9, h10, h11, h12⟩⟩

/-- `JobRow::into_job`. -/
def JobRow.intoJob (id : JobId) (r : JobRow) : Job where
  id := id
  projectId := r.projectId
  apkUploadId := r.apkUploadId
  testUploadId := r.testUploadId
  runtimeProfile := r.runtimeProfileId
  mode := r.mode
  minIsolation := r.minIsolation
  automation := r.automation
  artifacts := r.requestedArtifacts
  timeoutSeconds := r.timeoutSeconds
  state := r.state
  outcome := r.outcome
  failure := r.failure
  workerId := r.workerId
  createdAt := r.createdAt
  startedAt := r.startedAt
  finishedAt := r.finishedAt

/-- `JobRow::to_summary`. -/
def JobRow.toSummary (id : JobId) (r : JobRow) : JobSummary where
  id := id
  projectId := r.projectId
  runtimeProfile := r.runtimeProfileId
  mode := r.mode
  state := r.state
  outcome := r.outcome
  createdAt := r.createdAt
  startedAt := r.startedAt
  finishedAt := r.finishedAt

/-- The canonical queue payload of a job. -/
def JobRow.queued (id : JobId) (r : JobRow) : JobQueued where
  jobId := id
  projectId := r.projectId
  runtimeProfileId := r.runtimeProfileId
  minIsolation := r.minIsolation
  timeoutSeconds := r.timeoutSeconds

/-- `(worker_id, lease_id) = (w, l)`. -/
def JobRow.heldBy (r : JobRow) (w : WorkerId) (l : LeaseId) : Bool :=
  decide (r.workerId = some w) && decide (r.leaseId = some l)

/-- `lease_expires_at > t`, false when the column is NULL. -/
def JobRow.leaseLiveAt (r : JobRow) (t : Time) : Bool := r.leaseExpiresAt.any fun e => decide (t < e)

theorem JobRow.heldBy_iff {r : JobRow} {w : WorkerId} {l : LeaseId} :
    r.heldBy w l = true ↔ r.workerId = some w ∧ r.leaseId = some l := by
  simp [heldBy]

theorem JobRow.leaseLiveAt_iff {r : JobRow} {t : Time} :
    r.leaseLiveAt t = true ↔ ∃ e, r.leaseExpiresAt = some e ∧ t < e := by
  cases h : r.leaseExpiresAt <;> simp [leaseLiveAt, h]

/-! ## Workers -/

/-- Table `workers`. -/
structure WorkerRow where
  runtimes : List RuntimeKind
  kvm : Bool
  gpu : Bool
  arch : HostArch
  capacity : Nat
  activeJobs : Nat
  state : WorkerState
  lastHeartbeatAt : Time
  reportedLastSeenAt : Option Time
  registeredAt : Time
  updatedAt : Time
  deriving DecidableEq

/-- The CHECK constraints of table `workers`. -/
structure WorkerRow.Checks (r : WorkerRow) : Prop where
  runtimes : r.runtimes ≠ []
  capacityRange : r.capacity ≤ 4294967295
  activeJobsRange : r.activeJobs ≤ 4294967295
  withinCapacity : r.activeJobs ≤ r.capacity
  updatedOrder : r.registeredAt ≤ r.updatedAt

instance : DecidablePred WorkerRow.Checks := fun r =>
  decidable_of_iff
    (r.runtimes ≠ [] ∧ r.capacity ≤ 4294967295 ∧ r.activeJobs ≤ 4294967295 ∧
      r.activeJobs ≤ r.capacity ∧ r.registeredAt ≤ r.updatedAt)
    ⟨fun ⟨h1, h2, h3, h4, h5⟩ => ⟨h1, h2, h3, h4, h5⟩,
     fun ⟨h1, h2, h3, h4, h5⟩ => ⟨h1, h2, h3, h4, h5⟩⟩

/-- `WorkerRow::into_status`. -/
def WorkerRow.intoStatus (id : WorkerId) (r : WorkerRow) : WorkerStatus where
  workerId := id
  runtimes := r.runtimes
  kvm := r.kvm
  gpu := r.gpu
  arch := r.arch
  capacity := r.capacity
  activeJobs := r.activeJobs
  state := r.state
  lastSeen := r.lastHeartbeatAt

/-! ## Outbox -/

/-- Internal payload for one durable webhook recipient. -/
structure WebhookOutboxPayload where
  webhookId : WebhookId
  url : String
  event : JobEvent
  deriving DecidableEq

/-- The payloads the three kinds of producers store. -/
inductive OutboxPayload
  | jobQueued (queued : JobQueued)
  | jobDeadLetter (deadLetter : JobDeadLetter)
  | webhook (delivery : WebhookOutboxPayload)
  deriving DecidableEq

/-- Table `outbox_messages`, keyed by its unique `event_key`. -/
structure OutboxRow where
  id : Nat
  subject : String
  payload : OutboxPayload
  traceHeaders : List (String × String)
  availableAt : Time
  attempts : Nat
  lockedBy : Option String
  lockedAt : Option Time
  publishedAt : Option Time
  lastError : Option String
  createdAt : Time
  deriving DecidableEq

/-- The CHECK constraints of table `outbox_messages`. -/
structure OutboxRow.Checks (r : OutboxRow) : Prop where
  subject : btrimEmpty r.subject = false
  lockConsistent : r.lockedBy.isSome = r.lockedAt.isSome
  lockedByNonempty : ∀ s ∈ r.lockedBy, btrimEmpty s = false
  lastErrorNonempty : ∀ s ∈ r.lastError, btrimEmpty s = false
  publishOrder : ∀ t ∈ r.publishedAt, r.createdAt ≤ t

instance : DecidablePred OutboxRow.Checks := fun r =>
  decidable_of_iff
    (btrimEmpty r.subject = false ∧ r.lockedBy.isSome = r.lockedAt.isSome ∧
      (∀ s ∈ r.lockedBy, btrimEmpty s = false) ∧ (∀ s ∈ r.lastError, btrimEmpty s = false) ∧
      (∀ t ∈ r.publishedAt, r.createdAt ≤ t))
    ⟨fun ⟨h1, h2, h3, h4, h5⟩ => ⟨h1, h2, h3, h4, h5⟩,
     fun ⟨h1, h2, h3, h4, h5⟩ => ⟨h1, h2, h3, h4, h5⟩⟩

/-! ## Catalogue -/

/-- Table `projects`, as far as the quotas go. -/
structure ProjectRow where
  maxConcurrentJobs : Nat
  maxOutstandingJobs : Nat
  deriving DecidableEq

/-- Table `uploads`, as far as ownership goes. -/
structure UploadRow where
  projectId : ProjectId
  kind : UploadKind
  deriving DecidableEq

/-- Table `runtime_profiles`. -/
structure RuntimeProfileRow where
  androidApi : Nat
  deviceProfile : String
  abi : AndroidAbi
  hostArch : HostArch
  runtimeKind : RuntimeKind
  imageRef : String
  isolationTier : IsolationTier
  deriving DecidableEq

/-- `TryFrom<RuntimeProfileRow>`, before `validate`. -/
def RuntimeProfileRow.intoProfile (id : RuntimeProfileId) (r : RuntimeProfileRow) :
    RuntimeProfile where
  id := id
  androidApi := r.androidApi
  deviceProfile := r.deviceProfile
  abi := r.abi
  hostArch := r.hostArch
  runtimeKind := r.runtimeKind
  imageRef := r.imageRef
  isolationTier := r.isolationTier

end RunAnywhere
