import RunAnywhere.Repository.Jobs

/-!
# Worker operations

`repository/src/workers.rs`: registration, heartbeats with their lease
extensions, administrative state changes and the capability matcher.
-/

namespace RunAnywhere

open Logic

structure HeartbeatReceipt where
  recordedAt : Time
  extended : List JobLeaseExtension
  cancelRequested : List JobLeaseExtension
  rejected : List JobLeaseExtension
  deriving DecidableEq

/-- `Duration::num_seconds`: whole seconds of a duration in microseconds. -/
def numSeconds (duration : Int) : Int := duration.tdiv 1000000

/-- `validate_runtimes`. -/
def validateRuntimes (runtimes : List RuntimeKind) : RepoTx Unit := do
  .require (!runtimes.isEmpty) (.validation "worker must advertise at least one runtime")
  .require (decide runtimes.Nodup) (.validation "worker runtimes must be unique")

/-- The row an INSERT stores; the other columns take their defaults. -/
def newWorkerRow (registration : WorkerRegistration) (t : DbTime) : WorkerRow where
  runtimes := registration.runtimes
  kvm := registration.kvm
  gpu := registration.gpu
  arch := registration.arch
  capacity := registration.capacity
  activeJobs := 0
  state := .online
  lastHeartbeatAt := t.now
  reportedLastSeenAt := none
  registeredAt := t.now
  updatedAt := t.now

/-- The SET list of a repeated registration. -/
def WorkerRow.registered (registration : WorkerRegistration) (t : DbTime) (r : WorkerRow) :
    WorkerRow :=
  { r with
    runtimes := registration.runtimes
    kvm := registration.kvm
    gpu := registration.gpu
    arch := registration.arch
    capacity := registration.capacity
    lastHeartbeatAt := t.now
    updatedAt := t.now }

/-- `upsert_worker`. -/
def upsertWorker (registration : WorkerRegistration) (t : DbTime) : RepoTx WorkerStatus := do
  validateRuntimes registration.runtimes
  match ← lockWorker registration.workerId with
  | none => do
      let row := newWorkerRow registration t
      insertWorker registration.workerId row
      pure (row.intoStatus registration.workerId)
  | some _ => do
      let updated ← updateWorker registration.workerId
        (fun r => decide (r.activeJobs ≤ registration.capacity)) (·.registered registration t)
      let row ← .okOr updated
        (.conflict "worker capacity cannot be lowered below its active reservations")
      pure (row.intoStatus registration.workerId)

/-- The SET list of a state change. -/
def WorkerRow.withState (state : WorkerState) (t : DbTime) (r : WorkerRow) : WorkerRow :=
  { r with state := state, updatedAt := t.now }

/-- `set_worker_state`. -/
def setWorkerState (w : WorkerId) (state : WorkerState) (t : DbTime) : RepoTx WorkerStatus := do
  let updated ← updateWorker w (fun _ => true) (·.withState state t)
  let row ← .okOr updated (.notFound "worker" w.val)
  pure (row.intoStatus w)

/-! ## Heartbeats -/

/-- The WHERE clause of a lease extension. -/
def extendGuard (w : WorkerId) (l : LeaseId) (recordedAt : Time) (r : JobRow) : Bool :=
  r.heldBy w l && r.leaseLiveAt recordedAt && r.pendingOutcome.isNone &&
    !(decide (r.state = .queued) || r.state.isTerminal)

/-- The SET list of a lease extension. -/
def JobRow.extended (recordedAt : Time) (leaseSeconds : Int) (r : JobRow) : JobRow :=
  { r with
    leaseExpiresAt := some (recordedAt + leaseSeconds * 1000000)
    lastLeaseExtendedAt := some recordedAt }

/-- The cancellation an unextended lease may be waiting for. -/
def cancelGuard (w : WorkerId) (l : LeaseId) (r : JobRow) : Bool :=
  r.heldBy w l && decide (r.pendingOutcome = some .cancelled) && !r.state.isTerminal

/-- What became of one requested extension. -/
inductive ExtensionOutcome
  | extended | cancelRequested | rejected
  deriving DecidableEq

/-- One requested extension: extend the lease, or find out why not. -/
def extendLease (w : WorkerId) (recordedAt : Time) (leaseSeconds : Int)
    (extension : JobLeaseExtension) : RepoTx ExtensionOutcome := do
  let updated ← updateJob extension.jobId (extendGuard w extension.leaseId recordedAt)
    (·.extended recordedAt leaseSeconds)
  if updated.isSome then pure .extended
  else do
    let cancellation ← .read fun db =>
      (db.job? extension.jobId).any (cancelGuard w extension.leaseId)
    pure (if cancellation then .cancelRequested else .rejected)

/-- The loop over the requested extensions, in request order. -/
def extendLeases (w : WorkerId) (recordedAt : Time) (leaseSeconds : Int) :
    List JobLeaseExtension → RepoTx HeartbeatReceipt
  | [] => pure ⟨recordedAt, [], [], []⟩
  | extension :: rest => do
      let outcome ← extendLease w recordedAt leaseSeconds extension
      let receipt ← extendLeases w recordedAt leaseSeconds rest
      pure (match outcome with
        | .extended => { receipt with extended := extension :: receipt.extended }
        | .cancelRequested =>
            { receipt with cancelRequested := extension :: receipt.cancelRequested }
        | .rejected => { receipt with rejected := extension :: receipt.rejected })

/-- The SET list of a heartbeat's worker row. -/
def WorkerRow.heartbeat (heartbeat : WorkerHeartbeat) (recordedAt : Time) (r : WorkerRow) :
    WorkerRow :=
  { r with
    runtimes := heartbeat.runtimes
    kvm := heartbeat.kvm
    gpu := heartbeat.gpu
    arch := heartbeat.arch
    capacity := heartbeat.capacity
    lastHeartbeatAt := recordedAt
    reportedLastSeenAt := some heartbeat.lastSeen
    updatedAt := recordedAt }

/-- `record_heartbeat`. -/
def recordHeartbeat (heartbeat : WorkerHeartbeat) (leaseTtl : Int) (t : DbTime) :
    RepoTx HeartbeatReceipt := do
  .require (decide (0 < numSeconds leaseTtl)) (.validation "lease TTL must be at least one second")
  .require (decide (heartbeat.activeJobs ≤ heartbeat.capacity))
    (.validation "heartbeat capacity must be at least active_jobs")
  validateRuntimes heartbeat.runtimes
  let worker ← .okOr (← lockWorker heartbeat.workerId) (.notFound "worker" heartbeat.workerId.val)
  .require (decide (worker.activeJobs ≤ heartbeat.capacity))
    (.conflict "reported capacity is below active reservations")
  let _ ← updateWorker heartbeat.workerId (fun _ => true) (·.heartbeat heartbeat t.clock)
  extendLeases heartbeat.workerId t.clock (numSeconds leaseTtl) heartbeat.leaseExtends

/-! ## Matching -/

/-- `abi_matches_host`. -/
def abiMatchesHost (abi : AndroidAbi) (host : HostArch) : Bool :=
  match abi, host with
  | .x86, .x86_64 | .x86_64, .x86_64 => true
  | .armeabiV7a, .aarch64 | .arm64V8a, .aarch64 => true
  | _, _ => false

/-- The WHERE clause of the matcher. -/
def matchGuard (heartbeatCutoff : Time) (runtime : RuntimeKind) (arch : HostArch)
    (needsKvm : Bool) (r : WorkerRow) : Bool :=
  decide (r.state = .online) && decide (r.activeJobs < r.capacity) &&
    decide (heartbeatCutoff ≤ r.lastHeartbeatAt) && r.runtimes.contains runtime &&
    decide (r.arch = arch) && (!needsKvm || r.kvm)

/-- `ORDER BY active_jobs / capacity, active_jobs, last_heartbeat_at DESC, id`, for
workers with spare capacity. -/
def matchOrder (a b : WorkerId × WorkerRow) : Prop :=
  let ratio := (a.2.activeJobs * b.2.capacity, b.2.activeJobs * a.2.capacity)
  ratio.1 < ratio.2 ∨ (ratio.1 = ratio.2 ∧
    (a.2.activeJobs < b.2.activeJobs ∨ (a.2.activeJobs = b.2.activeJobs ∧
      (b.2.lastHeartbeatAt < a.2.lastHeartbeatAt ∨
        (a.2.lastHeartbeatAt = b.2.lastHeartbeatAt ∧ a.1.val ≤ b.1.val)))))

instance : DecidableRel matchOrder := fun a b => by
  unfold matchOrder; infer_instance

/-- `find_workers_matching`. -/
def findWorkersMatching (profile : RuntimeProfile) (minimum : IsolationTier)
    (heartbeatCutoff : Time) (limit : Nat) : RepoTx (List WorkerStatus) := do
  .require profile.isValid (.validation
    "runtime kind BrowserNativeWasm is reserved and is not valid in Part 01 profiles")
  if !profile.isolationTier.satisfies minimum then pure []
  else if !abiMatchesHost profile.abi profile.hostArch then pure []
  else do
    let needsKvm := decide (profile.isolationTier = .vmIsolated) ||
      (decide (profile.runtimeKind = .androidEmulatorContainer) ||
        decide (profile.runtimeKind = .cuttlefish))
    checkedLimit limit
    .read fun db =>
      let ready := (db.workers.rows.map fun x => (x.1, x.2.val)).filter fun x =>
        matchGuard heartbeatCutoff profile.runtimeKind profile.hostArch needsKvm x.2
      ((ready.insertionSort matchOrder).take limit).map fun x => x.2.intoStatus x.1

end RunAnywhere
