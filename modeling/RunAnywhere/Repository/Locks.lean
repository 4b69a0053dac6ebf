import RunAnywhere.Repository.Run

/-!
# Transactions between their locks

Elsewhere a call is one step. Two calls decide on rows they do not lock: a create looks
its key up and counts the jobs of its project, a claim counts the leased jobs. Here
these two are taken apart at those reads, and other calls commit in between:

* **locks** — a create holds the advisory lock of its key from the lookup on and its
  project's row from the count on; a claim holds the job's row and the project's row
  from its count on; nobody else changes a locked row or takes a held lock;
* **split** — `createJobWithOutbox_split`, `claimJobWithOptions_split`: the pieces make
  up the call;
* **refinement** — what a create or a claim found out is still true when it writes, so
  every call that ends is one step of `repository` (`server_step`), and a run of the
  server is a run of the repository (`server_run`).
-/

namespace RunAnywhere

open Logic

/-! ## The pieces of a create -/

/-- The key check and the replay lookup, under the advisory lock of the key. -/
def lookupKey (p : ProjectId) (idempotencyKey : String) : RepoTx (Option (JobId × JobRow)) := do
  validateIdempotencyKey idempotencyKey
  .read fun db => db.jobByKey? p idempotencyKey

/-- The count of the project's outstanding jobs, under the lock on its row. -/
def outstandingQuota (p : ProjectId) : RepoTx Unit := do
  let project ← lockProject p
  let outstanding ← .read fun db => db.outstandingJobs p
  requireQuota p .outstandingJobs "project outstanding jobs" "projects.max_outstanding_jobs"
    outstanding project.maxOutstandingJobs

/-- The checks of the request's body. -/
def admitBody (request : CreateJobRequest) : RepoTx RuntimeProfile := do
  .require (decide (request.testUploadId ≠ some request.apkUploadId))
    (.validation "APK and test uploads must be different")
  requireUploadKind request.projectId request.apkUploadId .apk
  match request.testUploadId with
  | some testUploadId => requireUploadKind request.projectId testUploadId .test
  | none => pure ()
  let profile ← .okOr (← loadProfile request.runtimeProfile)
    (.notFound "runtime profile" request.runtimeProfile.val)
  .require (profile.isolationTier.satisfies request.minIsolation)
    (.validation ("runtime profile " ++ profile.id.val ++ " does not satisfy "
      ++ request.minIsolation.debug ++ " isolation"))
  pure profile

/-- The body's checks and the writes. -/
def insertCreated (id : JobId) (eventId : JobEventId) (request : CreateJobRequest)
    (idempotencyKey : String) (traceHeaders : List (String × String)) (t : DbTime) :
    RepoTx CreatedJob := do
  let profile ← admitBody request
  let _ ← .ofExcept (checkedI64 "timeout_seconds" request.timeoutSeconds.seconds)
  let row := newJobRow request idempotencyKey t
  insertJob id row
  let event ← appendEvent eventId id "job.queued" (some .queued) true [] t
  let queued : JobQueued :=
    ⟨id, request.projectId, profile.id, request.minIsolation, request.timeoutSeconds⟩
  insertJobQueuedOutbox queued traceHeaders t
  pure ⟨row.intoJob id, true, some event⟩

theorem admitJob_split (request : CreateJobRequest) :
    admitJob request = (do outstandingQuota request.projectId; admitBody request) := by
  simp only [outstandingQuota, admitBody, bind_assoc]
  rfl

private theorem admitJob_bind {α : Type} (request : CreateJobRequest)
    (f : RuntimeProfile → RepoTx α) :
    admitJob request >>= f =
      outstandingQuota request.projectId >>= fun _ => admitBody request >>= f := by
  rw [admitJob_split, bind_assoc]

theorem createJobWithOutbox_split (id : JobId) (eventId : JobEventId) (request : CreateJobRequest)
    (key : String) (headers : List (String × String)) (t : DbTime) :
    createJobWithOutbox id eventId request key headers t = (do
      match ← lookupKey request.projectId key with
      | some (existing, row) => pure ⟨row.intoJob existing, false, none⟩
      | none => do
          outstandingQuota request.projectId
          insertCreated id eventId request key headers t) := by
  simp only [lookupKey, insertCreated, bind_assoc, ← admitJob_bind]
  rfl

/-! ## The pieces of a claim -/

/-- The count of the project's leased jobs, under the lock on its row. -/
def concurrentQuota (p : ProjectId) : RepoTx Unit := do
  let project ← lockProject p
  let active ← .read fun db => db.activeProjectJobs p
  requireQuota p .concurrentJobs "project active jobs" "projects.max_concurrent_jobs" active
    project.maxConcurrentJobs

/-- The checks of a claim up to the count, under the lock on the job's row. -/
def claimQuota (j : JobId) (options : ClaimJobOptions) : RepoTx JobRow := do
  .require (decide (0 < options.workerStaleAfter))
    (.validation "worker freshness duration must be positive")
  let job ← .okOr (← lockJob j) (.notFound "job" j.val)
  .require (decide (job.state = .queued) && job.leaseId.isNone && job.workerId.isNone)
    (.compareAndSwapLost "job" j.val)
  concurrentQuota job.projectId
  pure job

/-- The checks of the worker. -/
def admitWorker (job : JobRow) (w : WorkerId) (leaseExpiresAt : Time) (options : ClaimJobOptions)
    (t : DbTime) : RepoTx RuntimeProfile := do
  let worker ← .okOr (← lockWorker w) (.notFound "worker" w.val)
  let profile ← .okOr (← loadProfile job.runtimeProfileId)
    (.notFound "runtime profile" job.runtimeProfileId.val)
  .require (decide (t.clock < leaseExpiresAt))
    (.validation "lease expiry must be later than database time")
  validateWorkerMatch worker profile job.minIsolation t.clock options.workerStaleAfter
  pure profile

/-- The checks of the worker and the writes. -/
def leaseClaimed (job : JobRow) (j : JobId) (w : WorkerId) (l : LeaseId) (leaseExpiresAt : Time)
    (options : ClaimJobOptions) (eventId : JobEventId) (t : DbTime) : RepoTx JobClaim := do
  let profile ← admitWorker job w leaseExpiresAt options t
  let reserved ← updateWorker w
    (fun r => decide (r.state = .online) && decide (r.activeJobs < r.capacity)) (·.reserved t)
  .require reserved.isSome (.compareAndSwapLost "worker capacity" w.val)
  let claimed ← updateJob j
    (fun r => decide (r.state = .queued) && r.workerId.isNone && r.leaseId.isNone)
    (·.claimed w l leaseExpiresAt t.clock)
  let row ← .okOr claimed (.compareAndSwapLost "job" j.val)
  let _ ← appendEvent eventId j "job.claimed" (some .claimed) true
    [("worker_id", .text w.val), ("lease_id", .text l.val)] t
  pure {
    jobId := j, projectId := row.projectId, workerId := w, leaseId := l,
    apkUploadId := row.apkUploadId, testUploadId := row.testUploadId, runtimeProfile := profile,
    mode := row.mode, minIsolation := row.minIsolation, automation := row.automation,
    artifacts := row.requestedArtifacts, timeoutSeconds := row.timeoutSeconds,
    claimedAt := t.clock, leaseExpiresAt := leaseExpiresAt }

theorem claimJobWithOptions_split (j : JobId) (w : WorkerId) (l : LeaseId) (expires : Time)
    (options : ClaimJobOptions) (eventId : JobEventId) (t : DbTime) :
    claimJobWithOptions j w l expires options eventId t = (do
      let job ← claimQuota j options
      leaseClaimed job j w l expires options eventId t) := by
  simp only [claimJobWithOptions, admitClaim, claimQuota, concurrentQuota, leaseClaimed, admitWorker,
    bind_assoc, pure_bind]

/-! ## What others do to what was read -/

/-- A change of a stored row keeps its project and its key, and starts from a live row. -/
theorem RowChange.identity {op : Op} {t : DbTime} {j : JobId} {old new : JobRow}
    (h : RowChange op t j (some old) new) : new.projectId = old.projectId ∧
      new.idempotencyKey = old.idempotencyKey ∧ old.state.isTerminal = false := by
  cases h with
  | cancel hlive => exact ⟨rfl, rfl, hlive⟩
  | claim hq => exact ⟨rfl, rfl, by rw [hq]; rfl⟩
  | transition hval hguard =>
      refine ⟨rfl, rfl, ?_⟩
      simp only [transitionGuard, Bool.and_eq_true, decide_eq_true_eq] at hguard
      rw [hguard.1.1]
      exact (validateTransition_edge hval).source_live
  | result hguard =>
      simp only [resultGuard, Bool.and_eq_true, Bool.not_eq_true'] at hguard
      exact ⟨rfl, rfl, hguard.2⟩
  | heartbeat _ _ hguard => exact ⟨rfl, rfl, (extendGuard_iff.mp hguard).2.2.2.2.2⟩
  | @recover stale maxDeliver _ _ _ hfence =>
      cases recoveryKind stale maxDeliver old <;> exact ⟨rfl, rfl, hfence.live⟩

/-- The row counts against the quota of outstanding jobs of `p`. -/
def JobRow.outstandingOf (p : ProjectId) (row : JobRow) : Bool :=
  decide (row.projectId = p) && !row.state.isTerminal

/-- The row counts against the quota of concurrent jobs of `p`. -/
def JobRow.activeOf (p : ProjectId) (row : JobRow) : Bool :=
  decide (row.projectId = p) && row.leaseId.isSome && !row.state.isTerminal

theorem JobRow.outstandingOf_iff {p : ProjectId} {row : JobRow} :
    row.outstandingOf p = true ↔ row.projectId = p ∧ row.state.isTerminal = false := by
  simp [outstandingOf]

theorem JobRow.activeOf_iff {p : ProjectId} {row : JobRow} : row.activeOf p = true ↔
    row.projectId = p ∧ row.leaseId.isSome = true ∧ row.state.isTerminal = false := by
  simp [activeOf, and_assoc]

theorem Db.outstandingJobs_eq (db : Db) (p : ProjectId) :
    db.outstandingJobs p = Table.countRows db.jobs fun _ row => row.outstandingOf p := rfl

theorem Db.activeProjectJobs_eq (db : Db) (p : ProjectId) :
    db.activeProjectJobs p = Table.countRows db.jobs fun _ row => row.activeOf p := rfl

/-- A change that is not a create adds no outstanding job. -/
theorem RowChange.outstandingOf {op : Op} {t : DbTime} {j : JobId} {old new : JobRow}
    (h : RowChange op t j (some old) new) {p : ProjectId} (hn : new.outstandingOf p = true) :
    old.outstandingOf p = true := by
  obtain ⟨hp, _⟩ := JobRow.outstandingOf_iff.mp hn
  obtain ⟨hproject, _, hlive⟩ := h.identity
  exact JobRow.outstandingOf_iff.mpr ⟨hproject ▸ hp, hlive⟩

/-- A change that adds a leased job is a claim of it. -/
theorem RowChange.activeOf {op : Op} {t : DbTime} {j : JobId} {old new : JobRow}
    (h : RowChange op t j (some old) new) {p : ProjectId} (hn : new.activeOf p = true) :
    old.activeOf p = true ∨
      ∃ w l expires options eventId, op = .claimJobWithOptions j w l expires options eventId := by
  obtain ⟨hp, hl, hnew⟩ := JobRow.activeOf_iff.mp hn
  obtain ⟨hproject, _, hlive⟩ := h.identity
  rw [hproject] at hp
  cases h with
  | claim => exact Or.inr ⟨_, _, _, _, _, rfl⟩
  | @transition _ _ target _ _ _ _ _ _ _ _ =>
      -- a live target keeps the lease
      have hnone : target.terminalOutcome = none := (JobState.terminalOutcome_eq_none _).mpr hnew
      have hl' : (if target.terminalOutcome.isSome then none else old.leaseId).isSome = true := hl
      rw [hnone] at hl'
      exact Or.inl (JobRow.activeOf_iff.mpr ⟨hp, hl', hlive⟩)
  | @recover stale maxDeliver _ _ _ _ =>
      have hnone : (old.recovered (recoveryKind stale maxDeliver old)).leaseId = none := by
        cases recoveryKind stale maxDeliver old <;> rfl
      rw [hnone] at hl
      cases hl
  | cancel | result | heartbeat => exact Or.inl (JobRow.activeOf_iff.mpr ⟨hp, hl, hlive⟩)

/-- What a transaction locks: the key of a create, the row of a project, the row of a
job. -/
inductive Lock
  | key (p : ProjectId) (idempotencyKey : String)
  | project (p : ProjectId)
  | job (j : JobId)
  deriving DecidableEq

/-- The locks under which a create or a claim reads what it does not write. -/
def Op.locks (db : Db) : Op → List Lock
  | .createJobWithOutbox _ _ request key _ => [.key request.projectId key, .project request.projectId]
  | .claimJobWithOptions j _ _ _ _ _ =>
      match db.job? j with
      | some row => [.job j, .project row.projectId]
      | none => []
  | _ => []

/-- A stored row of a create carries the key of its call. -/
theorem RowChange.created {op : Op} {t : DbTime} {j : JobId} {new : JobRow}
    (h : RowChange op t j none new) (db : Db) :
    .key new.projectId new.idempotencyKey ∈ op.locks db := by
  cases h with
  | create => simp [Op.locks, newJobRow]

/-- **Lookup.** A key without a job stays so under calls that do not lock it. -/
theorem Op.jobByKey? {op : Op} {t : DbTime} {db db' : Db} {out : op.Out}
    (h : (op.tx t).Commits db out db') {p : ProjectId} {key : String}
    (hnone : db.jobByKey? p key = none) (hop : .key p key ∉ op.locks db) :
    db'.jobByKey? p key = none := by
  have hrows : ∀ j row, db.job? j = some row → ¬ (row.projectId = p ∧ row.idempotencyKey = key) := by
    intro j row hrow hk
    simp only [Db.jobByKey?, Option.map_eq_none_iff, List.find?_eq_none] at hnone
    unfold Db.job? Table.row? at hrow
    obtain ⟨r, hr, rfl⟩ := Option.map_eq_some_iff.mp hrow
    have hmem := (Table.mem_rows_iff db.jobs j r).mpr hr
    exact hnone (j, r) hmem (by simp [hk.1, hk.2])
  simp only [Db.jobByKey?, Option.map_eq_none_iff, List.find?_eq_none]
  rintro ⟨j, row⟩ hmem hk
  simp only [Bool.and_eq_true, decide_eq_true_eq] at hk
  have hrow : db'.job? j = some row.val := by
    unfold Db.job? Table.row?
    rw [(Table.mem_rows_iff _ _ _).mp hmem]
    rfl
  rcases Op.rows h j with ⟨hsame, _⟩ | ⟨new, hnew, hchange⟩
  · exact hrows j row.val (hsame ▸ hrow) hk
  · obtain rfl := Option.some.inj (hnew.symm.trans hrow)
    cases hold : db.job? j with
    | none =>
        rw [hold] at hchange
        have hlock := hchange.created db
        rw [hk.1, hk.2] at hlock
        exact hop hlock
    | some old =>
        rw [hold] at hchange
        obtain ⟨hp, hkey, _⟩ := hchange.identity
        exact hrows j old hold ⟨hp ▸ hk.1, hkey ▸ hk.2⟩

/-- The call creates a job of project `p`. -/
def Op.Creates (p : ProjectId) (op : Op) : Prop :=
  ∃ id eventId request key headers, op = .createJobWithOutbox id eventId request key headers ∧
    request.projectId = p

/-- The call claims a job of project `p`. -/
def Op.Claims (db : Db) (p : ProjectId) (op : Op) : Prop :=
  ∃ j w l expires options eventId row,
    op = .claimJobWithOptions j w l expires options eventId ∧ db.job? j = some row ∧
      row.projectId = p

theorem Op.Creates.locks {p : ProjectId} {op : Op} (h : op.Creates p) (db : Db) :
    .project p ∈ op.locks db := by
  obtain ⟨_, _, _, _, _, rfl, rfl⟩ := h
  simp [Op.locks]

theorem Op.Claims.locks {p : ProjectId} {op : Op} {db : Db} (h : op.Claims db p) :
    .project p ∈ op.locks db := by
  obtain ⟨_, _, _, _, _, _, _, rfl, hrow, rfl⟩ := h
  simp [Op.locks, hrow]

/-- **Outstanding jobs.** Only the create of a job of the project adds one. -/
theorem Op.outstandingJobs_le {op : Op} {t : DbTime} {db db' : Db} {out : op.Out}
    (h : (op.tx t).Commits db out db') {p : ProjectId} (hop : ¬ op.Creates p) :
    db'.outstandingJobs p ≤ db.outstandingJobs p := by
  rw [Db.outstandingJobs_eq, Db.outstandingJobs_eq]
  refine Table.countRows_le fun j hj => ?_
  obtain ⟨row, hrow, hp⟩ := Option.any_eq_true _ _ |>.mp hj
  have hrow' : db'.job? j = some row := hrow
  show (db.job? j).any (·.outstandingOf p) = true
  rcases Op.rows h j with ⟨hsame, _⟩ | ⟨new, hnew, hchange⟩
  · rw [← hsame, hrow']
    exact hp
  · obtain rfl := Option.some.inj (hnew.symm.trans hrow')
    cases hold : db.job? j with
    | none =>
        rw [hold] at hchange
        cases hchange
        exact absurd ⟨_, _, _, _, _, rfl, (JobRow.outstandingOf_iff.mp hp).1⟩ hop
    | some old =>
        rw [hold] at hchange
        exact hchange.outstandingOf hp

/-- **Leased jobs.** Only the claim of a job of the project adds one. -/
theorem Op.activeProjectJobs_le {op : Op} {t : DbTime} {db db' : Db} {out : op.Out}
    (h : (op.tx t).Commits db out db') {p : ProjectId} (hop : ¬ op.Claims db p) :
    db'.activeProjectJobs p ≤ db.activeProjectJobs p := by
  rw [Db.activeProjectJobs_eq, Db.activeProjectJobs_eq]
  refine Table.countRows_le fun j hj => ?_
  obtain ⟨row, hrow, hp⟩ := Option.any_eq_true _ _ |>.mp hj
  have hrow' : db'.job? j = some row := hrow
  show (db.job? j).any (·.activeOf p) = true
  rcases Op.rows h j with ⟨hsame, _⟩ | ⟨new, hnew, hchange⟩
  · rw [← hsame, hrow']
    exact hp
  · obtain rfl := Option.some.inj (hnew.symm.trans hrow')
    cases hold : db.job? j with
    | none =>
        -- a new row has no lease
        rw [hold] at hchange
        cases hchange
        exact absurd (JobRow.activeOf_iff.mp hp).2.1 Bool.false_ne_true
    | some old =>
        rw [hold] at hchange
        rcases hchange.activeOf hp with hold' | ⟨w, l, expires, options, eventId, rfl⟩
        · exact hold'
        · have hproject := hchange.identity.1.symm.trans (JobRow.activeOf_iff.mp hp).1
          exact absurd ⟨_, _, _, _, _, _, _, rfl, hold, hproject⟩ hop

/-! ## The server -/

/-- A call of `create_job_with_outbox`. -/
structure CreateCall where
  id : JobId
  eventId : JobEventId
  request : CreateJobRequest
  idempotencyKey : String
  traceHeaders : List (String × String)
  time : DbTime

def CreateCall.op (c : CreateCall) : Op :=
  .createJobWithOutbox c.id c.eventId c.request c.idempotencyKey c.traceHeaders

/-- A call of `claim_job_with_options`. -/
structure ClaimCall where
  jobId : JobId
  workerId : WorkerId
  leaseId : LeaseId
  leaseExpiresAt : Time
  options : ClaimJobOptions
  eventId : JobEventId
  time : DbTime

def ClaimCall.op (c : ClaimCall) : Op :=
  .claimJobWithOptions c.jobId c.workerId c.leaseId c.leaseExpiresAt c.options c.eventId

/-- An open transaction, at the point it has come to. -/
inductive Session
  /-- a create that found no job under its key -/
  | keyed (c : CreateCall)
  /-- a create below its quota -/
  | counted (c : CreateCall)
  /-- a claim below its quota, with the row it read -/
  | claiming (c : ClaimCall) (job : JobRow)

/-- The locks a session holds until it ends. -/
def Session.locks : Session → List Lock
  | .keyed c => [.key c.request.projectId c.idempotencyKey]
  | .counted c => [.key c.request.projectId c.idempotencyKey, .project c.request.projectId]
  | .claiming c job => [.job c.jobId, .project job.projectId]

/-- A step leaves what the lock protects as it was. -/
def Lock.Kept (db db' : Db) : Lock → Prop
  | .key _ _ => True
  | .project p => db'.catalog.projects.get? p = db.catalog.projects.get? p
  | .job j => db'.job? j = db.job? j

/-- The committed database and the open transactions. -/
structure Server where
  db : Db
  sessions : List Session

/-- The sessions hold lock `l`. -/
def Held (sessions : List Session) (l : Lock) : Prop := ∃ x ∈ sessions, l ∈ x.locks

/-- A write leaves what the other sessions have locked. -/
def Respects (others : List Session) (db db' : Db) : Prop := ∀ l, Held others l → l.Kept db db'

/-- A call that is one step also here. -/
def Op.isWhole : Op → Bool
  | .createJobWithOutbox _ _ _ _ _ | .claimJobWithOptions _ _ _ _ _ _ => false
  | _ => true

/-- One step of the server; the label is the call that ended in it, if one did. -/
inductive Server.Step : Server → Option Call → Server → Prop
  | call {s : Server} {op : Op} {t : DbTime} {answer : Except RepositoryError op.Out} {db' : Db} :
      op.isWhole = true → (op.tx t).exec s.db = (answer, db') → Respects s.sessions s.db db' →
      Step s (some ⟨op, t, answer⟩) ⟨db', s.sessions⟩
  /-- a create finds nothing under its key -/
  | lookup {s : Server} {c : CreateCall} :
      ¬ Held s.sessions (.key c.request.projectId c.idempotencyKey) →
      (lookupKey c.request.projectId c.idempotencyKey).Commits s.db none s.db →
      Step s none ⟨s.db, .keyed c :: s.sessions⟩
  /-- a create finds the winner of its key, and answers with it -/
  | replay {s : Server} {c : CreateCall} {existing : JobId} {row : JobRow} :
      ¬ Held s.sessions (.key c.request.projectId c.idempotencyKey) →
      (lookupKey c.request.projectId c.idempotencyKey).Commits s.db (some (existing, row)) s.db →
      Step s (some ⟨c.op, c.time, .ok ⟨row.intoJob existing, false, none⟩⟩) s
  /-- a create with an invalid key -/
  | invalidKey {s : Server} {c : CreateCall} {e : RepositoryError} :
      lookupKey c.request.projectId c.idempotencyKey s.db = .error e →
      Step s (some ⟨c.op, c.time, .error e⟩) s
  /-- a create is below its quota -/
  | count {s : Server} {c : CreateCall} {before after : List Session} :
      s.sessions = before ++ .keyed c :: after →
      ¬ Held s.sessions (.project c.request.projectId) →
      (outstandingQuota c.request.projectId).Commits s.db () s.db →
      Step s none ⟨s.db, before ++ .counted c :: after⟩
  /-- a create meets its quota -/
  | full {s : Server} {c : CreateCall} {before after : List Session} {e : RepositoryError} :
      s.sessions = before ++ .keyed c :: after →
      ¬ Held s.sessions (.project c.request.projectId) →
      outstandingQuota c.request.projectId s.db = .error e →
      Step s (some ⟨c.op, c.time, .error e⟩) ⟨s.db, before ++ after⟩
  /-- a create writes, or fails in a later check -/
  | insert {s : Server} {c : CreateCall} {before after : List Session}
      {answer : Except RepositoryError CreatedJob} {db' : Db} :
      s.sessions = before ++ .counted c :: after →
      (insertCreated c.id c.eventId c.request c.idempotencyKey c.traceHeaders c.time).exec s.db =
        (answer, db') →
      Respects (before ++ after) s.db db' →
      Step s (some ⟨c.op, c.time, answer⟩) ⟨db', before ++ after⟩
  /-- a claim is below its quota -/
  | room {s : Server} {c : ClaimCall} {job : JobRow} :
      ¬ Held s.sessions (.job c.jobId) → ¬ Held s.sessions (.project job.projectId) →
      (claimQuota c.jobId c.options).Commits s.db job s.db →
      Step s none ⟨s.db, .claiming c job :: s.sessions⟩
  /-- a claim is refused up to its quota -/
  | refuse {s : Server} {c : ClaimCall} {e : RepositoryError} :
      claimQuota c.jobId c.options s.db = .error e → Step s (some ⟨c.op, c.time, .error e⟩) s
  /-- a claim writes, or fails in a later check -/
  | lease {s : Server} {c : ClaimCall} {job : JobRow} {before after : List Session}
      {answer : Except RepositoryError JobClaim} {db' : Db} :
      s.sessions = before ++ .claiming c job :: after →
      (leaseClaimed job c.jobId c.workerId c.leaseId c.leaseExpiresAt c.options c.eventId
        c.time).exec s.db = (answer, db') →
      Respects (before ++ after) s.db db' →
      Step s (some ⟨c.op, c.time, answer⟩) ⟨db', before ++ after⟩
  /-- a session is lost -/
  | abort {s : Server} {x : Session} {before after : List Session} :
      s.sessions = before ++ x :: after → Step s none ⟨s.db, before ++ after⟩

/-- The runs of the server whose calls `Allowed` admits. -/
def server (Allowed : Op → Prop) (catalog : Catalog) : TSys Server (Option Call) where
  init s := s = ⟨Db.empty catalog, []⟩
  step s l s' := Server.Step s l s' ∧ ∀ call ∈ l, Allowed call.op

/-! ## What a session knows -/

/-- What a session found out still holds. -/
def Session.Holds (db : Db) : Session → Prop
  | .keyed c => (lookupKey c.request.projectId c.idempotencyKey).Commits db none db
  | .counted c => (lookupKey c.request.projectId c.idempotencyKey).Commits db none db ∧
      (outstandingQuota c.request.projectId).Commits db () db
  | .claiming c job => (claimQuota c.jobId c.options).Commits db job db

theorem lookupKey_commits {p : ProjectId} {key : String} {db db' : Db}
    {out : Option (JobId × JobRow)} : (lookupKey p key).Commits db out db' ↔
      (validateIdempotencyKey key).Commits db () db ∧ db.jobByKey? p key = out ∧ db = db' := by
  simp only [lookupKey, validateIdempotencyKey, Tx.bind_commits, Tx.require_commits,
    Tx.read_commits]
  constructor
  · rintro ⟨_, _, ⟨hkey, rfl⟩, hout, rfl⟩
    exact ⟨⟨hkey, trivial⟩, hout, rfl⟩
  · rintro ⟨⟨hkey, _⟩, hout, rfl⟩
    exact ⟨(), db, ⟨hkey, rfl⟩, hout, rfl⟩

@[simp] theorem outstandingQuota_commits {p : ProjectId} {db db' : Db} {u : Unit} :
    (outstandingQuota p).Commits db u db' ↔ db = db' ∧ ∃ project,
      db.catalog.projects.get? p = some project ∧
        db.outstandingJobs p < project.maxOutstandingJobs := by
  simp only [outstandingQuota, Tx.bind_commits, Tx.read_commits, lockProject_commits,
    requireQuota_commits]
  constructor
  · rintro ⟨project, _, ⟨hproject, rfl⟩, _, _, ⟨rfl, rfl⟩, hlt, rfl⟩
    exact ⟨rfl, project, hproject, hlt⟩
  · rintro ⟨rfl, project, hproject, hlt⟩
    exact ⟨project, db, ⟨hproject, rfl⟩, _, db, ⟨rfl, rfl⟩, hlt, rfl⟩

@[simp] theorem concurrentQuota_commits {p : ProjectId} {db db' : Db} {u : Unit} :
    (concurrentQuota p).Commits db u db' ↔ db = db' ∧ ∃ project,
      db.catalog.projects.get? p = some project ∧
        db.activeProjectJobs p < project.maxConcurrentJobs := by
  simp only [concurrentQuota, Tx.bind_commits, Tx.read_commits, lockProject_commits,
    requireQuota_commits]
  constructor
  · rintro ⟨project, _, ⟨hproject, rfl⟩, _, _, ⟨rfl, rfl⟩, hlt, rfl⟩
    exact ⟨rfl, project, hproject, hlt⟩
  · rintro ⟨rfl, project, hproject, hlt⟩
    exact ⟨project, db, ⟨hproject, rfl⟩, _, db, ⟨rfl, rfl⟩, hlt, rfl⟩

theorem claimQuota_commits {j : JobId} {options : ClaimJobOptions} {db db' : Db} {job : JobRow} :
    (claimQuota j options).Commits db job db' ↔ db = db' ∧ 0 < options.workerStaleAfter ∧
      db.job? j = some job ∧
      (decide (job.state = .queued) && job.leaseId.isNone && job.workerId.isNone) = true ∧
      (concurrentQuota job.projectId).Commits db () db := by
  simp only [claimQuota, Tx.bind_commits, Tx.require_commits, Tx.okOr_commits, Tx.pure_commits,
    lockJob_commits, concurrentQuota_commits, decide_eq_true_eq]
  constructor
  · rintro ⟨_, _, ⟨hstale, rfl⟩, _, _, ⟨rfl, rfl⟩, row, _, ⟨hrow, rfl⟩, _, _, ⟨hq, rfl⟩, _, _,
      ⟨rfl, hquota⟩, rfl, rfl⟩
    exact ⟨rfl, hstale, hrow, hq, trivial, hquota⟩
  · rintro ⟨rfl, hstale, hrow, hq, -, hquota⟩
    exact ⟨(), db, ⟨hstale, rfl⟩, _, db, ⟨rfl, rfl⟩, job, db, ⟨hrow, rfl⟩, (), db, ⟨hq, rfl⟩, (),
      db, ⟨rfl, hquota⟩, rfl, rfl⟩

/-- **Still true.** A call that takes none of a session's locks and leaves what they
protect leaves the session's findings true. -/
theorem Session.Holds.step {x : Session} {op : Op} {t : DbTime} {db db' : Db} {out : op.Out}
    (hx : x.Holds db) (h : (op.tx t).Commits db out db') (hkept : ∀ l ∈ x.locks, l.Kept db db')
    (hfree : ∀ l ∈ x.locks, l ∉ op.locks db) : x.Holds db' := by
  have hkey : ∀ c : CreateCall, Lock.key c.request.projectId c.idempotencyKey ∈ x.locks →
      (lookupKey c.request.projectId c.idempotencyKey).Commits db none db →
      (lookupKey c.request.projectId c.idempotencyKey).Commits db' none db' := by
    intro c hl hlookup
    obtain ⟨hvalid, hnone, _⟩ := lookupKey_commits.mp hlookup
    refine lookupKey_commits.mpr ⟨?_, Op.jobByKey? h hnone (hfree _ hl), rfl⟩
    simp only [validateIdempotencyKey, Tx.require_commits] at hvalid ⊢
    exact ⟨hvalid.1, trivial⟩
  cases x with
  | keyed c => exact hkey c (by simp [Session.locks]) hx
  | counted c =>
      have hl : Lock.project c.request.projectId ∈ (Session.counted c).locks := by
        simp [Session.locks]
      refine ⟨hkey c (by simp [Session.locks]) hx.1, ?_⟩
      obtain ⟨_, project, hproject, hlt⟩ := outstandingQuota_commits.mp hx.2
      have hle := Op.outstandingJobs_le h fun hop => hfree _ hl (hop.locks db)
      exact outstandingQuota_commits.mpr ⟨rfl, project, (hkept _ hl).trans hproject, by omega⟩
  | claiming c job =>
      have hl : Lock.project job.projectId ∈ (Session.claiming c job).locks := by
        simp [Session.locks]
      have hj : Lock.job c.jobId ∈ (Session.claiming c job).locks := by simp [Session.locks]
      obtain ⟨_, hstale, hrow, hq, hquota⟩ := claimQuota_commits.mp hx
      obtain ⟨_, project, hproject, hlt⟩ := concurrentQuota_commits.mp hquota
      have hle := Op.activeProjectJobs_le h fun hop => hfree _ hl hop.locks
      refine claimQuota_commits.mpr ⟨rfl, hstale, (hkept _ hj).trans hrow, hq, ?_⟩
      exact concurrentQuota_commits.mpr ⟨rfl, project, (hkept _ hl).trans hproject, by omega⟩

/-! ## Every call that ends is one step of the repository -/

/-- What holds of a reachable server: no lock is held twice, and what each session found
out still holds. -/
structure Server.Inv (s : Server) : Prop where
  exclusive : (s.sessions.flatMap Session.locks).Nodup
  holds : ∀ x ∈ s.sessions, x.Holds s.db

theorem held_iff {sessions : List Session} {l : Lock} :
    Held sessions l ↔ l ∈ sessions.flatMap Session.locks := by
  simp [Held]

/-- The sessions but one hold none of its locks. -/
theorem Server.Inv.others {s : Server} (h : s.Inv) {x : Session} {before after : List Session}
    (hs : s.sessions = before ++ x :: after) :
    ((before ++ after).flatMap Session.locks).Nodup ∧ x.Holds s.db ∧
      (∀ y ∈ before ++ after, y.Holds s.db) ∧ ∀ l ∈ x.locks, ¬ Held (before ++ after) l := by
  have hn := h.exclusive
  rw [hs, List.flatMap_append, List.flatMap_cons] at hn
  have hperm : ((before.flatMap Session.locks) ++ (x.locks ++ after.flatMap Session.locks)).Perm
      (x.locks ++ (before ++ after).flatMap Session.locks) := by
    rw [List.flatMap_append, ← List.append_assoc, ← List.append_assoc]
    exact List.perm_append_comm.append_right _
  have hn' := hperm.nodup_iff.mp hn
  refine ⟨(List.nodup_append.mp hn').2.1, ?_, fun y hy => ?_, fun l hl hheld => ?_⟩
  · exact h.holds x (by rw [hs]; simp)
  · refine h.holds y ?_
    rw [hs]
    rcases List.mem_append.mp hy with hb | ha
    · exact List.mem_append_left _ hb
    · exact List.mem_append_right _ (List.mem_cons_of_mem _ ha)
  · exact (List.nodup_append.mp hn').2.2 l hl l (held_iff.mp hheld) rfl

/-- The other sessions survive a call that takes only locks they do not hold. -/
theorem Session.Holds.others {sessions : List Session} {op : Op} {t : DbTime} {db db' : Db}
    {answer : Except RepositoryError op.Out} (hall : ∀ y ∈ sessions, y.Holds db)
    (h : (op.tx t).exec db = (answer, db')) (hkept : Respects sessions db db')
    (hfree : ∀ l, Held sessions l → l ∉ op.locks db) : ∀ y ∈ sessions, y.Holds db' := by
  intro y hy
  rcases Tx.exec_cases (op.tx t) db with ⟨out, db₁, hc, he⟩ | ⟨e, _, he⟩
  · obtain ⟨_, rfl⟩ := Prod.mk.inj (he.symm.trans h)
    exact (hall y hy).step hc (fun l hl => hkept l ⟨y, hy, hl⟩) fun l hl => hfree l ⟨y, hy, hl⟩
  · obtain ⟨_, rfl⟩ := Prod.mk.inj (he.symm.trans h)
    exact hall y hy

/-- What a create came to, from what its pieces came to. -/
theorem CreateCall.exec_insert {c : CreateCall} {db : Db} (h : (Session.counted c).Holds db) :
    (c.op.tx c.time).exec db = (insertCreated c.id c.eventId c.request c.idempotencyKey
      c.traceHeaders c.time).exec db := by
  refine Tx.exec_congr ?_
  show createJobWithOutbox c.id c.eventId c.request c.idempotencyKey c.traceHeaders c.time db = _
  rw [createJobWithOutbox_split, Tx.bind_of_commits h.1]
  exact Tx.bind_of_commits h.2

theorem CreateCall.exec_replay {c : CreateCall} {db : Db} {existing : JobId} {row : JobRow}
    (h : (lookupKey c.request.projectId c.idempotencyKey).Commits db (some (existing, row)) db) :
    (c.op.tx c.time).exec db = (.ok ⟨row.intoJob existing, false, none⟩, db) := by
  have hsplit : createJobWithOutbox c.id c.eventId c.request c.idempotencyKey c.traceHeaders
      c.time db = .ok (⟨row.intoJob existing, false, none⟩, db) := by
    rw [createJobWithOutbox_split, Tx.bind_of_commits h]
    rfl
  exact Tx.Commits.exec_eq hsplit

theorem CreateCall.exec_invalidKey {c : CreateCall} {db : Db} {e : RepositoryError}
    (h : lookupKey c.request.projectId c.idempotencyKey db = .error e) :
    (c.op.tx c.time).exec db = (.error e, db) := by
  refine Tx.exec_of_error ?_
  show createJobWithOutbox c.id c.eventId c.request c.idempotencyKey c.traceHeaders c.time db = _
  rw [createJobWithOutbox_split, Tx.bind_of_error h]
  rfl

theorem CreateCall.exec_full {c : CreateCall} {db : Db} {e : RepositoryError}
    (hkeyed : (Session.keyed c).Holds db)
    (h : outstandingQuota c.request.projectId db = .error e) :
    (c.op.tx c.time).exec db = (.error e, db) := by
  refine Tx.exec_of_error ?_
  show createJobWithOutbox c.id c.eventId c.request c.idempotencyKey c.traceHeaders c.time db = _
  rw [createJobWithOutbox_split, Tx.bind_of_commits hkeyed]
  exact Tx.bind_of_error h

theorem ClaimCall.exec_lease {c : ClaimCall} {job : JobRow} {db : Db}
    (h : (Session.claiming c job).Holds db) :
    (c.op.tx c.time).exec db = (leaseClaimed job c.jobId c.workerId c.leaseId c.leaseExpiresAt
      c.options c.eventId c.time).exec db := by
  refine Tx.exec_congr ?_
  show claimJobWithOptions c.jobId c.workerId c.leaseId c.leaseExpiresAt c.options c.eventId
    c.time db = _
  rw [claimJobWithOptions_split, Tx.bind_of_commits h]

theorem ClaimCall.exec_refuse {c : ClaimCall} {db : Db} {e : RepositoryError}
    (h : claimQuota c.jobId c.options db = .error e) :
    (c.op.tx c.time).exec db = (.error e, db) := by
  refine Tx.exec_of_error ?_
  show claimJobWithOptions c.jobId c.workerId c.leaseId c.leaseExpiresAt c.options c.eventId
    c.time db = _
  rw [claimJobWithOptions_split, Tx.bind_of_error h]
  rfl

/-- A claim takes the locks of its session. -/
theorem ClaimCall.locks_eq {c : ClaimCall} {job : JobRow} {db : Db}
    (h : (Session.claiming c job).Holds db) :
    c.op.locks db = (Session.claiming c job).locks := by
  have hrow := (claimQuota_commits.mp h).2.2.1
  simp [ClaimCall.op, Op.locks, hrow, Session.locks]

theorem Op.isWhole_locks {op : Op} (h : op.isWhole = true) (db : Db) : op.locks db = [] := by
  cases op <;> first | rfl | cases h

/-- **One step.** The server keeps its invariant; a step in which no call ends leaves the
database, and a call that ends did what it does in one step. -/
theorem Server.Inv.step {s s' : Server} {l : Option Call} (h : s.Inv) (hstep : Server.Step s l s') :
    s'.Inv ∧ (l = none → s'.db = s.db) ∧
      ∀ call, l = some call → (call.op.tx call.time).exec s.db = (call.answer, s'.db) := by
  cases hstep with
  | @call op t answer db' hwhole hexec hkept =>
      refine ⟨⟨h.exclusive, ?_⟩, fun hn => absurd hn (Option.some_ne_none _), fun call hcall => ?_⟩
      · refine Session.Holds.others h.holds hexec hkept fun l _ hl => ?_
        rw [Op.isWhole_locks hwhole] at hl
        cases hl
      · obtain rfl := Option.some.inj hcall
        exact hexec
  | @lookup c hfree hlookup =>
      refine ⟨⟨?_, ?_⟩, fun _ => rfl, fun call hcall => absurd hcall.symm (Option.some_ne_none _)⟩
      · show ((Session.keyed c).locks ++ s.sessions.flatMap Session.locks).Nodup
        simp only [Session.locks, List.singleton_append, List.nodup_cons]
        exact ⟨fun hm => hfree (held_iff.mpr hm), h.exclusive⟩
      · intro x hx
        rcases List.mem_cons.mp hx with rfl | hx
        · exact hlookup
        · exact h.holds x hx
  | replay _ hlookup =>
      refine ⟨h, fun hn => absurd hn (Option.some_ne_none _), fun call hcall => ?_⟩
      obtain rfl := Option.some.inj hcall
      exact CreateCall.exec_replay hlookup
  | invalidKey hlookup =>
      refine ⟨h, fun hn => absurd hn (Option.some_ne_none _), fun call hcall => ?_⟩
      obtain rfl := Option.some.inj hcall
      exact CreateCall.exec_invalidKey hlookup
  | @count c before after hs hfree hquota =>
      obtain ⟨_, hkeyed, hall, _⟩ := h.others hs
      refine ⟨⟨?_, ?_⟩, fun _ => rfl, fun call hcall => absurd hcall.symm (Option.some_ne_none _)⟩
      · -- the project's lock joins the key's
        have hn := h.exclusive
        have hnot := fun hm => hfree (held_iff.mpr hm)
        rw [hs] at hn hnot
        have hperm : (before ++ Session.counted c :: after).flatMap Session.locks |>.Perm
            (Lock.project c.request.projectId ::
              (before ++ Session.keyed c :: after).flatMap Session.locks) := by
          simp only [List.flatMap_append, List.flatMap_cons, Session.locks, List.cons_append,
            List.nil_append]
          refine (List.perm_middle.trans ?_)
          refine (List.Perm.cons _ List.perm_middle).trans ?_
          exact (List.Perm.swap _ _ _).trans (List.Perm.cons _ List.perm_middle.symm)
        exact hperm.nodup_iff.mpr (List.nodup_cons.mpr ⟨hnot, hn⟩)
      · intro x hx
        rcases List.mem_append.mp hx with hb | ha
        · exact hall x (List.mem_append_left _ hb)
        · rcases List.mem_cons.mp ha with rfl | ha
          · exact ⟨hkeyed, hquota⟩
          · exact hall x (List.mem_append_right _ ha)
  | @full c before after e hs _ hquota =>
      obtain ⟨hn, hkeyed, hall, _⟩ := h.others hs
      refine ⟨⟨hn, hall⟩, fun hn => absurd hn (Option.some_ne_none _), fun call hcall => ?_⟩
      obtain rfl := Option.some.inj hcall
      exact CreateCall.exec_full hkeyed hquota
  | @insert c before after answer db' hs hexec hkept =>
      obtain ⟨hn, hcounted, hall, hlocks⟩ := h.others hs
      rw [← CreateCall.exec_insert hcounted] at hexec
      refine ⟨⟨hn, ?_⟩, fun hn => absurd hn (Option.some_ne_none _), fun call hcall => ?_⟩
      · refine Session.Holds.others hall hexec hkept fun l hheld hl => hlocks l ?_ hheld
        exact hl
      · obtain rfl := Option.some.inj hcall
        exact hexec
  | @room c job hjob hproject hquota =>
      refine ⟨⟨?_, ?_⟩, fun _ => rfl, fun call hcall => absurd hcall.symm (Option.some_ne_none _)⟩
      · show ((Session.claiming c job).locks ++ s.sessions.flatMap Session.locks).Nodup
        simp only [Session.locks, List.cons_append, List.nil_append, List.nodup_cons,
          List.mem_cons, not_or]
        exact ⟨⟨nofun, fun hm => hjob (held_iff.mpr hm)⟩, fun hm => hproject (held_iff.mpr hm),
          h.exclusive⟩
      · intro x hx
        rcases List.mem_cons.mp hx with rfl | hx
        · exact hquota
        · exact h.holds x hx
  | refuse hquota =>
      refine ⟨h, fun hn => absurd hn (Option.some_ne_none _), fun call hcall => ?_⟩
      obtain rfl := Option.some.inj hcall
      exact ClaimCall.exec_refuse hquota
  | @lease c job before after answer db' hs hexec hkept =>
      obtain ⟨hn, hclaiming, hall, hlocks⟩ := h.others hs
      rw [← ClaimCall.exec_lease hclaiming] at hexec
      refine ⟨⟨hn, ?_⟩, fun hn => absurd hn (Option.some_ne_none _), fun call hcall => ?_⟩
      · refine Session.Holds.others hall hexec hkept fun l hheld hl => hlocks l ?_ hheld
        rwa [ClaimCall.locks_eq hclaiming] at hl
      · obtain rfl := Option.some.inj hcall
        exact hexec
  | @abort x before after hs =>
      obtain ⟨hn, _, hall, _⟩ := h.others hs
      exact ⟨⟨hn, hall⟩, fun _ => rfl, fun call hcall => absurd hcall.symm (Option.some_ne_none _)⟩

variable {Allowed : Op → Prop} {catalog : Catalog}

theorem server_inv : (server Allowed catalog).Invariant Server.Inv := by
  refine TSys.Inductive.invariant ⟨?_, ?_⟩
  · rintro s rfl
    exact ⟨List.nodup_nil, fun x hx => absurd hx List.not_mem_nil⟩
  · intro s l s' _ hinv hstep
    exact (hinv.step hstep.1).1

/-- **Refinement.** A step of the server in which no call ends leaves the database; a call
that ends is a step of the repository. -/
theorem server_step {s s' : Server} {l : Option Call} (hs : (server Allowed catalog).Reachable s)
    (hstep : (server Allowed catalog).step s l s') :
    (l = none ∧ s'.db = s.db) ∨
      ∃ call, l = some call ∧ (repository Allowed).step s.db call s'.db := by
  obtain ⟨_, hsilent, hcall⟩ := (server_inv s hs).step hstep.1
  cases l with
  | none => exact Or.inl ⟨rfl, hsilent rfl⟩
  | some call => exact Or.inr ⟨call, rfl, hstep.2 call rfl, hcall call rfl⟩

/-- **Runs.** The calls that end along a run of the server are a run of the repository. -/
theorem server_run {s s' : Server} {ls : List (Option Call)}
    (hs : (server Allowed catalog).Reachable s) (hrun : (server Allowed catalog).Run s ls s') :
    (repository Allowed).Run s.db (ls.filterMap id) s'.db := by
  induction hrun with
  | nil => exact .nil _
  | @snoc ls s₁ l s₂ hrun hstep ih =>
      rw [List.filterMap_append]
      rcases server_step (hs.run hrun) hstep with ⟨rfl, hdb⟩ | ⟨call, rfl, hcall⟩
      · rw [hdb]
        simpa using ih
      · exact ih.append (.single hcall)

/-! ## A create between its locks -/

/-- The sample's create. -/
def Sample.createCall : CreateCall := ⟨job, event 0, request, "key", [], at_ 2⟩

/-- The writes of that create: its answer and the database after them. -/
def Sample.insertion : Except RepositoryError CreatedJob × Db :=
  (insertCreated job (event 0) request "key" [] (at_ 2)).exec (Db.empty Sample.catalog)

/-- Nobody else is there: the create looks its key up, counts and writes. -/
theorem Sample.create_run {Allowed : Op → Prop} (ha : Allowed Sample.createCall.op) :
    (server Allowed Sample.catalog).Run ⟨Db.empty Sample.catalog, []⟩
      [none, none, some ⟨Sample.createCall.op, Sample.at_ 2, Sample.insertion.1⟩]
      ⟨Sample.insertion.2, []⟩ := by
  have hfree : ∀ l, ¬ Held [] l := fun l hl => by
    obtain ⟨x, hx, _⟩ := hl
    cases hx
  let sys := server Allowed Sample.catalog
  have hlookup : sys.step ⟨Db.empty Sample.catalog, []⟩ none
      ⟨Db.empty Sample.catalog, [.keyed Sample.createCall]⟩ := by
    refine ⟨@Server.Step.lookup ⟨Db.empty Sample.catalog, []⟩ _ (hfree _) ?_, fun _ hc => ?_⟩
    · exact lookupKey_commits.mpr ⟨rfl, rfl, rfl⟩
    · cases hc
  have hcount : sys.step ⟨Db.empty Sample.catalog, [.keyed Sample.createCall]⟩ none
      ⟨Db.empty Sample.catalog, [.counted Sample.createCall]⟩ := by
    refine ⟨@Server.Step.count ⟨Db.empty Sample.catalog, [.keyed Sample.createCall]⟩ _ [] [] rfl
      ?_ ?_, fun _ hc => ?_⟩
    · simp [Held, Session.locks]
    · exact outstandingQuota_commits.mpr ⟨rfl, ⟨2, 10⟩, by decide +kernel, by decide⟩
    · cases hc
  have hinsert : sys.step ⟨Db.empty Sample.catalog, [.counted Sample.createCall]⟩
      (some ⟨Sample.createCall.op, Sample.at_ 2, Sample.insertion.1⟩) ⟨Sample.insertion.2, []⟩ := by
    refine ⟨@Server.Step.insert ⟨Db.empty Sample.catalog, [.counted Sample.createCall]⟩ _ [] [] _ _
      rfl rfl fun l hl => absurd hl (hfree l), fun call hc => ?_⟩
    obtain rfl := Option.some.inj hc
    exact ha
  exact .snoc (.snoc (.snoc (.nil _) hlookup) hcount) hinsert

end RunAnywhere
