import RunAnywhere.Repository.Recovery

/-!
# What a committed operation did

One inversion lemma for each repository operation: from a committed call, the row
it started from, the guards that held, the row it stored and what happened to the
worker table, the event log and the outbox. The invariants are proved from these
lemmas and never unfold an operation again.
-/

namespace RunAnywhere

open Logic

/-! ## Reads -/

@[simp] theorem lockJob_commits {j : JobId} {db db' : Db} {out : Option JobRow} :
    (lockJob j).Commits db out db' ↔ db.job? j = out ∧ db = db' := Tx.read_commits

@[simp] theorem lockWorker_commits {w : WorkerId} {db db' : Db} {out : Option WorkerRow} :
    (lockWorker w).Commits db out db' ↔ db.worker? w = out ∧ db = db' := Tx.read_commits

theorem loadProfile_commits {id : RuntimeProfileId} {db db' : Db} {out : Option RuntimeProfile}
    (h : (loadProfile id).Commits db out db') :
    db = db' ∧ ∀ profile ∈ out, profile.id = id ∧ profile.isValid = true := by
  simp only [loadProfile, Tx.bind_commits, Tx.read_commits, Tx.require_commits,
    Tx.pure_commits] at h
  obtain ⟨_, _, ⟨rfl, rfl⟩, _, _, ⟨hv, rfl⟩, rfl, rfl⟩ := h
  refine ⟨rfl, ?_⟩
  intro profile hp
  obtain ⟨row, hrow, rfl⟩ := Option.map_eq_some_iff.mp hp
  refine ⟨rfl, ?_⟩
  rw [hrow] at hv
  exact hv

@[simp] theorem lockProject_commits {p : ProjectId} {db db' : Db} {out : ProjectRow} :
    (lockProject p).Commits db out db' ↔ db.catalog.projects.get? p = some out ∧ db = db' := by
  simp only [lockProject, Tx.bind_commits, Tx.read_commits, Tx.okOr_commits]
  constructor
  · rintro ⟨_, _, ⟨rfl, rfl⟩, h, rfl⟩
    exact ⟨h, rfl⟩
  · rintro ⟨h, rfl⟩
    exact ⟨_, _, ⟨rfl, rfl⟩, h, rfl⟩

@[simp] theorem requireQuota_commits {p : ProjectId} {quota : ProjectQuota} {f g : String}
    {current limit : Nat} {db db' : Db} {u : Unit} :
    (requireQuota p quota f g current limit).Commits db u db' ↔ current < limit ∧ db = db' := by
  unfold requireQuota
  split
  · next h =>
      simp only [Tx.bind_commits, Tx.fail_commits, and_false, exists_false, false_iff, not_and]
      omega
  · next h =>
      simp only [Tx.pure_commits, true_and]
      constructor
      · intro hd; exact ⟨by omega, hd⟩
      · exact fun hd => hd.2

theorem requireUploadKind_commits {p : ProjectId} {u : UploadId} {kind : UploadKind}
    {db db' : Db} {x : Unit} (h : (requireUploadKind p u kind).Commits db x db') : db = db' := by
  simp only [requireUploadKind, Tx.bind_commits, Tx.read_commits, Tx.okOr_commits,
    Tx.require_commits] at h
  obtain ⟨_, _, ⟨_, rfl⟩, _, _, ⟨_, rfl⟩, _, rfl⟩ := h
  rfl

/-- Admission reads only; the project is below its quota and the profile is the
requested one. -/
theorem admitJob_commits {request : CreateJobRequest} {db db' : Db} {profile : RuntimeProfile}
    (h : (admitJob request).Commits db profile db') :
    db = db' ∧ profile.id = request.runtimeProfile ∧
      ∃ project, db.catalog.projects.get? request.projectId = some project ∧
        db.outstandingJobs request.projectId < project.maxOutstandingJobs := by
  simp only [admitJob, Tx.bind_commits, Tx.read_commits, Tx.require_commits,
    lockProject_commits, requireQuota_commits] at h
  obtain ⟨project, _, ⟨hproject, rfl⟩, _, _, ⟨rfl, rfl⟩, _, _, ⟨hquota, rfl⟩, _, _, ⟨_, rfl⟩, _,
    _, hapk, hrest⟩ := h
  obtain rfl := requireUploadKind_commits hapk
  have hload : ∃ out dbt, (loadProfile request.runtimeProfile).Commits db out dbt ∧
      out = some profile ∧ db' = dbt := by
    cases hupload : request.testUploadId with
    | none =>
        rw [hupload] at hrest
        simp only [Tx.bind_commits, Tx.okOr_commits, Tx.require_commits, Tx.pure_commits] at hrest
        obtain ⟨out, _, hl, _, _, ⟨ho, rfl⟩, _, _, ⟨_, rfl⟩, rfl, rfl⟩ := hrest
        exact ⟨_, _, hl, ho, rfl⟩
    | some test =>
        rw [hupload] at hrest
        simp only [Tx.bind_commits, Tx.okOr_commits, Tx.require_commits, Tx.pure_commits] at hrest
        obtain ⟨_, _, htest, out, _, hl, _, _, ⟨ho, rfl⟩, _, _, ⟨_, rfl⟩, rfl, rfl⟩ := hrest
        obtain rfl := requireUploadKind_commits htest
        exact ⟨_, _, hl, ho, rfl⟩
  obtain ⟨out, dbt, hl, rfl, rfl⟩ := hload
  obtain ⟨rfl, hprofile⟩ := loadProfile_commits hl
  exact ⟨rfl, (hprofile profile rfl).1, project, hproject, hquota⟩

/-! ## Create -/

/-- The rows a create inserts into the outbox. -/
def IsCreateRow (id : JobId) (row : JobRow) (key : String) (message : OutboxRow) : Prop :=
  IsWebhookRow key message ∨
    (key = id.val ∧ message.subject = jobsQueuedSubject ∧ message.payload = .jobQueued (row.queued id))

/-- **Create.** A replay changes nothing; a winning create stores the new row, one
event and the queue message, all keyed by the fresh identifier. -/
theorem createJobWithOutbox_commits {id : JobId} {eventId : JobEventId}
    {request : CreateJobRequest} {key : String} {headers : List (String × String)} {t : DbTime}
    {db db' : Db} {created : CreatedJob}
    (h : (createJobWithOutbox id eventId request key headers t).Commits db created db') :
    (∃ existing row, db.jobByKey? request.projectId key = some (existing, row) ∧
      created = ⟨row.intoJob existing, false, none⟩ ∧ db = db') ∨
    ∃ hc : (newJobRow request key t).Checks, ∃ event,
      db.jobByKey? request.projectId key = none ∧ db.job? id = none ∧
      (∃ project, db.catalog.projects.get? request.projectId = some project ∧
        db.outstandingJobs request.projectId < project.maxOutstandingJobs) ∧
      created = ⟨(newJobRow request key t).intoJob id, true, some event⟩ ∧
      event = ⟨eventId, id, db.nextEventSequence, t.now, "job.queued", some .queued, []⟩ ∧
      db'.catalog = db.catalog ∧ db'.workers = db.workers ∧
      db'.jobs = db.jobs.put id ⟨newJobRow request key t, hc⟩ ∧
      db'.events = db.events ++ [event] ∧
      OutboxGrew (IsCreateRow id (newJobRow request key t)) db db' ∧
      ∃ message, db'.message? id.val = some message ∧ message.publishedAt = none ∧
        message.subject = jobsQueuedSubject ∧
        message.payload = .jobQueued ((newJobRow request key t).queued id) := by
  simp only [createJobWithOutbox, validateIdempotencyKey, Tx.bind_commits, Tx.require_commits,
    Tx.read_commits] at h
  obtain ⟨_, _, ⟨_, rfl⟩, found, _, ⟨hfound, rfl⟩, h⟩ := h
  cases found with
  | some x =>
      obtain ⟨existing, row⟩ := x
      simp only [Tx.pure_commits] at h
      exact Or.inl ⟨existing, row, hfound, h.1.symm, h.2⟩
  | none =>
      simp only [Tx.bind_commits, Tx.ofExcept_commits, Tx.pure_commits] at h
      obtain ⟨profile, _, hadmit, _, _, ⟨_, rfl⟩, _, db₁, hins, event, db₂, hev, _, db₃, hout,
        rfl, rfl⟩ := h
      obtain ⟨rfl, hprofile, hquota⟩ := admitJob_commits hadmit
      obtain ⟨hc, hnone, rfl⟩ := insertJob_commits hins
      obtain ⟨hevent, hcat, hwork, hjobs, hevents, _, hgrew, _⟩ := appendEvent_commits hev
      simp only [insertJobQueuedOutbox, validateTraceHeaders, Tx.bind_commits,
        Tx.require_commits] at hout
      obtain ⟨_, _, ⟨_, rfl⟩, inserted, db₄, hq, hsome, rfl⟩ := hout
      have honly := insertOutbox_only hq
      rcases insertOutbox_commits hq with ⟨rfl, _⟩ |
        ⟨message, hmc, _, hmnone, hsub, hpay, hpub, _, _, _, hdb⟩
      · cases hsome
      · have hqueued : (newJobRow request key t).queued id =
            ⟨id, request.projectId, profile.id, request.minIsolation, request.timeoutSeconds⟩ := by
          rw [hprofile]; rfl
        have hgrew' : OutboxGrew (IsCreateRow id (newJobRow request key t)) db₂ db₄ :=
          insertOutbox_grew hq fun row hs hp => Or.inr ⟨rfl, hs, by rw [hp, hqueued]⟩
        refine Or.inr ⟨hc, event, hfound, hnone, hquota, rfl, hevent, ?_, ?_, ?_, ?_, ?_,
          message, ?_, hpub, hsub, by rw [hpay, hqueued]⟩
        · rw [honly.catalog, hcat]
        · rw [honly.workers, hwork]
        · rw [honly.jobs, hjobs]
        · rw [honly.events, hevents]
        · refine OutboxGrew.trans ?_ hgrew'
          exact OutboxGrew.mono (fun _ _ hk => Or.inl hk) (hgrew.of_source rfl rfl)
        · rw [hdb]
          exact Table.row?_put_self _ _ _ _

/-! ## Cancel -/

/-- **Cancel.** A repeated cancellation changes nothing; the first one moves a live
job without a pending outcome to artifact collection. -/
theorem requestJobCancellation_commits {j : JobId} {eventId : JobEventId} {t : DbTime}
    {db db' : Db} {out : JobMutation}
    (h : (requestJobCancellation j eventId t).Commits db out db') :
    ∃ row, db.job? j = some row ∧ row.state.isTerminal = false ∧
      ((row.pendingOutcome = some .cancelled ∧ out = ⟨row.intoJob j, false, none⟩ ∧ db = db') ∨
      ∃ hc : row.cancelRequested.Checks, ∃ event, row.pendingOutcome = none ∧
        out = ⟨row.cancelRequested.intoJob j, true, some event⟩ ∧
        event = ⟨eventId, j, db.nextEventSequence, t.now, "job.cancellation_requested",
          some .collectingArtifacts, [("previous_state", .state row.state)]⟩ ∧
        db'.catalog = db.catalog ∧ db'.workers = db.workers ∧
        db'.jobs = db.jobs.put j ⟨row.cancelRequested, hc⟩ ∧ db'.events = db.events ++ [event] ∧
        OutboxGrew IsWebhookRow db db') := by
  simp only [requestJobCancellation, Tx.bind_commits, Tx.okOr_commits, Tx.require_commits,
    lockJob_commits] at h
  obtain ⟨_, _, ⟨rfl, rfl⟩, row, _, ⟨hrow, rfl⟩, _, _, ⟨hlive, rfl⟩, h⟩ := h
  refine ⟨row, hrow, by simpa using hlive, ?_⟩
  cases hp : row.pendingOutcome with
  | some outcome =>
      rw [hp] at h
      cases outcome with
      | cancelled =>
          simp only [Tx.pure_commits] at h
          exact Or.inl ⟨rfl, h.1.symm, h.2⟩
      | passed => exact absurd h Tx.fail_commits
      | failed => exact absurd h Tx.fail_commits
      | timedOut => exact absurd h Tx.fail_commits
      | infraFailed => exact absurd h Tx.fail_commits
  | none =>
      rw [hp] at h
      simp only [Tx.bind_commits, Tx.okOr_commits, Tx.pure_commits] at h
      obtain ⟨updated, db₁, hup, row', _, ⟨hsome, rfl⟩, event, db₂, hev, rfl, rfl⟩ := h
      rcases updateJob_commits hup with ⟨rfl, _⟩ | ⟨row₀, hc, hrow₀, _, rfl, rfl⟩
      · cases hsome
      · obtain rfl : row₀ = row := Option.some.inj (hrow₀.symm.trans hrow)
        obtain rfl := Option.some.inj hsome
        obtain ⟨hevent, hcat, hwork, hjobs, hevents, _, hgrew, _⟩ := appendEvent_commits hev
        exact Or.inr ⟨hc, event, rfl, rfl, hevent, hcat, hwork, hjobs, hevents,
          hgrew.of_source rfl rfl⟩

/-! ## Claim -/

theorem validateWorkerMatch_commits {worker : WorkerRow} {profile : RuntimeProfile}
    {minimum : IsolationTier} {now : Time} {staleAfter : Int} {db db' : Db} {u : Unit}
    (h : (validateWorkerMatch worker profile minimum now staleAfter).Commits db u db') :
    db = db' := by
  simp only [validateWorkerMatch, Tx.bind_commits, Tx.require_commits, Tx.okOr_commits] at h
  obtain ⟨_, _, ⟨_, rfl⟩, _, _, ⟨_, rfl⟩, _, _, ⟨_, rfl⟩, _, _, ⟨_, rfl⟩, _, _, ⟨_, rfl⟩, _, _,
    ⟨_, rfl⟩, _, _, ⟨_, rfl⟩, _, rfl⟩ := h
  rfl

/-- The checks of a claim read only: the job is queued and unowned, its project is
below the quota, and the lease would still be live. -/
theorem admitClaim_commits {j : JobId} {w : WorkerId} {expires : Time} {options : ClaimJobOptions}
    {t : DbTime} {db db' : Db} {out : JobRow × RuntimeProfile}
    (h : (admitClaim j w expires options t).Commits db out db') :
    db = db' ∧ db.job? j = some out.1 ∧ out.1.state = .queued ∧ out.1.workerId = none ∧
      out.1.leaseId = none ∧ t.clock < expires ∧
      ∃ project, db.catalog.projects.get? out.1.projectId = some project ∧
        db.activeProjectJobs out.1.projectId < project.maxConcurrentJobs := by
  simp only [admitClaim, Tx.bind_commits, Tx.okOr_commits, Tx.require_commits, Tx.read_commits,
    Tx.pure_commits, lockJob_commits, lockWorker_commits, lockProject_commits,
    requireQuota_commits] at h
  obtain ⟨_, _, ⟨_, rfl⟩, _, _, ⟨rfl, rfl⟩, row, _, ⟨hrow, rfl⟩, _, _, ⟨hqueued, rfl⟩, h⟩ := h
  obtain ⟨project, _, ⟨hproject, rfl⟩, _, _, ⟨rfl, rfl⟩, _, _, ⟨hquota, rfl⟩, h⟩ := h
  obtain ⟨_, _, ⟨rfl, rfl⟩, _, _, ⟨_, rfl⟩, _, _, hload, profile, _, ⟨_, rfl⟩, h⟩ := h
  obtain ⟨_, _, ⟨hexp, rfl⟩, _, _, hmatch, rfl, rfl⟩ := h
  obtain ⟨rfl, _⟩ := loadProfile_commits hload
  obtain rfl := validateWorkerMatch_commits hmatch
  simp only [Bool.and_eq_true, decide_eq_true_eq, Option.isNone_iff_eq_none] at hqueued hexp
  exact ⟨rfl, hrow, hqueued.1.1, hqueued.2, hqueued.1.2, hexp, project, hproject, hquota⟩

/-- **Claim.** A queued, unowned job of a project below its quota goes to a worker
with spare capacity, whose counter moves with it. -/
theorem claimJobWithOptions_commits {j : JobId} {w : WorkerId} {l : LeaseId} {expires : Time}
    {options : ClaimJobOptions} {eventId : JobEventId} {t : DbTime} {db db' : Db} {claim : JobClaim}
    (h : (claimJobWithOptions j w l expires options eventId t).Commits db claim db') :
    ∃ row worker, ∃ hc : (row.claimed w l expires t.clock).Checks,
      ∃ hw : (worker.reserved t).Checks,
      db.job? j = some row ∧ row.state = .queued ∧ row.workerId = none ∧ row.leaseId = none ∧
      t.clock < expires ∧ db.worker? w = some worker ∧ worker.activeJobs < worker.capacity ∧
      (∃ project, db.catalog.projects.get? row.projectId = some project ∧
        db.activeProjectJobs row.projectId < project.maxConcurrentJobs) ∧
      claim.jobId = j ∧ claim.workerId = w ∧ claim.leaseId = l ∧
      db'.catalog = db.catalog ∧ db'.workers = db.workers.put w ⟨worker.reserved t, hw⟩ ∧
      db'.jobs = db.jobs.put j ⟨row.claimed w l expires t.clock, hc⟩ ∧
      db'.events = db.events ++ [⟨eventId, j, db.nextEventSequence, t.now, "job.claimed",
        some .claimed, [("worker_id", .text w.val), ("lease_id", .text l.val)]⟩] ∧
      OutboxGrew IsWebhookRow db db' := by
  simp only [claimJobWithOptions, Tx.bind_commits, Tx.okOr_commits, Tx.require_commits,
    Tx.pure_commits] at h
  obtain ⟨⟨row, profile⟩, _, hadmit, h⟩ := h
  obtain ⟨rfl, hrow, hqueued, hfree, hunleased, hexp, hquota⟩ := admitClaim_commits hadmit
  obtain ⟨reserved, db₁, hres, _, _, ⟨hrsome, rfl⟩, claimed, db₂, hup, h⟩ := h
  obtain ⟨row', _, ⟨hsome, rfl⟩, event, db₃, hev, rfl, rfl⟩ := h
  rcases updateWorker_commits hres with ⟨rfl, _⟩ | ⟨worker, hw, hworker, hcap, rfl, rfl⟩
  · cases hrsome
  rcases updateJob_commits hup with ⟨rfl, _⟩ | ⟨row₁, hc, hrow₁, _, rfl, rfl⟩
  · cases hsome
  obtain rfl : row₁ = row := Option.some.inj (hrow₁.symm.trans hrow)
  simp only [Bool.and_eq_true, decide_eq_true_eq] at hcap
  obtain ⟨rfl, hcat, hwork, hjobs, hevents, _, hgrew, _⟩ := appendEvent_commits hev
  exact ⟨row₁, worker, hc, hw, hrow, hqueued, hfree, hunleased, hexp, hworker, hcap.2, hquota,
    rfl, rfl, rfl, hcat, hwork, hjobs, hevents, hgrew.of_source rfl rfl⟩

/-! ## Transition -/

/-- **Release.** One slot of an existing worker, and nothing else. -/
theorem releaseWorkerCapacity_commits {t : DbTime} {w : WorkerId} {db db' : Db} {u : Unit}
    (h : (releaseWorkerCapacity t w).Commits db u db') :
    (db.worker? w = none ∧ db = db') ∨ ∃ row, ∃ hc : (row.released t).Checks,
      db.worker? w = some row ∧ db' = { db with workers := db.workers.put w ⟨row.released t, hc⟩ } := by
  simp only [releaseWorkerCapacity, Tx.bind_commits, Tx.pure_commits] at h
  obtain ⟨_, _, hup, _, rfl⟩ := h
  rcases updateWorker_commits hup with ⟨_, rfl, hany⟩ | ⟨row, hc, hrow, _, _, rfl⟩
  · left
    refine ⟨?_, rfl⟩
    cases hw : db.worker? w with
    | none => rfl
    | some row => rw [hw] at hany; cases hany
  · exact Or.inr ⟨row, hc, hrow, rfl⟩

/-- The release a transition performs: on entering a terminal state with an owner. -/
def releasesOn (target : JobState) (row : JobRow) : Option WorkerId :=
  if target.isTerminal then row.workerId else none

/-- **Transition.** The validator accepted the edge, the WHERE clause matched, the
row was rewritten, the owner of a job that ended was released. -/
theorem transitionJobStateWith_commits {release : WorkerId → RepoTx Unit} {j : JobId}
    {source target : JobState} {evidence : TransitionEvidence} {lease : Option LeaseGuard}
    {payload : List (String × EventValue)} {eventId : JobEventId} {t : DbTime} {db db' : Db}
    {job : Job}
    (h : (transitionJobStateWith release j source target evidence lease payload eventId t).Commits
      db job db') :
    ∃ row, ∃ hc : (row.transitioned target evidence t).Checks, ∃ db₁,
      validateTransition source target evidence = .ok () ∧ db.job? j = some row ∧
      transitionGuard source evidence lease t row = true ∧
      job = (row.transitioned target evidence t).intoJob j ∧
      (match releasesOn target row with
        | some w => (release w).Commits
            { db with jobs := db.jobs.put j ⟨row.transitioned target evidence t, hc⟩ } () db₁
        | none =>
            db₁ = { db with jobs := db.jobs.put j ⟨row.transitioned target evidence t, hc⟩ }) ∧
      db'.catalog = db₁.catalog ∧ db'.workers = db₁.workers ∧ db'.jobs = db₁.jobs ∧
      db'.events = db₁.events ++ [⟨eventId, j, db₁.nextEventSequence, t.now,
        "job." ++ target.wire, some target, payload⟩] ∧
      OutboxGrew IsWebhookRow db₁ db' := by
  simp only [transitionJobStateWith, Tx.bind_commits, Tx.okOr_commits, Tx.ofExcept_commits] at h
  obtain ⟨_, _, ⟨hval, rfl⟩, updated, db₀, hup, row', _, ⟨hsome, rfl⟩, h⟩ := h
  have hvalid : validateTransition source target evidence = .ok () := Tx.mapError_eq_ok.mp hval
  rcases updateJob_commits hup with ⟨rfl, _⟩ | ⟨row, hc, hrow, hguard, rfl, rfl⟩
  · cases hsome
  obtain rfl := Option.some.inj hsome
  -- the release and the event, whichever way the terminal test goes
  have hcont : ∃ db₁ event, (match releasesOn target row with
        | some w => (release w).Commits
            { db with jobs := db.jobs.put j ⟨row.transitioned target evidence t, hc⟩ } () db₁
        | none =>
            db₁ = { db with jobs := db.jobs.put j ⟨row.transitioned target evidence t, hc⟩ }) ∧
      (appendEvent eventId j ("job." ++ target.wire) (some target) (decide (source ≠ target))
        payload t).Commits db₁ event db' ∧ job = (row.transitioned target evidence t).intoJob j := by
    unfold releasesOn
    cases hterm : target.isTerminal with
    | false =>
        rw [hterm] at h
        simp only [Bool.false_eq_true, if_false, Tx.bind_commits, Tx.pure_commits] at h
        obtain ⟨event, _, hev, rfl, rfl⟩ := h
        exact ⟨_, event, rfl, hev, rfl⟩
    | true =>
        rw [hterm] at h
        have hworker : (row.transitioned target evidence t).workerId = row.workerId := rfl
        simp only [if_true, hworker] at h ⊢
        cases hw : row.workerId with
        | none =>
            rw [hw] at h
            simp only [Tx.bind_commits, Tx.pure_commits] at h
            obtain ⟨event, _, hev, rfl, rfl⟩ := h
            exact ⟨_, event, rfl, hev, rfl⟩
        | some w =>
            rw [hw] at h
            simp only [Tx.bind_commits, Tx.pure_commits] at h
            obtain ⟨_, db₁, hrel, event, _, hev, rfl, rfl⟩ := h
            exact ⟨db₁, event, hrel, hev, rfl⟩
  obtain ⟨db₁, event, hrel, hev, hjob⟩ := hcont
  obtain ⟨rfl, hcat, hwork, hjobs, hevents, _, hgrew, _⟩ := appendEvent_commits hev
  exact ⟨row, hc, db₁, hvalid, hrow, hguard, hjob, hrel, hcat, hwork, hjobs, hevents, hgrew⟩

/-! ## Result -/

theorem verifyArtifactIds_commits {j : JobId} {ids : List ArtifactId} {db db' : Db} {u : Unit}
    (h : (verifyArtifactIds j ids).Commits db u db') : db = db' := by
  unfold verifyArtifactIds at h
  split at h
  · exact (Tx.pure_commits.mp h).2
  · simp only [Tx.bind_commits, Tx.read_commits, Tx.require_commits] at h
    obtain ⟨_, _, ⟨_, rfl⟩, _, rfl⟩ := h
    rfl

/-- **Result.** The lease named in the result holds the live job and has not
expired, no other outcome is pending, and the row takes the result. -/
theorem recordJobResult_commits {result : JobResult} {eventId : JobEventId} {t : DbTime}
    {db db' : Db} {job : Job} (h : (recordJobResult result eventId t).Commits db job db') :
    ∃ row, ∃ hc : (row.withResult result).Checks,
      db.job? result.jobId = some row ∧ resultGuard result t row = true ∧
      (result.cleanupCompleted = true → result.artifactsFinalized = true) ∧
      job = (row.withResult result).intoJob result.jobId ∧
      db'.catalog = db.catalog ∧ db'.workers = db.workers ∧
      db'.jobs = db.jobs.put result.jobId ⟨row.withResult result, hc⟩ ∧
      db'.events = db.events ++ [⟨eventId, result.jobId, db.nextEventSequence, t.now,
        "job.result_recorded", some row.state, [("outcome", .outcome result.outcome),
          ("completed_at", .instant result.completedAt),
          ("artifact_ids", .artifacts result.artifactIds)]⟩] ∧
      db'.outbox = db.outbox ∧ db'.nextOutboxId = db.nextOutboxId := by
  simp only [recordJobResult, Tx.bind_commits, Tx.okOr_commits, Tx.require_commits,
    lockJob_commits] at h
  obtain ⟨_, _, ⟨hflags, rfl⟩, _, _, ⟨_, rfl⟩, _, _, ⟨rfl, rfl⟩, current, _, ⟨hrow, rfl⟩, h⟩ := h
  obtain ⟨_, _, ⟨_, rfl⟩, _, _, ⟨_, rfl⟩, _, _, ⟨_, rfl⟩, h⟩ := h
  -- the comparison with a pending outcome reads only
  have hrest : ∃ db₁ updated db₂ row' event, db = db₁ ∧
      (updateJob result.jobId (resultGuard result t) (·.withResult result)).Commits db₁ updated db₂ ∧
      updated = some row' ∧
      (appendEvent eventId result.jobId "job.result_recorded" (some current.state) false
        [("outcome", .outcome result.outcome), ("completed_at", .instant result.completedAt),
          ("artifact_ids", .artifacts result.artifactIds)] t).Commits db₂ event db' ∧
      job = row'.intoJob result.jobId := by
    cases hp : current.pendingOutcome with
    | none =>
        rw [hp] at h
        simp only [Tx.bind_commits, Tx.okOr_commits, Tx.pure_commits, Tx.require_commits] at h
        obtain ⟨_, _, hver, _, _, ⟨_, rfl⟩, updated, db₂, hup, h⟩ := h
        obtain ⟨row', _, ⟨hsome, rfl⟩, event, _, hev, rfl, rfl⟩ := h
        exact ⟨_, updated, _, row', event, verifyArtifactIds_commits hver, hup, hsome, hev, rfl⟩
    | some existing =>
        rw [hp] at h
        simp only [Tx.bind_commits, Tx.okOr_commits, Tx.pure_commits, Tx.require_commits] at h
        obtain ⟨_, _, ⟨_, rfl⟩, _, _, hver, _, _, ⟨_, rfl⟩, updated, db₂, hup, h⟩ := h
        obtain ⟨row', _, ⟨hsome, rfl⟩, event, _, hev, rfl, rfl⟩ := h
        exact ⟨_, updated, _, row', event, verifyArtifactIds_commits hver, hup, hsome, hev, rfl⟩
  obtain ⟨db₁, updated, db₂, row', event, rfl, hup, hsome, hev, rfl⟩ := hrest
  rcases updateJob_commits hup with ⟨rfl, _⟩ | ⟨row, hc, hrow₁, hguard, rfl, rfl⟩
  · cases hsome
  obtain rfl := Option.some.inj hsome
  obtain rfl : row = current := Option.some.inj (hrow₁.symm.trans hrow)
  obtain ⟨rfl, hcat, hwork, hjobs, hevents, _, _, hout⟩ := appendEvent_commits hev
  refine ⟨row, hc, hrow, hguard, ?_, rfl, hcat, hwork, hjobs, hevents, hout rfl⟩
  intro hcl
  rw [hcl] at hflags
  simpa using hflags

/-! ## Recovery -/

/-- The rows a recovery inserts into the outbox. -/
def IsRecoveryRow (stale : StaleJob) (kind : RecoveryKind) (key : String) (message : OutboxRow) :
    Prop :=
  IsWebhookRow key message ∨
    (kind = .exhausted ∧ key = "dlq:" ++ stale.jobId.val ++ ":" ++ toString stale.deliveryAttempts ∧
      message.subject = jobsDeadSubject ∧ ∃ deadLetter : JobDeadLetter,
        message.payload = .jobDeadLetter deadLetter ∧ deadLetter.reason = .attemptsExhausted ∧
        deadLetter.jobId = some stale.jobId ∧ deadLetter.attempt = stale.deliveryAttempts)

/-- **Dead letter.** The row under the letter's key is on the dead-letter channel:
it was there before, or it is new and carries this letter. -/
theorem insertJobDeadLetterOutbox_commits {deadLetter : JobDeadLetter}
    {headers : List (String × String)} {t : DbTime} {db db' : Db} {out : OutboxMessage}
    (h : (insertJobDeadLetterOutbox deadLetter headers t).Commits db out db') :
    ∃ key row, deadLetter.idempotencyKey = .ok key ∧ out = row.intoMessage key ∧
      db'.message? key = some row ∧ row.subject = jobsDeadSubject ∧ OnlyOutbox db db' ∧
      OutboxGrew (fun key' row' => key' = key ∧ row'.subject = jobsDeadSubject ∧
        row'.payload = .jobDeadLetter deadLetter) db db' := by
  simp only [insertJobDeadLetterOutbox, validateTraceHeaders, Tx.bind_commits, Tx.ofExcept_commits,
    Tx.require_commits] at h
  obtain ⟨_, _, ⟨_, rfl⟩, _, _, ⟨_, rfl⟩, key, _, ⟨hkey, rfl⟩, inserted, db₁, hins, h⟩ := h
  have hkey' : deadLetter.idempotencyKey = .ok key := Tx.mapError_eq_ok.mp hkey
  have hgrew : OutboxGrew (fun key' row' => key' = key ∧ row'.subject = jobsDeadSubject ∧
      row'.payload = .jobDeadLetter deadLetter) db db₁ :=
    insertOutbox_grew hins fun row hs hp => ⟨rfl, hs, hp⟩
  have honly := insertOutbox_only hins
  rcases insertOutbox_commits hins with ⟨rfl, rfl, _⟩ |
    ⟨row, hc, rfl, _, hsub, _, _, _, _, _, rfl⟩
  · simp only [Tx.bind_commits, Tx.read_commits, Tx.okOr_commits, Tx.require_commits,
      Tx.pure_commits] at h
    obtain ⟨_, _, ⟨rfl, rfl⟩, row, _, ⟨hrow, rfl⟩, _, _, ⟨hsub, rfl⟩, rfl, rfl⟩ := h
    exact ⟨key, row, hkey', rfl, hrow, by simpa using hsub, honly, .refl _ _⟩
  · simp only [Tx.pure_commits] at h
    obtain ⟨rfl, rfl⟩ := h
    exact ⟨key, row, hkey', rfl, Table.row?_put_self _ _ _ _, hsub, honly, hgrew⟩

/-- The key and the fields of an exhaustion marker. -/
theorem insertExhaustionMarker_commits {stale : StaleJob} {current : JobRow} {t : DbTime}
    {db db' : Db} {u : Unit} (h : (insertExhaustionMarker stale current t).Commits db u db') :
    OnlyOutbox db db' ∧ OutboxGrew (IsRecoveryRow stale .exhausted) db db' ∧
      ∃ row, db'.message? ("dlq:" ++ stale.jobId.val ++ ":" ++ toString stale.deliveryAttempts) =
        some row ∧ row.subject = jobsDeadSubject := by
  simp only [insertExhaustionMarker, Tx.bind_commits, Tx.ofExcept_commits, Tx.pure_commits] at h
  obtain ⟨deadLetter, _, ⟨hnew, rfl⟩, _, _, hins, _, rfl⟩ := h
  have hletter := JobDeadLetter.new_eq (Tx.mapError_eq_ok.mp hnew)
  obtain ⟨key, row, hkey, _, hrow, hsub, honly, hgrew⟩ := insertJobDeadLetterOutbox_commits hins
  have hkey' : key = "dlq:" ++ stale.jobId.val ++ ":" ++ toString stale.deliveryAttempts := by
    rw [hletter] at hkey
    unfold JobDeadLetter.idempotencyKey at hkey
    split at hkey
    · cases hkey
    · cases hkey; rfl
  subst hkey'
  refine ⟨honly, ?_, row, hrow, hsub⟩
  refine OutboxGrew.mono ?_ hgrew
  rintro key' row' ⟨rfl, hs, hp⟩
  exact Or.inr ⟨rfl, rfl, hs, deadLetter, hp, by rw [hletter], by rw [hletter], by rw [hletter]⟩

/-- What a recovery needs of the row it ends the lease of. -/
structure Recoverable (stale : StaleJob) (row : JobRow) : Prop where
  worker : row.workerId = some stale.workerId
  lease : row.leaseId = some stale.leaseId
  state : row.state = stale.state
  expires : row.leaseExpiresAt = some stale.leaseExpiresAt
  attempts : row.deliveryAttempts = stale.deliveryAttempts
  notQueued : row.state ≠ .queued
  live : row.state.isTerminal = false

theorem snapshotMatches_commits {stale : StaleJob} {row : JobRow} {db db' : Db} {matched : Bool}
    (h : (snapshotMatches stale row).Commits db matched db') :
    db = db' ∧ (matched = true → row.workerId = some stale.workerId ∧
      row.leaseId = some stale.leaseId ∧ row.state = stale.state ∧
      row.leaseExpiresAt = some stale.leaseExpiresAt ∧
      row.deliveryAttempts = stale.deliveryAttempts) := by
  unfold snapshotMatches at h
  split at h
  · next hfence =>
      simp only [Tx.bind_commits, Tx.ofExcept_commits, Tx.pure_commits] at h
      obtain ⟨attempts, _, ⟨hattempts, rfl⟩, rfl, rfl⟩ := h
      have hsame : attempts = row.deliveryAttempts := by
        unfold toU32 at hattempts
        split at hattempts <;> cases hattempts
        rfl
      simp only [Bool.and_eq_true, decide_eq_true_eq, JobRow.heldBy_iff] at hfence
      refine ⟨rfl, fun hm => ?_⟩
      simp only [Bool.and_eq_true, decide_eq_true_eq] at hm
      exact ⟨hfence.1.1, hfence.1.2, hfence.2, hm.2, hsame ▸ hm.1⟩
  · obtain ⟨rfl, rfl⟩ := Tx.pure_commits.mp h
    exact ⟨rfl, fun hm => by cases hm⟩

/-- **Recovery.** A lost race changes nothing. Otherwise the row still carried the
whole fence of the snapshot, its lease had expired or its worker gone quiet, and
the lease ended one of the three ways; an exhausted job got its marker. -/
theorem recoverStaleJobWith_commits {release : WorkerId → RepoTx Unit} {stale : StaleJob}
    {maxDeliver : Nat} {eventId : JobEventId} {t : DbTime} {db db' : Db}
    {out : RecoveryDisposition}
    (h : (recoverStaleJobWith release stale maxDeliver eventId t).Commits db out db') :
    (out = .lostRace ∧ db = db') ∨
    ∃ row worker, ∃ hc : (row.recovered (recoveryKind stale maxDeliver row)).Checks, ∃ db₁,
      maxDeliver ≠ 0 ∧ db.job? stale.jobId = some row ∧ Recoverable stale row ∧
      db.worker? stale.workerId = some worker ∧
      (stale.leaseExpiresAt ≤ stale.leaseExpiredBefore ∨
        worker.lastHeartbeatAt ≤ stale.workerHeartbeatBefore) ∧
      out = (recoveryKind stale maxDeliver row).disposition
        ((row.recovered (recoveryKind stale maxDeliver row)).intoJob stale.jobId) ∧
      (release stale.workerId).Commits { db with
        jobs := db.jobs.put stale.jobId ⟨row.recovered (recoveryKind stale maxDeliver row), hc⟩ }
        () db₁ ∧
      db'.catalog = db₁.catalog ∧ db'.workers = db₁.workers ∧ db'.jobs = db₁.jobs ∧
      (∃ payload, db'.events = db₁.events ++ [⟨eventId, stale.jobId, db₁.nextEventSequence, t.now,
        (recoveryKind stale maxDeliver row).eventType,
        some (recoveredState (recoveryKind stale maxDeliver row) stale), payload⟩] ∧
        ("delivery_attempts", EventValue.number stale.deliveryAttempts) ∈ payload) ∧
      OutboxGrew (IsRecoveryRow stale (recoveryKind stale maxDeliver row)) db₁ db' ∧
      (recoveryKind stale maxDeliver row = .exhausted → ∃ message,
        db'.message? ("dlq:" ++ stale.jobId.val ++ ":" ++ toString stale.deliveryAttempts) =
          some message ∧ message.subject = jobsDeadSubject) := by
  simp only [recoverStaleJobWith, Tx.bind_commits, Tx.require_commits, lockJob_commits] at h
  obtain ⟨_, _, ⟨hmax, rfl⟩, found, _, ⟨hfound, rfl⟩, h⟩ := h
  have lost : ∀ {d : RecoveryDisposition} {d' : Db},
      (pure .lostRace : RepoTx RecoveryDisposition).Commits db d d' → d = .lostRace ∧ db = d' := by
    intro d d' hp
    obtain ⟨rfl, rfl⟩ := Tx.pure_commits.mp hp
    exact ⟨rfl, rfl⟩
  cases found with
  | none => exact Or.inl (lost h)
  | some row =>
      simp only [Tx.bind_commits] at h
      obtain ⟨matched, _, hmatched, h⟩ := h
      obtain ⟨rfl, hfence⟩ := snapshotMatches_commits hmatched
      split at h
      · exact Or.inl (lost h)
      next hlive =>
      simp only [Bool.or_eq_true, not_or, Bool.not_eq_true', Bool.not_eq_false, decide_eq_true_eq,
        Bool.not_eq_true] at hlive
      obtain ⟨⟨hm, hnq⟩, hnt⟩ := hlive
      obtain ⟨hw, hl, hs, he, ha⟩ := hfence hm
      simp only [Tx.bind_commits, lockWorker_commits] at h
      obtain ⟨worker?, _, ⟨hworker, rfl⟩, h⟩ := h
      cases worker? with
      | none => exact Or.inl (lost h)
      | some worker =>
          simp only at h
          split at h
          · exact Or.inl (lost h)
          next hstale =>
          simp only [Tx.bind_commits] at h
          obtain ⟨updated, db₀, hup, h⟩ := h
          rcases updateJob_commits hup with ⟨rfl, rfl, _⟩ | ⟨row₀, hc, hrow₀, _, rfl, rfl⟩
          · exact Or.inl (lost h)
          obtain rfl : row₀ = row := Option.some.inj (hrow₀.symm.trans hfound)
          simp only [Tx.bind_commits] at h
          obtain ⟨_, db₁, hrel, event, db₂, hev, h⟩ := h
          obtain ⟨rfl, hcat, hwork, hjobs, hevents, _, hgrew, _⟩ := appendEvent_commits hev
          have hcause : stale.leaseExpiresAt ≤ stale.leaseExpiredBefore ∨
              worker.lastHeartbeatAt ≤ stale.workerHeartbeatBefore := by
            simp only [Bool.and_eq_true, Bool.not_eq_true', decide_eq_false_iff_not] at hstale
            by_contra hn
            exact hstale ⟨fun hx => hn (Or.inl hx), fun hx => hn (Or.inr hx)⟩
          refine Or.inr ⟨row₀, worker, hc, db₁, by simpa using hmax, hfound,
            ⟨hw, hl, hs, he, ha, hnq, hnt⟩, hworker, hcause, ?_⟩
          have hweb : OutboxGrew (IsRecoveryRow stale (recoveryKind stale maxDeliver row₀)) db₁ db₂ :=
            OutboxGrew.mono (fun _ _ hk => Or.inl hk) hgrew
          -- the marker of an exhausted job is the last write
          by_cases hk : recoveryKind stale maxDeliver row₀ = .exhausted
          · simp only [hk, if_true, Tx.bind_commits, Tx.pure_commits] at h
            obtain ⟨_, db₃, hmark, rfl, rfl⟩ := h
            obtain ⟨honly, hgrew', hmarker⟩ := insertExhaustionMarker_commits hmark
            refine ⟨by rw [hk], hrel, by rw [honly.catalog, hcat], by rw [honly.workers, hwork],
              by rw [honly.jobs, hjobs], ⟨_, by rw [honly.events, hevents], List.mem_cons_self⟩, ?_, fun _ => hmarker⟩
            rw [hk] at hweb ⊢
            exact hweb.trans hgrew'
          · simp only [hk, if_false, Tx.pure_commits] at h
            obtain ⟨rfl, rfl⟩ := h
            exact ⟨rfl, hrel, hcat, hwork, hjobs, ⟨_, hevents, List.mem_cons_self⟩, hweb, fun hx => absurd hx hk⟩

/-! ## Scheduling snapshots -/

/-- What a snapshot shows of the row of job `j`. -/
structure JobSchedulingSnapshot.Shows (snap : JobSchedulingSnapshot) (j : JobId) (row : JobRow) :
    Prop where
  job : snap.job = row.intoJob j
  queued : snap.queued = row.queued j
  lease : row.lease = .ok snap.lease
  expires : snap.leaseExpiresAt = row.leaseExpiresAt
  attempts : snap.deliveryAttempts = row.deliveryAttempts
  pending : snap.pendingOutcome = row.pendingOutcome

namespace JobSchedulingSnapshot.Shows

variable {snap : JobSchedulingSnapshot} {j : JobId} {row : JobRow}

/-- A snapshot without a lease is of a row without one. -/
theorem unleased (h : snap.Shows j row) (hlease : snap.lease = none) : row.leaseId = none := by
  have hl := h.lease
  rw [hlease] at hl
  unfold JobRow.lease at hl
  split at hl
  · cases hl
  · assumption
  · assumption
  · cases hl

/-- The lease of a snapshot is the lease of the row. -/
theorem leased (h : snap.Shows j row) {g : LeaseGuard} (hlease : snap.lease = some g) :
    row.workerId = some g.workerId ∧ row.leaseId = some g.leaseId := by
  have hl := h.lease
  rw [hlease] at hl
  unfold JobRow.lease at hl
  split at hl
  · next w l hw hlid =>
      obtain rfl := Option.some.inj (Except.ok.inj hl)
      exact ⟨hw, hlid⟩
  · cases hl
  · cases hl
  · cases hl

theorem leaseId_eq_none_iff (h : snap.Shows j row) : row.leaseId = none ↔ snap.lease = none := by
  constructor
  · intro hnone
    cases hlease : snap.lease with
    | none => rfl
    | some g =>
        rw [(h.leased hlease).2] at hnone
        cases hnone
  · exact h.unleased

end JobSchedulingSnapshot.Shows

/-- A snapshot shows the row of its job. -/
theorem getJobSchedulingSnapshot_commits {j : JobId} {db db' : Db}
    {out : Option JobSchedulingSnapshot} (h : (getJobSchedulingSnapshot j).Commits db out db') :
    (out = none → db.job? j = none) ∧
      ∀ snap ∈ out, ∃ row, db.job? j = some row ∧ snap.Shows j row := by
  simp only [getJobSchedulingSnapshot, Tx.bind_commits, lockJob_commits] at h
  obtain ⟨found, _, ⟨hrow, rfl⟩, h⟩ := h
  cases found with
  | none =>
      obtain ⟨rfl, rfl⟩ := Tx.pure_commits.mp h
      exact ⟨fun _ => hrow, fun snap hs => by cases hs⟩
  | some row =>
      simp only [Tx.bind_commits, Tx.okOr_commits, Tx.ofExcept_commits, Tx.pure_commits] at h
      obtain ⟨profile?, _, hload, profile, _, ⟨hprofile, rfl⟩, lease, _, ⟨hlease, rfl⟩, h⟩ := h
      obtain ⟨attempts, _, ⟨hattempts, rfl⟩, rfl, rfl⟩ := h
      obtain ⟨rfl, hvalid⟩ := loadProfile_commits hload
      refine ⟨fun hn => absurd hn (Option.some_ne_none _), fun snap hs => ?_⟩
      obtain rfl := Option.some.inj hs
      refine ⟨row, hrow, rfl, ?_, hlease, rfl, ?_, rfl⟩
      · -- the profile is the one the row names
        have hid := (hvalid profile hprofile).1
        unfold JobRow.queued
        rw [hid]
      · unfold toU32 at hattempts
        split at hattempts
        · exact (Except.ok.inj hattempts).symm
        · cases hattempts

end RunAnywhere
