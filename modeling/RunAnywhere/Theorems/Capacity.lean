import RunAnywhere.Repository.Run

/-!
# Worker capacity is conserved

`workers.active_jobs` counts the leased jobs of its worker (`Db.Balanced`). A claim
reserves and leases in one transaction, and each call that ends a lease releases
its owner once: a row that has not ended and has an owner is leased
(`JobRow.Owned`), so the owner of a row that ends is counted, and the owner that
stays on a terminal row is not released again.
-/

namespace RunAnywhere

open Logic

/-- Job rows leased to worker `w`. -/
def JobRow.leasedTo (w : WorkerId) (row : JobRow) : Bool :=
  row.leaseId.isSome && decide (row.workerId = some w)

/-- The number of job rows leased to `w`. -/
def Db.leasedCount (db : Db) (w : WorkerId) : Nat :=
  Table.countRows db.jobs fun _ row => row.leasedTo w

/-- `active_jobs` of `w`, 0 for a worker without a row. -/
def Db.activeJobs (db : Db) (w : WorkerId) : Nat :=
  match db.worker? w with
  | some worker => worker.activeJobs
  | none => 0

/-- Every counter is the number of leased jobs of its worker. -/
def Db.Balanced (db : Db) : Prop := ∀ w, db.activeJobs w = db.leasedCount w

/-- An owned row that has not ended is leased. -/
def JobRow.Owned (row : JobRow) : Prop :=
  row.state.isTerminal = false → row.workerId.isSome → row.leaseId.isSome

/-- **Ownership.** Every change of a row keeps it. -/
theorem RowChange.owned {op : Op} {t : DbTime} {j : JobId} {old : Option JobRow} {new : JobRow}
    (h : RowChange op t j old new) (hold : ∀ row ∈ old, row.Checks ∧ row.Owned) : new.Owned := by
  intro hlive hworker
  cases h with
  | create => cases hworker
  | cancel hl _ => exact (hold _ rfl).2 hl hworker
  | claim => rfl
  | @transition _ source target _ _ _ _ _ row hval hguard =>
      -- only a terminal target clears the lease
      have hnone : target.terminalOutcome = none := (JobState.terminalOutcome_eq_none _).mpr hlive
      have hsource : row.state.isTerminal = false := by
        have hguard' := hguard
        simp only [transitionGuard, Bool.and_eq_true, decide_eq_true_eq] at hguard'
        rw [hguard'.1.1]
        exact (validateTransition_edge hval).source_live
      have hkeep := (hold _ rfl).2 hsource hworker
      show (if target.terminalOutcome.isSome then none else row.leaseId).isSome
      rw [hnone]
      exact hkeep
  | result => exact (hold _ rfl).2 hlive hworker
  | heartbeat => exact (hold _ rfl).2 hlive hworker
  | @recover stale maxDeliver _ _ row _ =>
      -- a recovered row has no owner
      have hnone : (row.recovered (recoveryKind stale maxDeliver row)).workerId = none := by
        cases recoveryKind stale maxDeliver row <;> rfl
      rw [hnone] at hworker
      cases hworker

theorem owned_invariant (Allowed : Op → Prop) :
    (repository Allowed).Invariant fun db => ∀ j row, db.job? j = some row → row.Owned :=
  rows_invariant fun _ _ _ _ _ _ h hold _ => h.owned hold

/-! ## What a write does to the two counts -/

theorem Db.leasedCount_of_jobs {db db' : Db} (h : db'.jobs = db.jobs) (w : WorkerId) :
    db'.leasedCount w = db.leasedCount w := by
  unfold Db.leasedCount; rw [h]

theorem Db.activeJobs_of_workers {db db' : Db} (h : db'.workers = db.workers) (w : WorkerId) :
    db'.activeJobs w = db.activeJobs w := by
  unfold Db.activeJobs Db.worker?; rw [h]

/-- The counter of one worker after its row was stored. -/
theorem Db.activeJobs_put {db db' : Db} {w₀ : WorkerId} {row : WorkerRow} (hc : row.Checks)
    (h : db'.workers = db.workers.put w₀ ⟨row, hc⟩) (w : WorkerId) :
    db'.activeJobs w = if w = w₀ then row.activeJobs else db.activeJobs w := by
  have hget : db'.worker? w = if w = w₀ then some row else db.worker? w := by
    unfold Db.worker?
    rw [h]
    exact Table.row?_put db.workers w₀ row hc w
  unfold Db.activeJobs
  rw [hget]
  by_cases hw : w = w₀
  · rw [if_pos hw, if_pos hw]
  · rw [if_neg hw, if_neg hw]

/-- Storing a row that is leased as the row it replaces moves no count. -/
theorem Db.leasedCount_put {db db' : Db} {j : JobId} {row row' : JobRow} (hc : row'.Checks)
    (hrow : db.job? j = some row) (h : db'.jobs = db.jobs.put j ⟨row', hc⟩)
    (hsame : ∀ w, row'.leasedTo w = row.leasedTo w) (w : WorkerId) :
    db'.leasedCount w = db.leasedCount w := by
  unfold Db.leasedCount
  rw [h]
  exact Table.countRows_put_eq db.jobs hrow (hsame w)

/-- Storing a row without a lease over one leased to `w₀` takes one from `w₀`. -/
theorem Db.leasedCount_unlease {db : Db} {j : JobId} {row row' : JobRow} {w₀ : WorkerId}
    (hrow : db.job? j = some row) (hc : row'.Checks) (hw : row.workerId = some w₀)
    (hl : row.leaseId.isSome) (hnone : row'.leaseId = none) (w : WorkerId) :
    Db.leasedCount { db with jobs := db.jobs.put j ⟨row', hc⟩ } w + (if w = w₀ then 1 else 0) =
      db.leasedCount w := by
  have hput := Table.countRows_put db.jobs j row' hc fun _ r => r.leasedTo w
  have hold : Table.row? db.jobs j = some row := hrow
  have hnew : row'.leasedTo w = false := by simp [JobRow.leasedTo, hnone]
  have hwas : row.leasedTo w = decide (w = w₀) := by
    simp [JobRow.leasedTo, hl, hw, eq_comm]
  unfold Db.leasedCount
  rw [hold, hnew] at hput
  simp only [Option.any_some, hwas, Bool.toNat_false, Nat.add_zero] at hput
  rw [← hput]
  by_cases hww : w = w₀ <;> simp [hww]

/-- Releasing an owner that is counted takes one from its counter. -/
theorem releaseWorkerCapacity_activeJobs {t : DbTime} {w₀ : WorkerId} {db db' : Db} {u : Unit}
    (h : (releaseWorkerCapacity t w₀).Commits db u db') (hpos : 0 < db.activeJobs w₀)
    (w : WorkerId) : db'.activeJobs w + (if w = w₀ then 1 else 0) = db.activeJobs w := by
  rcases releaseWorkerCapacity_commits h with ⟨hnone, _⟩ | ⟨row, hc, hrow, rfl⟩
  · simp [Db.activeJobs, hnone] at hpos
  · have hact : db.activeJobs w₀ = row.activeJobs := by simp [Db.activeJobs, hrow]
    rw [hact] at hpos
    rw [Db.activeJobs_put hc rfl w]
    by_cases hww : w = w₀
    · subst hww
      rw [if_pos rfl, if_pos rfl, hact]
      show row.activeJobs - 1 + 1 = row.activeJobs
      omega
    · rw [if_neg hww, if_neg hww, Nat.add_zero]

/-! ## Balance -/

/-- Storing a worker row with the counter of the row it replaces keeps the balance. -/
theorem Db.Balanced.put_worker {db db' : Db} (hbal : db.Balanced) {w₀ : WorkerId}
    {row : WorkerRow} {hc : row.Checks} (hworkers : db'.workers = db.workers.put w₀ ⟨row, hc⟩)
    (hcount : ∀ w, db'.leasedCount w = db.leasedCount w)
    (hsame : row.activeJobs = db.activeJobs w₀) : db'.Balanced := by
  intro w
  rw [Db.activeJobs_put hc hworkers w, hcount w, ← hbal w]
  split
  · next hw => rw [hsame, hw]
  · rfl

/-- A job leased to `w` makes the counter of `w` positive. -/
theorem Db.Balanced.activeJobs_pos {db : Db} (h : db.Balanced) {j : JobId} {row : JobRow}
    {w : WorkerId} (hrow : db.job? j = some row) (hw : row.workerId = some w)
    (hl : row.leaseId.isSome) : 0 < db.activeJobs w := by
  rw [h w]
  exact Table.countRows_pos db.jobs hrow (by simp [JobRow.leasedTo, hw, hl])

/-- The heartbeat loop extends leases and ends none. -/
theorem extendLeases_leasedCount {w₀ : WorkerId} {now : Time} {secs : Int}
    {exts : List JobLeaseExtension} {db db' : Db} {receipt : HeartbeatReceipt}
    (h : (extendLeases w₀ now secs exts).Commits db receipt db') (w : WorkerId) :
    db'.leasedCount w = db.leasedCount w := by
  induction exts generalizing db receipt with
  | nil =>
      obtain ⟨_, rfl⟩ := Tx.pure_commits.mp h
      rfl
  | cons e rest ih =>
      simp only [extendLeases, Tx.bind_commits, Tx.pure_commits] at h
      obtain ⟨_, db₁, hone, _, _, hrest, _, rfl⟩ := h
      rw [ih hrest]
      rcases (extendLease_commits hone).2 with ⟨rfl, _⟩ | ⟨row, hc, hrow, _, rfl⟩
      · rfl
      · exact Db.leasedCount_put hc hrow rfl (fun _ => rfl) w

/-- **Balance.** A committed call moves both counts alike. -/
theorem Op.balanced {op : Op} {t : DbTime} {db db' : Db} {out : op.Out}
    (h : (op.tx t).Commits db out db') (hbal : db.Balanced)
    (howned : ∀ j row, db.job? j = some row → row.Owned) : db'.Balanced := by
  -- calls that leave both tables alone
  have hkeep : db'.workers = db.workers → db'.jobs = db.jobs → db'.Balanced := by
    intro hw hj w
    rw [Db.activeJobs_of_workers hw, Db.leasedCount_of_jobs hj]
    exact hbal w
  cases op with
  | setCatalog catalog =>
      obtain rfl := Tx.write_commits.mp h
      exact hkeep rfl rfl
  | upsertWorker registration =>
      rcases upsertWorker_commits h with ⟨hc, hnone, rfl⟩ | ⟨row, hc, hrow, rfl⟩
      · exact hbal.put_worker rfl (fun _ => rfl) (by simp [Db.activeJobs, hnone, newWorkerRow])
      · exact hbal.put_worker rfl (fun _ => rfl) (by simp [Db.activeJobs, hrow, WorkerRow.registered])
  | setWorkerState w₀ state =>
      obtain ⟨row, hc, hrow, rfl⟩ := setWorkerState_commits h
      exact hbal.put_worker rfl (fun _ => rfl) (by simp [Db.activeJobs, hrow, WorkerRow.withState])
  | recordHeartbeat heartbeat leaseTtl =>
      obtain ⟨row, hc, db₁, _, hrow, rfl, hloop, honly, _⟩ := recordHeartbeat_commits h
      exact hbal.put_worker honly.workers
        (fun w => (extendLeases_leasedCount hloop w).trans (Db.leasedCount_of_jobs rfl w))
        (by simp [Db.activeJobs, hrow, WorkerRow.heartbeat])
  | createJobWithOutbox id eventId request key headers =>
      rcases createJobWithOutbox_commits h with ⟨_, _, _, _, rfl⟩ |
        ⟨hc, _, _, hnone, _, _, _, _, hwork, hjobs, _⟩
      · exact hkeep rfl rfl
      · -- a new job is not leased
        intro w
        have hput := Table.countRows_put db.jobs id (newJobRow request key t) hc
          fun _ r => r.leasedTo w
        have hold : Table.row? db.jobs id = none := hnone
        have hnew : (newJobRow request key t).leasedTo w = false := rfl
        rw [hold, hnew] at hput
        rw [Db.activeJobs_of_workers hwork, hbal w]
        unfold Db.leasedCount
        rw [hjobs]
        simpa using hput.symm
  | requestJobCancellation j eventId =>
      obtain ⟨row, hrow, _, hcase⟩ := requestJobCancellation_commits h
      rcases hcase with ⟨_, _, rfl⟩ | ⟨hc, _, _, _, _, _, hwork, hjobs, _⟩
      · exact hkeep rfl rfl
      · intro w
        rw [Db.activeJobs_of_workers hwork, Db.leasedCount_put _ hrow hjobs (fun _ => rfl)]
        exact hbal w
  | claimJobWithOptions j w₀ l expires options eventId =>
      obtain ⟨row, worker, hc, hw, hrow, _, hfree, hunleased, _, hworker, h⟩ :=
        claimJobWithOptions_commits h
      obtain ⟨_, _, _, _, _, _, hwork, hjobs, _⟩ := h
      -- one reservation for one new lease
      intro w
      have hput := Table.countRows_put db.jobs j (row.claimed w₀ l expires t.clock) hc
        fun _ r => r.leasedTo w
      have hold : Table.row? db.jobs j = some row := hrow
      have hwas : row.leasedTo w = false := by simp [JobRow.leasedTo, hunleased]
      have hnew : (row.claimed w₀ l expires t.clock).leasedTo w = decide (w = w₀) := by
        simp [JobRow.leasedTo, JobRow.claimed, eq_comm]
      rw [hold] at hput
      simp only [Option.any_some, hwas, hnew, Bool.toNat_false, Nat.add_zero] at hput
      have hcount : db'.leasedCount w = db.leasedCount w + (decide (w = w₀)).toNat := by
        unfold Db.leasedCount
        rw [hjobs]
        exact hput
      rw [Db.activeJobs_put _ hwork w, hcount, ← hbal w]
      by_cases hww : w = w₀
      · subst hww
        simp [Db.activeJobs, hworker, WorkerRow.reserved]
      · simp [hww]
  | transitionJobState j source target evidence lease payload eventId =>
      obtain ⟨row, hc, db₁, hval, hrow, hguard, _, hrel, _, hwork, hjobs, _⟩ :=
        transitionJobStateWith_commits h
      intro w
      rw [Db.activeJobs_of_workers hwork, Db.leasedCount_of_jobs hjobs]
      cases hr : releasesOn target row with
      | none =>
          rw [hr] at hrel
          subst hrel
          -- nobody is released: the row keeps its lease columns, or had none
          rw [Db.leasedCount_put _ hrow rfl ?_]
          · exact hbal w
          · intro w'
            by_cases hterm : target.isTerminal = true
            · have hfree : row.workerId = none := by simpa [releasesOn, hterm] using hr
              simp [JobRow.leasedTo, JobRow.transitioned, hfree]
            · have hnone : target.terminalOutcome = none :=
                (JobState.terminalOutcome_eq_none _).mpr (by simpa using hterm)
              simp [JobRow.leasedTo, JobRow.transitioned, hnone]
      | some w₀ =>
          rw [hr] at hrel
          have hterm : target.isTerminal = true := by
            by_contra hn
            simp [releasesOn, hn] at hr
          have hw₀ : row.workerId = some w₀ := by simpa [releasesOn, hterm] using hr
          have hlive : row.state.isTerminal = false := by
            simp only [transitionGuard, Bool.and_eq_true, decide_eq_true_eq] at hguard
            rw [hguard.1.1]
            exact (validateTransition_edge hval).source_live
          have hl : row.leaseId.isSome := howned j row hrow hlive (by rw [hw₀]; rfl)
          have hnone : (row.transitioned target evidence t).leaseId = none := by
            obtain ⟨o, ho⟩ := (JobState.isTerminal_iff target).mp hterm
            show (if target.terminalOutcome.isSome then none else row.leaseId) = none
            rw [ho]; rfl
          have hpos := hbal.activeJobs_pos hrow hw₀ hl
          have hact := releaseWorkerCapacity_activeJobs hrel hpos w
          have hcount := Db.leasedCount_unlease hrow hc hw₀ hl hnone w
          have hjobs₁ := (releaseWorkerCapacity_frame hrel).1
          rw [Db.leasedCount_of_jobs hjobs₁]
          have hb := hbal w
          change db₁.activeJobs w + (if w = w₀ then 1 else 0) = db.activeJobs w at hact
          omega
  | recordJobResult result eventId =>
      obtain ⟨row, hc, hrow, _, _, _, _, hwork, hjobs, _⟩ := recordJobResult_commits h
      intro w
      rw [Db.activeJobs_of_workers hwork, Db.leasedCount_put _ hrow hjobs (fun _ => rfl)]
      exact hbal w
  | recoverStaleJob stale maxDeliver eventId =>
      rcases recoverStaleJobWith_commits h with ⟨_, rfl⟩ |
        ⟨row, worker, hc, db₁, _, hrow, hfence, _, _, _, hrel, _, hwork, hjobs, _⟩
      · exact hbal
      · intro w
        have hl : row.leaseId.isSome := by rw [hfence.lease]; rfl
        have hnone : (row.recovered (recoveryKind stale maxDeliver row)).leaseId = none := by
          cases recoveryKind stale maxDeliver row <;> rfl
        have hpos := hbal.activeJobs_pos hrow hfence.worker hl
        have hact := releaseWorkerCapacity_activeJobs hrel hpos w
        have hcount := Db.leasedCount_unlease hrow hc hfence.worker hl hnone w
        rw [Db.activeJobs_of_workers hwork, Db.leasedCount_of_jobs hjobs,
          Db.leasedCount_of_jobs (releaseWorkerCapacity_frame hrel).1]
        have hb := hbal w
        change db₁.activeJobs w + (if w = stale.workerId then 1 else 0) = db.activeJobs w at hact
        omega
  | enqueueJobDeadLetter deadLetter headers =>
      obtain ⟨_, _, _, _, _, _, honly, _⟩ := insertJobDeadLetterOutbox_commits h
      exact hkeep honly.workers honly.jobs
  | leaseOutboxMessages dispatcherId subject leaseTimeout limit skip =>
      have honly := (leaseOutboxMessagesForSubject_kept h).1.only
      exact hkeep honly.workers honly.jobs
  | markOutboxPublished id dispatcherId =>
      have honly := (markOutboxPublished_kept h).only
      exact hkeep honly.workers honly.jobs
  | retryOutboxMessage id dispatcherId availableAt lastError =>
      have honly := (retryOutboxMessage_kept h).only
      exact hkeep honly.workers honly.jobs

theorem balanced_invariant (Allowed : Op → Prop) :
    (repository Allowed).Invariant Db.Balanced := by
  refine TSys.Inductive.invariant ⟨?_, ?_⟩
  · rintro _ ⟨catalog, rfl⟩ w
    rfl
  · intro db call db' hreach hbal hstep
    rcases repository_step_cases hstep with ⟨_, _, hc⟩ | ⟨_, rfl⟩
    · exact Op.balanced hc hbal (owned_invariant Allowed db hreach)
    · exact hbal

/-! ## Releases -/

/-- `release` does what `release_worker_capacity` does, except that it may do
anything at all to a worker whose counter is 0. -/
def AgreesAboveZero (release : DbTime → WorkerId → RepoTx Unit) : Prop :=
  ∀ t w db, 0 < db.activeJobs w → release t w db = releaseWorkerCapacity t w db

/-- A release that reports a counter of 0 instead of stopping there. -/
def releaseStrict (t : DbTime) (w : WorkerId) : RepoTx Unit := fun db =>
  if db.activeJobs w = 0 then .error (.conflict "worker has no reservation to release")
  else releaseWorkerCapacity t w db

theorem releaseStrict_agrees : AgreesAboveZero releaseStrict := by
  intro t w db hpos
  unfold releaseStrict
  rw [if_neg (by omega)]

/-- A transition meets its release only with the owner counted. -/
theorem transitionJobStateWith_agrees {release : DbTime → WorkerId → RepoTx Unit}
    (hrelease : AgreesAboveZero release) {j : JobId} {source target : JobState}
    {evidence : TransitionEvidence} {lease : Option LeaseGuard}
    {payload : List (String × EventValue)} {eventId : JobEventId} {t : DbTime} {db : Db}
    (hbal : db.Balanced) (howned : ∀ j row, db.job? j = some row → row.Owned) :
    transitionJobStateWith (release t) j source target evidence lease payload eventId t db =
      transitionJobStateWith (releaseWorkerCapacity t) j source target evidence lease payload
        eventId t db := by
  unfold transitionJobStateWith
  refine Tx.bind_congr fun _ _ hval => ?_
  refine Tx.bind_congr fun updated db₁ hup => ?_
  refine Tx.bind_congr fun row _ hsome => ?_
  obtain ⟨hok, rfl⟩ := Tx.ofExcept_commits.mp hval
  obtain ⟨rfl, rfl⟩ := Tx.okOr_commits.mp hsome
  have hedge := validateTransition_edge (Tx.mapError_eq_ok.mp hok)
  split
  · cases hw : row.workerId with
    | none => rfl
    | some w =>
        refine Tx.bind_congr_left (hrelease t w _ ?_)
        -- the owner of the row that is about to end is still counted
        rcases updateJob_commits hup with ⟨hnone, _⟩ | ⟨old, hc, hold, hguard, hnew, rfl⟩
        · cases hnone
        obtain rfl := Option.some.inj hnew
        simp only [transitionGuard, Bool.and_eq_true, decide_eq_true_eq] at hguard
        have hlive : old.state.isTerminal = false := by
          rw [hguard.1.1]; exact hedge.source_live
        have hw' : old.workerId = some w := hw
        exact hbal.activeJobs_pos hold hw' (howned j old hold hlive (by rw [hw']; rfl))
  · rfl

/-- A recovery meets its release only with the owner counted. -/
theorem recoverStaleJobWith_agrees {release : DbTime → WorkerId → RepoTx Unit}
    (hrelease : AgreesAboveZero release) {stale : StaleJob} {maxDeliver : Nat}
    {eventId : JobEventId} {t : DbTime} {db : Db} (hbal : db.Balanced) :
    recoverStaleJobWith (release t) stale maxDeliver eventId t db =
      recoverStaleJobWith (releaseWorkerCapacity t) stale maxDeliver eventId t db := by
  unfold recoverStaleJobWith
  refine Tx.bind_congr fun _ _ hmax => ?_
  obtain ⟨_, rfl⟩ := Tx.require_commits.mp hmax
  refine Tx.bind_congr fun found _ hfound => ?_
  obtain ⟨_, rfl⟩ := lockJob_commits.mp hfound
  cases found with
  | none => rfl
  | some current =>
  refine Tx.bind_congr fun matched _ hmatched => ?_
  obtain ⟨rfl, _⟩ := snapshotMatches_commits hmatched
  split
  · rfl
  refine Tx.bind_congr fun worker _ hworker => ?_
  obtain ⟨_, rfl⟩ := lockWorker_commits.mp hworker
  cases worker with
  | none => rfl
  | some worker =>
  dsimp only
  split
  · rfl
  refine Tx.bind_congr fun updated db₁ hup => ?_
  cases updated with
  | none => rfl
  | some row =>
  refine Tx.bind_congr_left (hrelease t stale.workerId _ ?_)
  rcases updateJob_commits hup with ⟨hnone, _⟩ | ⟨old, hc, hold, hguard, hnew, rfl⟩
  · cases hnone
  simp only [recoverGuard, Bool.and_eq_true, JobRow.heldBy_iff] at hguard
  exact hbal.activeJobs_pos hold hguard.1.1.1.1 (by rw [hguard.1.1.1.2]; rfl)

/-- **Capacity.** In every reachable database the counter of each worker is the
number of its leased jobs and within its capacity, and no call releases a worker
whose counter is 0: what a release would do there is of no consequence. -/
theorem capacity_conserved (Allowed : Op → Prop) {db : Db}
    (hreach : (repository Allowed).Reachable db) (w : WorkerId) :
    db.activeJobs w = db.leasedCount w ∧
    (∀ worker, db.worker? w = some worker → worker.activeJobs = db.leasedCount w ∧
      worker.activeJobs ≤ worker.capacity) ∧
    ∀ release, AgreesAboveZero release → ∀ (op : Op) (t : DbTime),
      op.txWith release t db = op.tx t db := by
  have hbal := balanced_invariant Allowed db hreach
  refine ⟨hbal w, ?_, ?_⟩
  · intro worker hworker
    refine ⟨?_, (Db.worker?_checks hworker).withinCapacity⟩
    rw [← hbal w]
    simp [Db.activeJobs, hworker]
  · intro release hrelease op t
    cases op with
    | transitionJobState =>
        exact transitionJobStateWith_agrees hrelease hbal (owned_invariant Allowed db hreach)
    | recoverStaleJob => exact recoverStaleJobWith_agrees hrelease hbal
    | _ => rfl

/-- A claimed job is counted, and its recovery releases its owner once. -/
theorem capacity_conserved_claimed :
    (Sample.after Sample.claimed).activeJobs Sample.worker = 1 ∧
    (Sample.after Sample.claimed).leasedCount Sample.worker = 1 ∧
    (Sample.recover .claimed 3 2).txWith releaseStrict (Sample.at_ 250)
        (Sample.after Sample.claimed) =
      (Sample.recover .claimed 3 2).tx (Sample.at_ 250) (Sample.after Sample.claimed) := by
  have hreach : (repository fun _ => True).Reachable (Sample.after Sample.claimed) :=
    Sample.after_reachable fun _ _ => trivial
  have h := capacity_conserved (fun _ => True) hreach Sample.worker
  have hone : (Sample.after Sample.claimed).activeJobs Sample.worker = 1 := by decide +kernel
  exact ⟨hone, h.1 ▸ hone, h.2.2 _ releaseStrict_agrees _ _⟩

end RunAnywhere
