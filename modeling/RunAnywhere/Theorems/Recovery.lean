import RunAnywhere.Theorems.Attempts
import RunAnywhere.Theorems.Capacity

/-!
# Recovery acts on a snapshot

`recover_stale_job` is given a snapshot that other calls may have overtaken. What it
compares is `Db.Recovers`:

* **otherwise nothing** — where `Recovers` fails the answer is `lostRace` and the
  database is as before (`recoverStaleJob_lostRace`);
* **overtaken** — a job's attempts and its place on the spine only go up while it is
  leased (`RowChange.reached`), so once its state or lease has changed the snapshot
  never matches again (`StaleJob.Past`);
* **renewed** — calls made after the cutoffs of the scan leave a renewed lease and a
  refreshed worker beyond them.
-/

namespace RunAnywhere

open Logic

/-- The job still carries the fence of the snapshot, and its lease is at or before the
lease cutoff or its worker's last heartbeat at or before the heartbeat cutoff. -/
def Db.Recovers (db : Db) (stale : StaleJob) : Prop :=
  ∃ row worker, db.job? stale.jobId = some row ∧ Recoverable stale row ∧
    db.worker? stale.workerId = some worker ∧
    ((∃ e, row.leaseExpiresAt = some e ∧ e ≤ stale.leaseExpiredBefore) ∨
      worker.lastHeartbeatAt ≤ stale.workerHeartbeatBefore)

/-! ## The scan -/

theorem staleRow_some {criteria : StaleJobCriteria} {db : Db} {j : JobId} {row : JobRow}
    {stale : StaleJob} (h : staleRow criteria db j row = some stale) :
    stale.jobId = j ∧ Recoverable stale row ∧
      stale.leaseExpiredBefore = criteria.leaseExpiredBefore ∧
      stale.workerHeartbeatBefore = criteria.workerHeartbeatBefore := by
  unfold staleRow at h
  split at h
  · next w l e hw hl he =>
      split at h
      · cases h
      · split at h
        · next hcond =>
            obtain rfl := Option.some.inj h
            simp only [Bool.and_eq_true, Bool.not_eq_true', Bool.or_eq_false_iff,
              decide_eq_false_iff_not] at hcond
            exact ⟨rfl, ⟨hw, hl, rfl, he, rfl, hcond.1.1, hcond.1.2⟩, rfl, rfl⟩
        · cases h
  · cases h

/-- **Scan.** A scan changes nothing, and its snapshots carry the fence of their jobs. -/
theorem findStaleJobs_commits {criteria : StaleJobCriteria} {db db' : Db} {found : List StaleJob}
    (h : (findStaleJobs criteria).Commits db found db') :
    db = db' ∧ ∀ stale ∈ found, ∃ row, db.job? stale.jobId = some row ∧ Recoverable stale row ∧
      stale.leaseExpiredBefore = criteria.leaseExpiredBefore ∧
      stale.workerHeartbeatBefore = criteria.workerHeartbeatBefore := by
  simp only [findStaleJobs, checkedLimit, Tx.bind_commits, Tx.require_commits, Tx.read_commits,
    Tx.pure_commits] at h
  obtain ⟨_, _, ⟨_, rfl⟩, _, _, ⟨rfl, rfl⟩, _, _, ⟨_, rfl⟩, rfl, rfl⟩ := h
  refine ⟨rfl, fun stale hmem => ?_⟩
  have hscanned := (List.mem_insertionSort _).mp (List.mem_of_mem_take hmem)
  obtain ⟨⟨j, row⟩, hrow, hstale⟩ := List.mem_filterMap.mp hscanned
  obtain ⟨rfl, hfence, hcut⟩ := staleRow_some hstale
  refine ⟨row.val, ?_, hfence, hcut⟩
  unfold Db.job? Table.row?
  rw [(Table.mem_rows_iff _ _ _).mp hrow]
  rfl

/-! ## A lost race -/

/-- **Lost race.** Where the comparison fails, recovery answers so and changes nothing. -/
theorem recoverStaleJob_lostRace {db : Db} {stale : StaleJob} (hoff : ¬ db.Recovers stale)
    (hu32 : ∀ row, db.job? stale.jobId = some row → row.deliveryAttempts ≤ 4294967295)
    {maxDeliver : Nat} (hmax : maxDeliver ≠ 0) (eventId : JobEventId) (t : DbTime) :
    (recoverStaleJob stale maxDeliver eventId t).Commits db .lostRace db := by
  simp only [recoverStaleJob, recoverStaleJobWith, Tx.bind_commits, Tx.require_commits,
    lockJob_commits]
  refine ⟨(), db, ⟨by simpa using hmax, rfl⟩, db.job? stale.jobId, db, ⟨rfl, rfl⟩, ?_⟩
  cases hrow : db.job? stale.jobId with
  | none => exact Tx.pure_commits.mpr ⟨rfl, rfl⟩
  | some row =>
      -- the comparison of the snapshot decodes the attempts
      have hmatch : (snapshotMatches stale row).Commits db
          (row.heldBy stale.workerId stale.leaseId && decide (row.state = stale.state) &&
            (decide (row.deliveryAttempts = stale.deliveryAttempts) &&
              decide (row.leaseExpiresAt = some stale.leaseExpiresAt))) db := by
        unfold snapshotMatches
        split
        · next hfence =>
            have hdecode : toU32 "jobs.delivery_attempts" row.deliveryAttempts =
                .ok row.deliveryAttempts := by
              have := hu32 row hrow
              unfold toU32
              rw [if_pos (by omega)]
            simp only [Tx.bind_commits, Tx.ofExcept_commits, Tx.pure_commits]
            exact ⟨_, _, ⟨hdecode, rfl⟩, by simp [hfence], rfl⟩
        · next hfence =>
            refine Tx.pure_commits.mpr ⟨?_, rfl⟩
            simp only [Bool.not_eq_true] at hfence
            rw [hfence, Bool.false_and]
      simp only [Tx.bind_commits]
      refine ⟨_, db, hmatch, ?_⟩
      split
      · exact Tx.pure_commits.mpr ⟨rfl, rfl⟩
      next hlive =>
      simp only [Bool.or_eq_true, not_or, Bool.not_eq_true', Bool.not_eq_false, Bool.and_eq_true,
        decide_eq_true_eq, Bool.not_eq_true, JobRow.heldBy_iff] at hlive
      obtain ⟨⟨⟨⟨⟨hw, hl⟩, hs⟩, ha, he⟩, hnq⟩, hnt⟩ := hlive
      simp only [Tx.bind_commits, lockWorker_commits]
      refine ⟨db.worker? stale.workerId, db, ⟨rfl, rfl⟩, ?_⟩
      cases hworker : db.worker? stale.workerId with
      | none => exact Tx.pure_commits.mpr ⟨rfl, rfl⟩
      | some worker =>
          -- the fence holds, so both cutoffs must fail
          have hcut : ¬ (stale.leaseExpiresAt ≤ stale.leaseExpiredBefore ∨
              worker.lastHeartbeatAt ≤ stale.workerHeartbeatBefore) := by
            rintro (hx | hx)
            · exact hoff ⟨row, worker, hrow, ⟨hw, hl, hs, he, ha, hnq, hnt⟩, hworker,
                Or.inl ⟨_, he, hx⟩⟩
            · exact hoff ⟨row, worker, hrow, ⟨hw, hl, hs, he, ha, hnq, hnt⟩, hworker, Or.inr hx⟩
          rw [not_or] at hcut
          simp [hcut.1, hcut.2]

/-- **Recovered.** A recovery that ends a lease found the fence intact, and takes one
from the counter of the old worker and from no other. -/
theorem recoverStaleJob_releases {db db' : Db} (hbal : db.Balanced) {stale : StaleJob}
    {maxDeliver : Nat} {eventId : JobEventId} {t : DbTime} {out : RecoveryDisposition}
    (h : (recoverStaleJob stale maxDeliver eventId t).Commits db out db') (hout : out ≠ .lostRace) :
    db.Recovers stale ∧ ∀ w, db'.activeJobs w + (if w = stale.workerId then 1 else 0) =
      db.activeJobs w := by
  rcases recoverStaleJobWith_commits h with ⟨hlost, _⟩ |
    ⟨row, worker, hc, db₁, _, hrow, hfence, hworker, hcause, _, hrel, _, hwork, _⟩
  · exact absurd hlost hout
  · refine ⟨⟨row, worker, hrow, hfence, hworker, ?_⟩, fun w => ?_⟩
    · rcases hcause with hx | hx
      · exact Or.inl ⟨_, hfence.expires, hx⟩
      · exact Or.inr hx
    · have hpos := hbal.activeJobs_pos hrow hfence.worker (by rw [hfence.lease]; rfl)
      rw [Db.activeJobs_of_workers hwork]
      exact releaseWorkerCapacity_activeJobs hrel hpos w

/-! ## Overtaken snapshots -/

/-- The place of a state on the way of a job. -/
def JobState.rank : JobState → Nat
  | .queued => 0
  | .claimed => 1
  | .provisioningRuntime => 2
  | .booting => 3
  | .installingApk => 4
  | .runningTests => 5
  | .debugAvailable => 6
  | .collectingArtifacts => 7
  | .cleaningUp => 8
  | .passed | .failed | .cancelled | .timedOut | .infraFailed => 9

/-- Every edge goes up. -/
theorem Edge.rank_lt {evidence : TransitionEvidence} {source target : JobState}
    (h : Edge evidence source target) : source.rank < target.rank := by
  cases h with
  | spine hn => cases source <;> cases hn <;> decide
  | debug => decide
  | collect hs => rcases hs with rfl | rfl <;> decide
  | early he => cases source <;> first | decide | (simp [earlyOutcomeAllowed] at he)
  | cleanup => decide
  | finish ht => cases target <;> first | decide | cases ht

/-- The row is at the snapshot's place, or has been. -/
def StaleJob.Reached (stale : StaleJob) (row : JobRow) : Prop :=
  stale.deliveryAttempts < row.deliveryAttempts ∨
    (row.deliveryAttempts = stale.deliveryAttempts ∧
      (row.leaseId = none ∨ stale.state.rank ≤ row.state.rank))

/-- The row has left the snapshot's place: claimed again, unleased or further on. -/
def StaleJob.Past (stale : StaleJob) (row : JobRow) : Prop :=
  stale.deliveryAttempts < row.deliveryAttempts ∨
    (row.deliveryAttempts = stale.deliveryAttempts ∧
      (row.leaseId = none ∨ stale.state.rank < row.state.rank))

theorem StaleJob.Past.reached {stale : StaleJob} {row : JobRow} (h : stale.Past row) :
    stale.Reached row :=
  h.imp_right fun ⟨ha, hp⟩ => ⟨ha, hp.imp_right Nat.le_of_lt⟩

/-- A row that still carries the fence is at the snapshot's place. -/
theorem Recoverable.reached {stale : StaleJob} {row : JobRow} (h : Recoverable stale row) :
    stale.Reached row :=
  Or.inr ⟨h.attempts, Or.inr (Nat.le_of_eq (by rw [h.state]))⟩

/-- A row that has left the place does not carry the fence. -/
theorem StaleJob.Past.not_recoverable {stale : StaleJob} {row : JobRow} (h : stale.Past row) :
    ¬ Recoverable stale row := by
  intro hfence
  have ha := hfence.attempts
  rcases h with hlt | ⟨_, hnone | hrank⟩
  · omega
  · have hl := hfence.lease
    rw [hnone] at hl
    cases hl
  · rw [hfence.state] at hrank
    omega

/-- **One change.** A change keeps the row at or past the place, and one of its state
or lease takes it past. -/
theorem RowChange.reached {op : Op} {t : DbTime} {j : JobId} {old new : JobRow} {stale : StaleJob}
    (h : RowChange op t j (some old) new) (hs : old.Shape) (hr : stale.Reached old) :
    stale.Reached new ∧ (stale.Past old → stale.Past new) ∧
      (new.state ≠ old.state ∨ new.leaseId ≠ old.leaseId → stale.Past new) := by
  -- a change along an edge, with the attempts of the row and its lease or none
  have hedge : ∀ row : JobRow, row.deliveryAttempts = old.deliveryAttempts →
      (old.leaseId = none → row.leaseId = none) → old.state.rank < row.state.rank →
      stale.Past row := by
    intro row ha hl hrank
    rcases hr with hlt | ⟨heq, hnone | hle⟩
    · exact Or.inl (ha ▸ hlt)
    · exact Or.inr ⟨ha.trans heq, Or.inl (hl hnone)⟩
    · exact Or.inr ⟨ha.trans heq, Or.inr (Nat.lt_of_le_of_lt hle hrank)⟩
  cases h with
  | cancel hlive hp =>
      have hpast := hedge old.cancelRequested rfl id
        (cancelRequested_edge hs hlive hp).rank_lt
      exact ⟨hpast.reached, fun _ => hpast, fun _ => hpast⟩
  | @claim _ w l expires _ _ t _ _ _ _ _ =>
      have hpast : stale.Past (old.claimed w l expires t.clock) := by
        left
        show stale.deliveryAttempts < old.deliveryAttempts + 1
        rcases hr with hlt | ⟨heq, _⟩ <;> omega
      exact ⟨hpast.reached, fun _ => hpast, fun _ => hpast⟩
  | @transition _ source target evidence _ _ _ t _ hval hguard =>
      obtain rfl := (transitionGuard_iff.mp hguard).1
      have hpast := hedge (old.transitioned target evidence t) rfl
        (fun hnone => by
          show (if target.terminalOutcome.isSome then none else old.leaseId) = none
          rw [hnone, ite_self])
        (validateTransition_edge hval).rank_lt
      exact ⟨hpast.reached, fun _ => hpast, fun _ => hpast⟩
  | result => exact ⟨hr, id, fun hne => hne.elim (absurd rfl) (absurd rfl)⟩
  | heartbeat => exact ⟨hr, id, fun hne => hne.elim (absurd rfl) (absurd rfl)⟩
  | @recover stale' maxDeliver _ _ _ _ =>
      have hpast : stale.Past (old.recovered (recoveryKind stale' maxDeliver old)) := by
        have ha : (old.recovered (recoveryKind stale' maxDeliver old)).deliveryAttempts =
            old.deliveryAttempts := by
          cases recoveryKind stale' maxDeliver old <;> rfl
        have hnone : (old.recovered (recoveryKind stale' maxDeliver old)).leaseId = none := by
          cases recoveryKind stale' maxDeliver old <;> rfl
        rcases hr with hlt | ⟨heq, _⟩
        · exact Or.inl (ha ▸ hlt)
        · exact Or.inr ⟨ha.trans heq, Or.inl hnone⟩
      exact ⟨hpast.reached, fun _ => hpast, fun _ => hpast⟩

/-- The snapshot's job has a row at its place or past it. -/
def Db.Reaches (db : Db) (stale : StaleJob) : Prop :=
  ∃ row, db.job? stale.jobId = some row ∧ stale.Reached row

/-- The snapshot's job has a row past its place. -/
def Db.Passes (db : Db) (stale : StaleJob) : Prop :=
  ∃ row, db.job? stale.jobId = some row ∧ stale.Past row

theorem Db.Passes.not_recovers {db : Db} {stale : StaleJob} (h : db.Passes stale) :
    ¬ db.Recovers stale := by
  rintro ⟨row, _, hrow, hfence, _⟩
  obtain ⟨row', hrow', hpast⟩ := h
  obtain rfl := Option.some.inj (hrow.symm.trans hrow')
  exact hpast.not_recoverable hfence

/-- A step keeps the place of the job's row; one that changes its state or lease takes
it past. -/
theorem Db.Reaches.step {Allowed : Op → Prop} {db db' : Db} {call : Call} {stale : StaleJob}
    (h : db.Reaches stale) (hreach : (repository Allowed).Reachable db)
    (hstep : (repository Allowed).step db call db') :
    db'.Reaches stale ∧ (db.Passes stale → db'.Passes stale) ∧
      ∀ old new, db.job? stale.jobId = some old → db'.job? stale.jobId = some new →
        (new.state ≠ old.state ∨ new.leaseId ≠ old.leaseId) → db'.Passes stale := by
  obtain ⟨row, hrow, hr⟩ := h
  rcases repository_step_rows hstep stale.jobId with ⟨hsame, _⟩ | ⟨new, hnew, hchange⟩
  · refine ⟨⟨row, hsame.trans hrow, hr⟩, ?_, ?_⟩
    · rintro ⟨row', hrow', hpast⟩
      exact ⟨row', hsame.trans hrow', hpast⟩
    · intro old new hold hnew hne
      obtain rfl := Option.some.inj ((hsame ▸ hnew).symm.trans hold)
      exact hne.elim (absurd rfl) (absurd rfl)
  · rw [hrow] at hchange
    obtain ⟨hr', hpast', hmove⟩ := hchange.reached (shape_invariant Allowed db hreach _ row hrow) hr
    refine ⟨⟨new, hnew, hr'⟩, ?_, ?_⟩
    · rintro ⟨row', hrow', hpast⟩
      obtain rfl := Option.some.inj (hrow'.symm.trans hrow)
      exact ⟨new, hnew, hpast' hpast⟩
    · intro old new' hold hnew' hne
      obtain rfl := Option.some.inj (hold.symm.trans hrow)
      obtain rfl := Option.some.inj (hnew'.symm.trans hnew)
      exact ⟨new', hnew, hmove hne⟩

/-- **Run.** Along a run the row keeps its place. -/
theorem Db.Reaches.run {Allowed : Op → Prop} {db db' : Db} {calls : List Call} {stale : StaleJob}
    (hreach : (repository Allowed).Reachable db) (hrun : (repository Allowed).Run db calls db')
    (h : db.Reaches stale) : db'.Reaches stale ∧ (db.Passes stale → db'.Passes stale) := by
  refine ⟨hrun.preserves (fun s c s' hs hr hstep => (Db.Reaches.step hr hs hstep).1) hreach h, ?_⟩
  intro hpast
  refine (hrun.preserves (P := fun db => db.Reaches stale ∧ db.Passes stale)
    (fun s c s' hs hr hstep => ?_) hreach ⟨h, hpast⟩).2
  obtain ⟨hr', hp', _⟩ := Db.Reaches.step hr.1 hs hstep
  exact ⟨hr', hp' hr.2⟩

/-! ## Renewed leases and refreshed workers -/

/-- A committed call leaves a worker's last heartbeat, or sets it to its own time. -/
theorem Op.lastHeartbeat {op : Op} {t : DbTime} {db db' : Db} {out : op.Out}
    (h : (op.tx t).Commits db out db') {w : WorkerId} {worker : WorkerRow}
    (hw : db.worker? w = some worker) : ∃ worker', db'.worker? w = some worker' ∧
      (worker'.lastHeartbeatAt = worker.lastHeartbeatAt ∨ worker'.lastHeartbeatAt = t.now ∨
        worker'.lastHeartbeatAt = t.clock) := by
  have hkeep : db'.workers = db.workers → ∃ worker', db'.worker? w = some worker' ∧
      (worker'.lastHeartbeatAt = worker.lastHeartbeatAt ∨ worker'.lastHeartbeatAt = t.now ∨
        worker'.lastHeartbeatAt = t.clock) := by
    intro hworkers
    refine ⟨worker, ?_, Or.inl rfl⟩
    unfold Db.worker?
    rw [hworkers]
    exact hw
  -- one stored row, for `w` or for another worker
  have hput : ∀ {w₀ : WorkerId} {row : WorkerRow} {hc : row.Checks},
      db'.workers = db.workers.put w₀ ⟨row, hc⟩ →
      (∀ old, db.worker? w₀ = some old → row.lastHeartbeatAt = old.lastHeartbeatAt ∨
        row.lastHeartbeatAt = t.now ∨ row.lastHeartbeatAt = t.clock) →
      ∃ worker', db'.worker? w = some worker' ∧
        (worker'.lastHeartbeatAt = worker.lastHeartbeatAt ∨ worker'.lastHeartbeatAt = t.now ∨
          worker'.lastHeartbeatAt = t.clock) := by
    intro w₀ row hc hworkers hrow
    have hget : db'.worker? w = if w = w₀ then some row else db.worker? w := by
      unfold Db.worker?
      rw [hworkers]
      exact Table.row?_put db.workers w₀ row hc w
    by_cases hww : w = w₀
    · subst hww
      exact ⟨row, by rw [hget, if_pos rfl], hrow worker hw⟩
    · exact ⟨worker, by rw [hget, if_neg hww, hw], Or.inl rfl⟩
  have hreleased : ∀ {w₀ : WorkerId} {db₀ db₁ : Db} {u : Unit},
      (releaseWorkerCapacity t w₀).Commits db₀ u db₁ → db₀.workers = db.workers →
      db'.workers = db₁.workers → ∃ worker', db'.worker? w = some worker' ∧
        (worker'.lastHeartbeatAt = worker.lastHeartbeatAt ∨ worker'.lastHeartbeatAt = t.now ∨
          worker'.lastHeartbeatAt = t.clock) := by
    intro w₀ db₀ db₁ u hrel h₀ h₁
    rcases releaseWorkerCapacity_commits hrel with ⟨_, rfl⟩ | ⟨row, hc, hrow, rfl⟩
    · exact hkeep (h₁.trans h₀)
    · have h₁' : db'.workers = db.workers.put w₀ ⟨row.released t, hc⟩ := by
        rw [h₁, ← h₀]
      refine hput h₁' fun old hold => Or.inl ?_
      have hsame : db₀.worker? w₀ = db.worker? w₀ := by
        unfold Db.worker?
        rw [h₀]
      obtain rfl := Option.some.inj ((hsame ▸ hrow).symm.trans hold)
      rfl
  cases op with
  | setCatalog catalog =>
      obtain rfl := Tx.write_commits.mp h
      exact hkeep rfl
  | upsertWorker registration =>
      rcases upsertWorker_commits h with ⟨hc, _, rfl⟩ | ⟨row, hc, _, rfl⟩ <;>
        exact hput rfl fun _ _ => Or.inr (Or.inl rfl)
  | setWorkerState w₀ state =>
      obtain ⟨row, hc, hrow, rfl⟩ := setWorkerState_commits h
      refine hput rfl fun old hold => Or.inl ?_
      obtain rfl := Option.some.inj (hrow.symm.trans hold)
      rfl
  | recordHeartbeat heartbeat leaseTtl =>
      obtain ⟨row, hc, db₁, _, _, rfl, _, honly, _⟩ := recordHeartbeat_commits h
      exact hput honly.workers fun _ _ => Or.inr (Or.inr rfl)
  | createJobWithOutbox id eventId request key headers =>
      rcases createJobWithOutbox_commits h with ⟨_, _, _, _, rfl⟩ |
        ⟨_, _, _, _, _, _, _, _, hwork, _⟩
      · exact hkeep rfl
      · exact hkeep hwork
  | requestJobCancellation j eventId =>
      obtain ⟨row, _, _, hcase⟩ := requestJobCancellation_commits h
      rcases hcase with ⟨_, _, rfl⟩ | ⟨_, _, _, _, _, _, hwork, _⟩
      · exact hkeep rfl
      · exact hkeep hwork
  | claimJobWithOptions j w₀ l expires options eventId =>
      obtain ⟨row, worker₀, _, hc, _, _, _, _, _, hworker, h⟩ := claimJobWithOptions_commits h
      obtain ⟨_, _, _, _, _, _, hwork, _⟩ := h
      refine hput hwork fun old hold => Or.inl ?_
      obtain rfl := Option.some.inj (hworker.symm.trans hold)
      rfl
  | transitionJobState j source target evidence lease payload eventId =>
      obtain ⟨row, hc, db₁, _, _, _, _, hrel, _, hwork, _⟩ := transitionJobStateWith_commits h
      cases hr : releasesOn target row with
      | none =>
          rw [hr] at hrel
          subst hrel
          exact hkeep hwork
      | some w₀ =>
          rw [hr] at hrel
          exact hreleased hrel rfl hwork
  | recordJobResult result eventId =>
      obtain ⟨_, _, _, _, _, _, _, hwork, _⟩ := recordJobResult_commits h
      exact hkeep hwork
  | recoverStaleJob stale maxDeliver eventId =>
      rcases recoverStaleJobWith_commits h with ⟨_, rfl⟩ |
        ⟨_, _, _, db₁, _, _, _, _, _, _, hrel, _, hwork, _⟩
      · exact hkeep rfl
      · exact hreleased hrel rfl hwork
  | enqueueJobDeadLetter deadLetter headers =>
      obtain ⟨_, _, _, _, _, _, honly, _⟩ := insertJobDeadLetterOutbox_commits h
      exact hkeep honly.workers
  | leaseOutboxMessages dispatcherId subject leaseTimeout limit skip =>
      exact hkeep (leaseOutboxMessagesForSubject_kept h).1.only.workers
  | markOutboxPublished id dispatcherId =>
      exact hkeep (markOutboxPublished_kept h).only.workers
  | retryOutboxMessage id dispatcherId availableAt lastError =>
      exact hkeep (retryOutboxMessage_kept h).only.workers

/-- The call is made after the cutoffs of the snapshot. -/
structure Call.After (stale : StaleJob) (call : Call) : Prop where
  begun : stale.workerHeartbeatBefore < call.time.now
  heartbeat : stale.workerHeartbeatBefore < call.time.clock
  lease : stale.leaseExpiredBefore ≤ call.time.clock

/-- The snapshot's worker was heard of after the heartbeat cutoff. -/
def Db.Refreshed (db : Db) (stale : StaleJob) : Prop :=
  ∃ worker, db.worker? stale.workerId = some worker ∧
    stale.workerHeartbeatBefore < worker.lastHeartbeatAt

/-- The snapshot's job is past its place, or leased beyond the lease cutoff. -/
def Db.Renewed (db : Db) (stale : StaleJob) : Prop :=
  ∃ row, db.job? stale.jobId = some row ∧ (stale.Past row ∨
    ∃ e, row.leaseExpiresAt = some e ∧ stale.leaseExpiredBefore < e)

/-- A renewed lease of a refreshed worker is not recovered. -/
theorem Db.Renewed.not_recovers {db : Db} {stale : StaleJob} (h : db.Renewed stale)
    (hworker : db.Refreshed stale) : ¬ db.Recovers stale := by
  rintro ⟨row, worker, hrow, hfence, hw, hcause⟩
  obtain ⟨row', hrow', hpast | ⟨e, he, hlt⟩⟩ := h
  · obtain rfl := Option.some.inj (hrow.symm.trans hrow')
    exact hpast.not_recoverable hfence
  · obtain rfl := Option.some.inj (hrow.symm.trans hrow')
    obtain ⟨worker', hw', hbeat⟩ := hworker
    obtain rfl := Option.some.inj (hw.symm.trans hw')
    rcases hcause with ⟨e', he', hle⟩ | hle
    · obtain rfl := Option.some.inj (he.symm.trans he')
      exact Int.not_le.mpr hlt hle
    · exact Int.not_le.mpr hbeat hle

/-- A refreshed worker is not recovered from while the lease of the snapshot lies
beyond the cutoff. -/
theorem Db.Refreshed.not_recovers {db : Db} {stale : StaleJob} (h : db.Refreshed stale)
    (hlease : stale.leaseExpiredBefore < stale.leaseExpiresAt) : ¬ db.Recovers stale := by
  rintro ⟨row, worker, hrow, hfence, hw, hcause⟩
  obtain ⟨worker', hw', hbeat⟩ := h
  obtain rfl := Option.some.inj (hw.symm.trans hw')
  rcases hcause with ⟨e, he, hle⟩ | hle
  · obtain rfl := Option.some.inj (hfence.expires.symm.trans he)
    exact Int.not_le.mpr hlease hle
  · exact Int.not_le.mpr hbeat hle

theorem Db.Refreshed.step {Allowed : Op → Prop} {db db' : Db} {call : Call} {stale : StaleJob}
    (h : db.Refreshed stale) (hafter : call.After stale)
    (hstep : (repository Allowed).step db call db') : db'.Refreshed stale := by
  obtain ⟨worker, hw, hlt⟩ := h
  rcases repository_step_cases hstep with ⟨_, _, hc⟩ | ⟨_, rfl⟩
  · obtain ⟨worker', hw', hsame | hnow | hclock⟩ := Op.lastHeartbeat hc hw
    · exact ⟨worker', hw', by rw [hsame]; exact hlt⟩
    · exact ⟨worker', hw', by rw [hnow]; exact hafter.begun⟩
    · exact ⟨worker', hw', by rw [hclock]; exact hafter.heartbeat⟩
  · exact ⟨worker, hw, hlt⟩

/-- A change takes the row past the place, keeps the expiry, or sets it beyond the
clock. -/
theorem RowChange.expires {op : Op} {t : DbTime} {j : JobId} {old new : JobRow} {stale : StaleJob}
    (h : RowChange op t j (some old) new) (hs : old.Shape) (hr : stale.Reached old) :
    stale.Past new ∨ new.leaseExpiresAt = old.leaseExpiresAt ∨
      ∃ e, new.leaseExpiresAt = some e ∧ t.clock < e := by
  have hmove := (h.reached hs hr).2.2
  cases h with
  | cancel | result => exact Or.inr (Or.inl rfl)
  | claim hq =>
      refine Or.inl (hmove (Or.inl fun heq => ?_))
      rw [hq] at heq
      cases heq
  | transition hval hguard =>
      refine Or.inl (hmove (Or.inl fun heq => ?_))
      have hlt := (validateTransition_edge hval).rank_lt
      rw [← (transitionGuard_iff.mp hguard).1, ← heq] at hlt
      exact Nat.lt_irrefl _ hlt
  | @heartbeat heartbeat leaseTtl extension t _ hsecs _ _ =>
      have hpos : 0 < numSeconds leaseTtl * 1000000 := by omega
      exact Or.inr (Or.inr ⟨_, rfl, Int.lt_add_of_pos_right t.clock hpos⟩)
  | @recover stale' maxDeliver _ _ _ hfence =>
      refine Or.inl (hmove (Or.inr fun heq => ?_))
      have hnone : (old.recovered (recoveryKind stale' maxDeliver old)).leaseId = none := by
        cases recoveryKind stale' maxDeliver old <;> rfl
      rw [hnone, hfence.lease] at heq
      cases heq

theorem Db.Renewed.step {Allowed : Op → Prop} {db db' : Db} {call : Call} {stale : StaleJob}
    (h : db.Renewed stale) (hafter : call.After stale) (hreaches : db.Reaches stale)
    (hreach : (repository Allowed).Reachable db) (hstep : (repository Allowed).step db call db') :
    db'.Renewed stale := by
  obtain ⟨row, hrow, hcase⟩ := h
  obtain ⟨row', hrow', hr⟩ := hreaches
  obtain rfl := Option.some.inj (hrow.symm.trans hrow')
  rcases repository_step_rows hstep stale.jobId with ⟨hsame, _⟩ | ⟨new, hnew, hchange⟩
  · exact ⟨row, hsame.trans hrow, hcase⟩
  · rw [hrow] at hchange
    have hs := shape_invariant Allowed db hreach _ row hrow
    refine ⟨new, hnew, ?_⟩
    rcases hcase with hpast | ⟨e, he, hlt⟩
    · exact Or.inl ((hchange.reached hs hr).2.1 hpast)
    · rcases hchange.expires hs hr with hpast | hkeep | ⟨e', he', hclock⟩
      · exact Or.inl hpast
      · exact Or.inr ⟨e, hkeep.trans he, hlt⟩
      · exact Or.inr ⟨e', he', Int.lt_of_le_of_lt hafter.lease hclock⟩

/-- **Run.** Calls made after the cutoffs keep a refreshed worker refreshed and a renewed
lease renewed. -/
theorem renewed_run {Allowed : Op → Prop} {db db' : Db} {calls : List Call} {stale : StaleJob}
    (hreach : (repository Allowed).Reachable db) (hrun : (repository Allowed).Run db calls db')
    (hafter : ∀ call ∈ calls, call.After stale) (hreaches : db.Reaches stale) :
    (db.Refreshed stale → db'.Refreshed stale) ∧ (db.Renewed stale → db'.Renewed stale) := by
  induction hrun with
  | nil => exact ⟨id, id⟩
  | @snoc calls db₁ call db₂ hrun hstep ih =>
      have hbefore : ∀ c ∈ calls, c.After stale := fun c hc =>
        hafter c (List.mem_append_left _ hc)
      have hlast : call.After stale := hafter call (by simp)
      have hreach₁ := hreach.run hrun
      have hreaches₁ := (Db.Reaches.run hreach hrun hreaches).1
      obtain ⟨hworker, hlease⟩ := ih hbefore
      exact ⟨fun h => (hworker h).step hlast hstep,
        fun h => (hlease h).step hlast hreaches₁ hreach₁ hstep⟩

/-- An accepted heartbeat that extended the snapshot's lease renewed it and refreshed
the worker. -/
theorem recordHeartbeat_renews {db db' : Db} {heartbeat : WorkerHeartbeat} {leaseTtl : Int}
    {t : DbTime} {receipt : HeartbeatReceipt} {stale : StaleJob}
    (h : (recordHeartbeat heartbeat leaseTtl t).Commits db receipt db')
    (hw : heartbeat.workerId = stale.workerId) (hbegun : stale.workerHeartbeatBefore < t.clock)
    (hlease : stale.leaseExpiredBefore ≤ t.clock) :
    db'.Refreshed stale ∧ (⟨stale.jobId, stale.leaseId⟩ ∈ receipt.extended → db'.Renewed stale) := by
  obtain ⟨worker, hc, db₁, hsecs, _, rfl, _, honly, hreceipt, hjobs⟩ := recordHeartbeat_commits h
  refine ⟨⟨worker.heartbeat heartbeat t.clock, ?_, hbegun⟩, fun hmem => ?_⟩
  · unfold Db.worker?
    rw [honly.workers, ← hw]
    exact Table.row?_put_self _ _ _ _
  · rw [hreceipt.extended, List.mem_filter] at hmem
    have hout := of_decide_eq_true hmem.2
    cases hrow : db.job? stale.jobId with
    | none =>
        rw [hrow] at hout
        cases hout
    | some row =>
        rw [hrow] at hout
        unfold extensionOutcome at hout
        split at hout
        · next hg =>
            have hx : extendable heartbeat.workerId t.clock heartbeat.leaseExtends stale.jobId row =
                true := extendable_iff.mpr ⟨_, hmem.1, rfl, by simpa using hg⟩
            have hpos : 0 < numSeconds leaseTtl * 1000000 := by omega
            refine ⟨row.extended t.clock (numSeconds leaseTtl), ?_, Or.inr ⟨_, rfl, ?_⟩⟩
            · rw [hjobs, hrow]
              simp [JobRow.afterHeartbeat, hx]
            · exact Int.lt_of_le_of_lt hlease (Int.lt_add_of_pos_right t.clock hpos)
        · split at hout <;> cases hout

/-- The call is an accepted heartbeat or registration of worker `w`. -/
def Call.refreshes (w : WorkerId) (call : Call) : Prop :=
  (∃ heartbeat leaseTtl t receipt, call = ⟨.recordHeartbeat heartbeat leaseTtl, t, .ok receipt⟩ ∧
    heartbeat.workerId = w) ∨
  ∃ registration t status, call = ⟨.upsertWorker registration, t, .ok status⟩ ∧
    registration.workerId = w

theorem Call.refreshes.step {Allowed : Op → Prop} {db db' : Db} {call : Call} {stale : StaleJob}
    (h : call.refreshes stale.workerId) (hafter : call.After stale)
    (hstep : (repository Allowed).step db call db') : db'.Refreshed stale := by
  rcases h with ⟨heartbeat, leaseTtl, t, receipt, rfl, hw⟩ | ⟨registration, t, status, rfl, hw⟩
  · have hc : (recordHeartbeat heartbeat leaseTtl t).Commits db receipt db' :=
      Tx.commits_of_exec hstep.2
    exact (recordHeartbeat_renews hc hw hafter.heartbeat hafter.lease).1
  · have hc : (upsertWorker registration t).Commits db status db' := Tx.commits_of_exec hstep.2
    rcases upsertWorker_commits hc with ⟨hchecks, _, rfl⟩ | ⟨row, hchecks, _, rfl⟩
    · refine ⟨newWorkerRow registration t, ?_, hafter.begun⟩
      rw [← hw, Db.worker?_putWorker, if_pos rfl]
    · refine ⟨row.registered registration t, ?_, hafter.begun⟩
      rw [← hw, Db.worker?_putWorker, if_pos rfl]

/-! ## The snapshot at any later point -/

/-- The runs in which `max_deliver` is a `u32`. -/
abbrev recoveries : TSys Db Call := repository (Op.RecoversWithin 4294967295)

/-- **Recovery.** Take a snapshot of a scan and any run of calls after the scan.
Recovery of the snapshot changes the database only if the job still carries the whole
fence and a cutoff is met, and then takes one unit from the old worker; otherwise it
answers a lost race. The race is lost once the expiry differs, once the state or lease of
the job has changed, once the snapshot was recovered, and after an extension of the
lease, or a sign of life of the worker of an unexpired lease, when the calls from then on
come after the cutoffs. -/
theorem recovery_fenced {db₀ db : Db} {calls : List Call} {criteria : StaleJobCriteria}
    {found : List StaleJob} {stale : StaleJob} (hreach : recoveries.Reachable db₀)
    (hscan : (findStaleJobs criteria).Commits db₀ found db₀) (hstale : stale ∈ found)
    (hrun : recoveries.Run db₀ calls db) :
    (∀ maxDeliver eventId t, maxDeliver ≠ 0 → ¬ db.Recovers stale →
      (recoverStaleJob stale maxDeliver eventId t).exec db = (.ok .lostRace, db)) ∧
    (∀ maxDeliver eventId t answer db',
      (recoverStaleJob stale maxDeliver eventId t).exec db = (answer, db') →
      (db' ≠ db → ∃ out, answer = .ok out ∧ out ≠ .lostRace) ∧
      ∀ out, answer = .ok out → out ≠ .lostRace → db.Recovers stale ∧
        ∀ w, db'.activeJobs w + (if w = stale.workerId then 1 else 0) = db.activeJobs w) ∧
    (∀ row, db.job? stale.jobId = some row → row.leaseExpiresAt ≠ some stale.leaseExpiresAt →
      ¬ db.Recovers stale) ∧
    ∀ pre call post d₁ d₂, calls = pre ++ call :: post → recoveries.Run db₀ pre d₁ →
      recoveries.step d₁ call d₂ → recoveries.Run d₂ post db →
      (∀ old new, d₁.job? stale.jobId = some old → d₂.job? stale.jobId = some new →
        (new.state ≠ old.state ∨ new.leaseId ≠ old.leaseId) → ¬ db.Recovers stale) ∧
      (∀ maxDeliver eventId t out, call = ⟨.recoverStaleJob stale maxDeliver eventId, t, .ok out⟩ →
        out ≠ .lostRace → ¬ db.Recovers stale) ∧
      ((∀ c ∈ call :: post, c.After stale) →
        (∀ heartbeat leaseTtl t receipt,
          call = ⟨.recordHeartbeat heartbeat leaseTtl, t, .ok receipt⟩ →
          heartbeat.workerId = stale.workerId →
          ⟨stale.jobId, stale.leaseId⟩ ∈ receipt.extended → ¬ db.Recovers stale) ∧
        (call.refreshes stale.workerId → stale.leaseExpiredBefore < stale.leaseExpiresAt →
          ¬ db.Recovers stale)) := by
  obtain ⟨_, hfound⟩ := findStaleJobs_commits hscan
  obtain ⟨row₀, hrow₀, hfence₀, _⟩ := hfound stale hstale
  have hreaches₀ : db₀.Reaches stale := ⟨row₀, hrow₀, hfence₀.reached⟩
  have hreach' : recoveries.Reachable db := hreach.run hrun
  have hu32 : ∀ row, db.job? stale.jobId = some row → row.deliveryAttempts ≤ 4294967295 :=
    fun row hrow => (charged_invariant (by decide) (fun _ h => h) db hreach' _ row hrow).bound
  refine ⟨?_, ?_, ?_, ?_⟩
  · intro maxDeliver eventId t hmax hoff
    exact (recoverStaleJob_lostRace hoff hu32 hmax eventId t).exec_eq
  · intro maxDeliver eventId t answer db' hexec
    rcases Tx.exec_cases (recoverStaleJob stale maxDeliver eventId t) db with
      ⟨out, db₁, hc, he⟩ | ⟨e, _, he⟩
    · obtain ⟨rfl, rfl⟩ := Prod.mk.inj (he.symm.trans hexec)
      refine ⟨fun hne => ⟨out, rfl, fun hlost => hne ?_⟩, fun out' hout hne => ?_⟩
      · rcases recoverStaleJobWith_commits hc with ⟨_, rfl⟩ | ⟨row, _, _, _, _, _, _, _, _, hout, _⟩
        · rfl
        · rw [hout] at hlost
          cases hk : recoveryKind stale maxDeliver row <;> rw [hk] at hlost <;> cases hlost
      · obtain rfl := Except.ok.inj hout
        exact recoverStaleJob_releases (balanced_invariant _ db hreach') hc hne
    · obtain ⟨rfl, rfl⟩ := Prod.mk.inj (he.symm.trans hexec)
      exact ⟨fun hne => absurd rfl hne, fun out hout => by cases hout⟩
  · rintro row hrow hne ⟨row', _, hrow', hfence, _⟩
    obtain rfl := Option.some.inj (hrow.symm.trans hrow')
    exact hne hfence.expires
  · intro pre call post d₁ d₂ _ hpre hstep hpost
    have hreach₁ : recoveries.Reachable d₁ := hreach.run hpre
    have hreach₂ : recoveries.Reachable d₂ := .step hreach₁ hstep
    have hreaches₁ := (Db.Reaches.run hreach hpre hreaches₀).1
    obtain ⟨hreaches₂, _, hmove⟩ := Db.Reaches.step hreaches₁ hreach₁ hstep
    have hpasses : d₂.Passes stale → ¬ db.Recovers stale := fun h =>
      ((Db.Reaches.run hreach₂ hpost hreaches₂).2 h).not_recovers
    refine ⟨fun old new hold hnew hne => hpasses (hmove old new hold hnew hne), ?_, ?_⟩
    · -- a recovery takes the lease off the row
      rintro maxDeliver eventId t out rfl hout
      have hc : (recoverStaleJob stale maxDeliver eventId t).Commits d₁ out d₂ :=
        Tx.commits_of_exec hstep.2
      rcases recoverStaleJobWith_commits hc with ⟨hlost, _⟩ |
        ⟨row, _, hchecks, d, _, hrow, hfence, _, _, _, hrel, _, _, hjobs, _⟩
      · exact absurd hlost hout
      · have hnew : d₂.job? stale.jobId =
            some (row.recovered (recoveryKind stale maxDeliver row)) := by
          unfold Db.job?
          rw [hjobs, (releaseWorkerCapacity_frame hrel).1]
          exact Table.row?_put_self _ _ _ _
        refine hpasses (hmove _ _ hrow hnew (Or.inr ?_))
        rw [hfence.lease]
        cases recoveryKind stale maxDeliver row <;> exact nofun
    · intro hafter
      have hlast : call.After stale := hafter call (by simp)
      have hrest : ∀ c ∈ post, c.After stale := fun c hc => hafter c (List.mem_cons_of_mem _ hc)
      obtain ⟨hworker, hlease⟩ := renewed_run hreach₂ hpost hrest hreaches₂
      refine ⟨?_, fun hrefresh hcut => (hworker (hrefresh.step hlast hstep)).not_recovers hcut⟩
      rintro heartbeat leaseTtl t receipt rfl hw hmem
      have hc : (recordHeartbeat heartbeat leaseTtl t).Commits d₁ receipt d₂ :=
        Tx.commits_of_exec hstep.2
      obtain ⟨hrefreshed, hrenewed⟩ := recordHeartbeat_renews hc hw hlast.heartbeat hlast.lease
      exact (hlease (hrenewed hmem)).not_recovers (hworker hrefreshed)

namespace Sample

/-- The snapshot of the first attempt that a scan at second `200` takes. -/
def expired : StaleJob := ⟨job, worker, lease, .claimed, 1, 100000000, 1000000, 200000000, 0⟩

end Sample

/-- A snapshot that was recovered once loses the race the second time. -/
theorem recovery_fenced_twice :
    let db := (Sample.after Sample.claimed).replay
      [(.recoverStaleJob Sample.expired 3 (Sample.event 2), Sample.at_ 250)]
    (recoverStaleJob Sample.expired 3 (Sample.event 3) (Sample.at_ 251)).exec db =
      (.ok .lostRace, db) := by
  intro db
  let first := (recoverStaleJob Sample.expired 3 (Sample.event 2) (Sample.at_ 250)).exec
    (Sample.after Sample.claimed)
  have hreach : recoveries.Reachable (Sample.after Sample.claimed) :=
    Sample.after_reachable (by simp [Sample.claimed, Sample.created, Sample.register,
      Sample.create, Sample.claim, Op.RecoversWithin])
  -- the scan finds the snapshot
  have hfound : ((findStaleJobs ⟨200000000, 0, 10⟩).exec (Sample.after Sample.claimed)).1 =
      .ok [Sample.expired] := by decide +kernel
  have hscan : (findStaleJobs ⟨200000000, 0, 10⟩).Commits (Sample.after Sample.claimed)
      [Sample.expired] (Sample.after Sample.claimed) := by
    rcases Tx.exec_cases (findStaleJobs ⟨200000000, 0, 10⟩) (Sample.after Sample.claimed) with
      ⟨found, db', hc, he⟩ | ⟨e, _, he⟩
    · rw [he] at hfound
      obtain rfl := Except.ok.inj hfound
      obtain ⟨hsame, _⟩ := findStaleJobs_commits hc
      exact hsame ▸ hc
    · rw [he] at hfound
      cases hfound
  -- the first recovery ends the lease
  have hended : first.1.toOption.any (fun out => decide (out ≠ .lostRace)) = true := by
    decide +kernel
  have hstep : recoveries.step (Sample.after Sample.claimed)
      ⟨.recoverStaleJob Sample.expired 3 (Sample.event 2), Sample.at_ 250, first.1⟩ db :=
    @repository_step_exec (Op.RecoversWithin 4294967295)
      (.recoverStaleJob Sample.expired 3 (Sample.event 2)) (by simp [Op.RecoversWithin]) _ _
  have hrun := TSys.Run.single hstep
  obtain ⟨hlost, _, _, hcalls⟩ := recovery_fenced hreach hscan (List.mem_singleton.mpr rfl) hrun
  refine hlost 3 _ _ (by decide) ?_
  obtain ⟨_, hagain, _⟩ := hcalls [] _ [] _ _ rfl (.nil _) hstep (.nil _)
  cases hans : first.1 with
  | error e => rw [hans] at hended; cases hended
  | ok out =>
      rw [hans] at hended hstep
      exact hagain 3 _ _ out (by rw [hans]) (of_decide_eq_true hended)

end RunAnywhere
