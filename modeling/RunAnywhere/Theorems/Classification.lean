import RunAnywhere.Scheduler.Delivery
import RunAnywhere.Theorems.Attempts

/-!
# What a delivery of the queue means

`classify_canonical_delivery` looks at a snapshot, in a fixed order of tests. Read as a
statement about the row behind the snapshot (`classifyCanonicalDelivery_cases`) and with
the shapes that rows of a run have, its answers are what the database will allow
(`delivery_classified`): a delivery is buffered when a claim would pass its first guard,
bound again when the lease it names is live, finalized when the job was cancelled before
any claim.
-/

namespace RunAnywhere

open Logic

/-- The row waits in the queue: a claim passes its first guard. -/
def JobRow.Waiting (row : JobRow) : Prop :=
  row.state = .queued ∧ row.workerId = none ∧ row.leaseId = none

/-- The job was cancelled before any claim of it. -/
def JobRow.CancelledUnclaimed (row : JobRow) : Prop :=
  row.pendingOutcome = some .cancelled ∧ row.leaseId = none ∧ row.deliveryAttempts = 0

/-- A row waits in the queue exactly when it is queued, without an outcome and a lease. -/
theorem JobRow.Shape.waiting_iff {row : JobRow} (hshape : row.Shape) (hchecks : row.Checks) :
    row.Waiting ↔ row.leaseId = none ∧ row.state = .queued ∧ row.pendingOutcome = none ∧
      row.leaseExpiresAt = none := by
  constructor
  · rintro ⟨hqueued, hworker, hlease⟩
    refine ⟨hlease, hqueued, (hshape.queued hqueued).2.2.1, ?_⟩
    -- the lease columns are set together
    have hconsistent := hchecks.lease
    unfold JobRow.leaseConsistent at hconsistent
    rw [hlease] at hconsistent
    cases hexpires : row.leaseExpiresAt with
    | none => rfl
    | some e =>
        rw [hexpires] at hconsistent
        exact hconsistent.elim
  · rintro ⟨hlease, hqueued, _, _⟩
    exact ⟨hqueued, (hshape.queued hqueued).1, hlease⟩

/-- **The tests, in their order**, as statements about the row behind the snapshot. -/
theorem classifyCanonicalDelivery_cases {snap : JobSchedulingSnapshot} {j : JobId} {row : JobRow}
    (hshows : snap.Shows j row) (hshape : row.Shape) (hchecks : row.Checks) (queued : JobQueued)
    (now : Time) :
    let decision := classifyCanonicalDelivery queued snap now
    (row.state.isTerminal = true ∧ decision = .ackTerminal) ∨
    (row.state.isTerminal = false ∧ row.CancelledUnclaimed ∧ decision = .finalizeCancellation) ∨
    (row.state.isTerminal = false ∧ ¬ row.CancelledUnclaimed ∧
      ((queued ≠ row.queued j ∧ decision = .deadLetter .canonicalJobInconsistent) ∨
      (queued = row.queued j ∧
        ((∃ g : LeaseGuard, row.workerId = some g.workerId ∧ row.leaseId = some g.leaseId ∧
          row.leaseLiveAt now = true ∧ decision = .rebind g) ∨
        (row.Waiting ∧ decision = .buffer row.mode.lane) ∨
        (¬ row.Waiting ∧ decision = .holdForReconciliation))))) := by
  intro decision
  have hstate : snap.job.state = row.state := by rw [hshows.job]; rfl
  have hmode : snap.job.mode = row.mode := by rw [hshows.job]; rfl
  have hcancelled : row.CancelledUnclaimed ↔ snap.pendingOutcome = some .cancelled ∧
      snap.lease = none ∧ snap.deliveryAttempts = 0 := by
    unfold JobRow.CancelledUnclaimed
    rw [hshows.leaseId_eq_none_iff, hshows.pending, hshows.attempts]
  have hdecision : decision = classifyCanonicalDelivery queued snap now := rfl
  unfold classifyCanonicalDelivery at hdecision
  rw [hstate, hmode, hshows.queued] at hdecision
  by_cases hend : row.state.isTerminal = true
  · rw [if_pos hend] at hdecision
    exact Or.inl ⟨hend, hdecision⟩
  rw [if_neg hend] at hdecision
  have hend' : row.state.isTerminal = false := by simpa using hend
  by_cases hc : row.CancelledUnclaimed
  · rw [if_pos (hcancelled.mp hc)] at hdecision
    exact Or.inr (Or.inl ⟨hend', hc, hdecision⟩)
  rw [if_neg fun h => hc (hcancelled.mpr h)] at hdecision
  refine Or.inr (Or.inr ⟨hend', hc, ?_⟩)
  by_cases hsame : queued = row.queued j
  · rw [if_neg (not_not_intro hsame)] at hdecision
    refine Or.inr ⟨hsame, ?_⟩
    cases hlease : snap.lease with
    | some g =>
        obtain ⟨hworker, hleaseId⟩ := hshows.leased hlease
        have hbusy : ¬ row.Waiting := by
          intro hwaits
          rw [hwaits.2.2] at hleaseId
          cases hleaseId
        simp only [hlease, hshows.expires] at hdecision
        by_cases hlive : row.leaseLiveAt now = true
        · -- the classifier's test is the clause of the lease guards
          have htest : (row.leaseExpiresAt.any fun expiresAt => decide (now < expiresAt)) = true :=
            hlive
          rw [if_pos htest] at hdecision
          exact Or.inl ⟨g, hworker, hleaseId, hlive, hdecision⟩
        · have htest : ¬ (row.leaseExpiresAt.any fun expiresAt => decide (now < expiresAt)) = true :=
            hlive
          rw [if_neg htest] at hdecision
          exact Or.inr (Or.inr ⟨hbusy, hdecision⟩)
    | none =>
        have hfree := hshows.leaseId_eq_none_iff.mpr hlease
        have hwaits : row.Waiting ↔ row.state = .queued ∧ snap.pendingOutcome = none ∧
            snap.leaseExpiresAt = none := by
          rw [hshape.waiting_iff hchecks, hshows.pending, hshows.expires]
          exact and_iff_right hfree
        simp only [hlease] at hdecision
        by_cases hw : row.Waiting
        · rw [if_pos (hwaits.mp hw)] at hdecision
          exact Or.inr (Or.inl ⟨hw, hdecision⟩)
        · rw [if_neg fun h => hw (hwaits.mpr h)] at hdecision
          exact Or.inr (Or.inr ⟨hw, hdecision⟩)
  · rw [if_pos hsame] at hdecision
    exact Or.inl ⟨hsame, hdecision⟩

/-- A row in the queue is not terminal, and no cancellation of it is pending. -/
theorem JobRow.Waiting.open {row : JobRow} (h : row.Waiting) (hshape : row.Shape) :
    row.state.isTerminal = false ∧ ¬ row.CancelledUnclaimed := by
  constructor
  · rw [h.1]
    rfl
  · rintro ⟨hpending, _⟩
    rw [(hshape.queued h.1).2.2.1] at hpending
    cases hpending

/-- A job whose counter is 0 was never claimed. -/
theorem never_claimed {Allowed : Op → Prop} {catalog : Catalog} {calls : List Call} {db : Db}
    (hrun : (repository Allowed).Run (Db.empty catalog) calls db) {j : JobId} {row : JobRow}
    (hrow : db.job? j = some row) (hzero : row.deliveryAttempts = 0) :
    ∀ call ∈ calls, call.claims j = false := by
  have hcount := attempts_run hrun j
  rw [hrow] at hcount
  simp only [Option.map_some, Option.getD_some, hzero] at hcount
  intro call hcall
  have hno := List.countP_eq_zero.mp hcount call hcall
  simpa using hno

/-- **Delivery classification matches the database.** For the row of a job in a run, its
snapshot, any message and any time: a delivery is disposable exactly when the row is
terminal; it is buffered exactly when the message is the canonical one and a claim would
pass its first guard; it is bound only to the row's own unexpired lease; it is finalized
only for an unleased cancelled job that no call of the run has claimed; any other row that
is not terminal is held, or its message is dead if and only if it is not the canonical
one. -/
theorem delivery_classified {Allowed : Op → Prop} {catalog : Catalog} {calls : List Call}
    {db db' : Db} (hrun : (repository Allowed).Run (Db.empty catalog) calls db) {j : JobId}
    {row : JobRow} (hrow : db.job? j = some row) {snap : JobSchedulingSnapshot}
    (hsnap : (getJobSchedulingSnapshot j).Commits db (some snap) db') (queued : JobQueued)
    (now : Time) :
    let decision := classifyCanonicalDelivery queued snap now
    (decision = .ackTerminal ↔ row.state.isTerminal = true) ∧
    ((∃ lane, decision = .buffer lane) ↔ queued = row.queued j ∧ row.state = .queued ∧
      row.workerId = none ∧ row.leaseId = none) ∧
    (∀ g, decision = .rebind g → row.workerId = some g.workerId ∧
      row.leaseId = some g.leaseId ∧ row.leaseLiveAt now = true) ∧
    (decision = .finalizeCancellation → row.leaseId = none ∧
      row.pendingOutcome = some .cancelled ∧ ∀ call ∈ calls, call.claims j = false) ∧
    (row.state.isTerminal = false → (∀ lane, decision ≠ .buffer lane) →
      (∀ g, decision ≠ .rebind g) → decision ≠ .finalizeCancellation →
      (decision = .holdForReconciliation ∨ ∃ reason, decision = .deadLetter reason) ∧
      ((∃ reason, decision = .deadLetter reason) ↔ queued ≠ row.queued j)) := by
  intro decision
  have hreach : (repository Allowed).Reachable db := TSys.Reachable.run (.init ⟨catalog, rfl⟩) hrun
  have hshape := shape_invariant Allowed db hreach j row hrow
  obtain ⟨row', hrow', hshows⟩ := (getJobSchedulingSnapshot_commits hsnap).2 snap rfl
  obtain rfl := Option.some.inj (hrow.symm.trans hrow')
  have hcases := classifyCanonicalDelivery_cases hshows hshape (Db.job?_checks hrow) queued now
  have hopen : row.state = .queued ∧ row.workerId = none ∧ row.leaseId = none →
      row.state.isTerminal = false ∧ ¬ row.CancelledUnclaimed :=
    fun hwaits => JobRow.Waiting.open hwaits hshape
  show (decision = _ ↔ _) ∧ _
  rcases hcases with ⟨hend, hd⟩ | ⟨hend, hcancelled, hd⟩ | ⟨hend, hnot, ⟨hother, hd⟩ |
      ⟨hsame, ⟨g, hworker, hlease, hlive, hd⟩ | ⟨hwaits, hd⟩ | ⟨hbusy, hd⟩⟩⟩
  · -- terminal
    replace hd : decision = .ackTerminal := hd
    rw [hd]
    refine ⟨by simp [hend], ?_, by simp, by simp, by simp [hend]⟩
    constructor
    · simp
    · rintro ⟨_, hwaits⟩
      rw [(hopen hwaits).1] at hend
      cases hend
  · -- cancelled before any claim
    replace hd : decision = .finalizeCancellation := hd
    rw [hd]
    refine ⟨by simp [hend], ?_, by simp, ?_, by simp⟩
    · constructor
      · simp
      · rintro ⟨_, hwaits⟩
        exact absurd hcancelled (hopen hwaits).2
    · intro _
      exact ⟨hcancelled.2.1, hcancelled.1, never_claimed hrun hrow hcancelled.2.2⟩
  · -- not the canonical message
    replace hd : decision = .deadLetter .canonicalJobInconsistent := hd
    rw [hd]
    exact ⟨by simp [hend], by simp [hother], by simp, by simp, by simp [hother]⟩
  · -- a live lease
    replace hd : decision = .rebind g := hd
    rw [hd]
    refine ⟨by simp [hend], ?_, ?_, by simp, by simp⟩
    · simp [hlease]
    · intro g' hg'
      obtain rfl := CanonicalDeliveryDecision.rebind.inj hg'
      exact ⟨hworker, hlease, hlive⟩
  · -- in the queue
    replace hd : decision = .buffer row.mode.lane := hd
    rw [hd]
    refine ⟨by simp [hend], ?_, by simp, by simp, by simp⟩
    exact ⟨fun _ => ⟨hsame, hwaits⟩, fun _ => ⟨_, rfl⟩⟩
  · -- left to the reconciler
    replace hd : decision = .holdForReconciliation := hd
    rw [hd]
    refine ⟨by simp [hend], ?_, by simp, by simp, by simp [hsame]⟩
    constructor
    · simp
    · rintro ⟨_, hwaits⟩
      exact absurd hwaits hbusy

/-- What a dispatcher reads of the created job. -/
def Sample.snapshot : JobSchedulingSnapshot where
  job := (newJobRow Sample.request "key" (Sample.at_ 2)).intoJob Sample.job
  queued := (newJobRow Sample.request "key" (Sample.at_ 2)).queued Sample.job
  runtimeProfile := ⟨Sample.profile, 34, "pixel", .x86_64, .x86_64, .redroid, "image",
    .sharedKernelPrivileged⟩
  lease := none
  leaseExpiresAt := none
  lastLeaseExtendedAt := none
  deliveryAttempts := 0
  pendingOutcome := none
  artifactsFinalized := false
  cleanupCompleted := false

/-- A delivery of the created job is buffered. -/
theorem delivery_classified_created :
    ∃ lane, classifyCanonicalDelivery Sample.snapshot.queued Sample.snapshot 0 = .buffer lane := by
  obtain ⟨calls, _, hrun⟩ := @Db.replay_run (fun _ => True) Sample.created
    (fun _ _ => trivial) (Db.empty Sample.catalog)
  have hrow : (Sample.after Sample.created).job? Sample.job =
      some (newJobRow Sample.request "key" (Sample.at_ 2)) := by
    decide +kernel
  have hread : ((getJobSchedulingSnapshot Sample.job).exec (Sample.after Sample.created)).1 =
      .ok (some Sample.snapshot) := by
    decide +kernel
  have hsnap : (getJobSchedulingSnapshot Sample.job).Commits (Sample.after Sample.created)
      (some Sample.snapshot)
      ((getJobSchedulingSnapshot Sample.job).exec (Sample.after Sample.created)).2 :=
    Tx.commits_of_exec (Prod.ext hread rfl)
  exact (delivery_classified hrun hrow hsnap _ 0).2.1.mpr ⟨rfl, rfl, rfl, rfl⟩

end RunAnywhere
