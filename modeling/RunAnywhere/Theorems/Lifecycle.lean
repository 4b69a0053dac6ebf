import RunAnywhere.Repository.Run

/-!
# The lifecycle of a job row

`JobRow.Shape` is the shape every stored row keeps: what an unclaimed job lacks,
what the finalizer states have, what a terminal row looks like. It is strong
enough to survive the three writers that never call the validator (cancellation,
results, recovery), and it makes every change of `state` a legal step
(`LegalStep`), although the validator sees the evidence of the request while the
UPDATE merges it with the stored evidence.

## Outcomes

The second half follows one field. `pending_outcome`, once set, is left alone by
every call but a recovery (`RowChange.pendingOutcome`); a recovery requeues the
job, or replaces the outcome of an exhausted job that was not being cancelled.
-/

namespace RunAnywhere

open Logic

/-- The evidence a row stores. -/
def JobRow.evidence (row : JobRow) : TransitionEvidence :=
  ⟨row.pendingOutcome, row.artifactsFinalized, row.cleanupCompleted⟩

/-- The shape of a stored row. -/
structure JobRow.Shape (row : JobRow) : Prop where
  queued : row.state = .queued → row.workerId = none ∧ row.leaseId = none ∧
    row.pendingOutcome = none ∧ row.failure = none ∧ row.artifactsFinalized = false ∧
    row.cleanupCompleted = false
  pending : row.state = .debugAvailable ∨ row.state = .collectingArtifacts ∨
    row.state = .cleaningUp → row.pendingOutcome.isSome
  collected : row.state = .cleaningUp → row.artifactsFinalized = true
  terminal : row.state.isTerminal = true → row.outcome = row.state.terminalOutcome ∧
    row.pendingOutcome = row.state.terminalOutcome ∧ row.artifactsFinalized = true ∧
    row.cleanupCompleted = true ∧ row.leaseId = none

/-! ## Reading a WHERE clause -/

theorem transitionGuard_iff {source : JobState} {evidence : TransitionEvidence}
    {lease : Option LeaseGuard} {t : DbTime} {row : JobRow} :
    transitionGuard source evidence lease t row = true ↔
      row.state = source ∧
      (evidence.pendingOutcome = none ∨ row.pendingOutcome = none ∨
        row.pendingOutcome = evidence.pendingOutcome) ∧
      ∀ g ∈ lease, row.workerId = some g.workerId ∧ row.leaseId = some g.leaseId ∧
        ∃ e, row.leaseExpiresAt = some e ∧ t.statement < e := by
  cases lease <;>
    simp [transitionGuard, JobRow.heldBy_iff, JobRow.leaseLiveAt_iff, or_assoc, and_assoc]

theorem resultGuard_iff {result : JobResult} {t : DbTime} {row : JobRow} :
    resultGuard result t row = true ↔
      row.workerId = some result.workerId ∧ row.leaseId = some result.leaseId ∧
      (∃ e, row.leaseExpiresAt = some e ∧ t.statement < e) ∧
      (row.pendingOutcome = none ∨ row.pendingOutcome = some result.outcome) ∧
      row.state.isTerminal = false := by
  simp [resultGuard, JobRow.heldBy_iff, JobRow.leaseLiveAt_iff, and_assoc]

/-! ## The shape of the row a change stores -/

/-- The evidence after a transition is the merge of the request's and the row's. -/
theorem JobRow.transitioned_evidence (row : JobRow) (target : JobState)
    (evidence : TransitionEvidence) (t : DbTime) :
    (row.transitioned target evidence t).evidence =
      ⟨evidence.pendingOutcome.or row.pendingOutcome,
        row.artifactsFinalized || evidence.artifactsFinalized,
        row.cleanupCompleted || evidence.cleanupCompleted⟩ := rfl

/-- An edge accepted with the request's evidence is accepted with the merge. -/
theorem Edge.merged {source target : JobState} {evidence : TransitionEvidence}
    (h : Edge evidence source target) (row : JobRow) (t : DbTime) :
    Edge (row.transitioned target evidence t).evidence source target := by
  rw [JobRow.transitioned_evidence]
  refine h.mono (fun o ho => ?_) (fun ha => ?_) (fun hc => ?_)
  · show evidence.pendingOutcome.or row.pendingOutcome = some o
    rw [ho]; rfl
  · show (row.artifactsFinalized || evidence.artifactsFinalized) = true
    rw [ha, Bool.or_true]
  · show (row.cleanupCompleted || evidence.cleanupCompleted) = true
    rw [hc, Bool.or_true]

/-- A transition stores the shape: its merged evidence satisfies the edge. -/
theorem JobRow.Shape.transitioned {row : JobRow} {source target : JobState}
    {evidence : TransitionEvidence} {t : DbTime} (hrow : row.Shape)
    (hsource : row.state = source) (h : Edge evidence source target) :
    (row.transitioned target evidence t).Shape := by
  have hedge := h.merged row t
  constructor
  · intro hq
    exact absurd hq h.target_ne_queued
  · rintro hs
    show (evidence.pendingOutcome.or row.pendingOutcome).isSome
    have hs' : target = .debugAvailable ∨ target = .collectingArtifacts ∨
        target = .cleaningUp := hs
    cases h with
    | spine hn => cases source <;> simp_all [JobState.next] <;> subst hn <;> simp_all
    | debug ho | collect _ ho | early _ ho => rw [ho]; rfl
    | cleanup _ =>
        -- the stored outcome of the collecting row carries over
        have := hrow.pending (Or.inr (Or.inl hsource))
        cases evidence.pendingOutcome <;> simp_all
    | finish ht => cases target <;> simp_all [JobState.terminalOutcome]
  · intro hs
    have hs' : target = .cleaningUp := hs
    subst hs'
    cases hedge with
    | spine hn => cases source <;> cases hn
    | cleanup ha => exact ha
    | finish ht => cases ht
  · intro ht
    have ht' : target.isTerminal = true := ht
    obtain ⟨rfl, hc, hp⟩ := hedge.of_terminal ht'
    obtain ⟨o, ho⟩ := (JobState.isTerminal_iff target).mp ht'
    refine ⟨rfl, hp, ?_, hc, ?_⟩
    · show (row.artifactsFinalized || evidence.artifactsFinalized) = true
      rw [hrow.collected hsource, Bool.true_or]
    · show (if target.terminalOutcome.isSome then none else row.leaseId) = none
      rw [ho]; rfl

/-- A recovery stores the shape: a requeued row is bare, a finalizing one carries
an outcome and keeps the evidence of a cleanup that had begun. -/
theorem JobRow.Shape.recovered {row : JobRow} (hrow : row.Shape) (kind : RecoveryKind) :
    (row.recovered kind).Shape := by
  have hfinal : ∀ o failure, (row.toFinalizer o failure).Shape := by
    intro o failure
    by_cases hs : row.state = .cleaningUp
    · constructor <;> simp [JobRow.toFinalizer, hs, JobState.isTerminal, hrow.collected hs]
    · constructor <;> simp [JobRow.toFinalizer, hs, JobState.isTerminal]
  cases kind with
  | requeue => constructor <;> simp [JobRow.recovered, JobRow.requeued, JobState.isTerminal]
  | cancelling => exact hfinal _ _
  | exhausted => exact hfinal _ _

/-- **Shape.** Every change of a row stores the shape. -/
theorem RowChange.shape {op : Op} {t : DbTime} {j : JobId} {old : Option JobRow} {new : JobRow}
    (h : RowChange op t j old new) (hold : ∀ row ∈ old, row.Checks ∧ row.Shape) : new.Shape := by
  cases h with
  | create => constructor <;> simp [newJobRow, JobState.isTerminal]
  | cancel hlive hp =>
      constructor <;> simp [JobRow.cancelRequested, JobState.isTerminal]
  | claim => constructor <;> simp [JobRow.claimed, JobState.isTerminal]
  | transition hval hguard =>
      obtain ⟨_, hs⟩ := hold _ rfl
      exact hs.transitioned (transitionGuard_iff.mp hguard).1 (validateTransition_ok_iff.mp hval)
  | @result result _ _ row hguard =>
      -- only a leased, live row takes a result
      obtain ⟨_, hs⟩ := hold _ rfl
      obtain ⟨hw, _, _, _, hlive⟩ := resultGuard_iff.mp hguard
      refine ⟨fun hq => ?_, fun _ => rfl, fun hcl => ?_, fun ht => ?_⟩
      · have := (hs.queued hq).1
        rw [hw] at this; cases this
      · show (row.artifactsFinalized || result.artifactsFinalized) = true
        rw [hs.collected hcl, Bool.true_or]
      · exact absurd (hlive.symm.trans ht) (by decide)
  | heartbeat _ _ hguard =>
      obtain ⟨_, hs⟩ := hold _ rfl
      obtain ⟨_, _, _, _, hq, ht⟩ := extendGuard_iff.mp hguard
      exact ⟨fun h => absurd h hq, hs.pending, hs.collected, fun h => absurd (ht.symm.trans h)
        (by decide)⟩
  | recover _ => exact (hold _ rfl).2.recovered _

/-- Every stored row has the shape. -/
theorem shape_invariant (Allowed : Op → Prop) :
    (repository Allowed).Invariant fun db => ∀ j row, db.job? j = some row → row.Shape :=
  rows_invariant fun _ _ _ _ _ _ h hold _ => h.shape hold

/-! ## Legal steps -/

/-- The call is a recovery of job `j`. -/
def Op.Recovers (j : JobId) : Op → Prop
  | .recoverStaleJob stale _ _ => stale.jobId = j
  | _ => False

/-- A legal change of a row's state: an edge the validator accepts with the row's
own evidence, or a recovery's move to the queue or of a leased live job to artifact
collection. -/
def LegalStep (op : Op) (j : JobId) (old new : JobRow) : Prop :=
  validateTransition old.state new.state new.evidence = .ok () ∨
  (op.Recovers j ∧ new.state = .queued) ∨
  (op.Recovers j ∧ old.leaseId.isSome ∧ old.state.isTerminal = false ∧
    new.state = .collectingArtifacts)

/-- A cancellation is an edge: only states before collection have no outcome. -/
theorem cancelRequested_edge {row : JobRow} (hs : row.Shape) (hlive : row.state.isTerminal = false)
    (hp : row.pendingOutcome = none) :
    Edge row.cancelRequested.evidence row.state .collectingArtifacts := by
  have hnone : ¬ row.pendingOutcome.isSome := by rw [hp]; simp
  have hout : row.cancelRequested.evidence.pendingOutcome = some .cancelled := rfl
  cases hst : row.state with
  | queued | claimed | provisioningRuntime | booting | installingApk => exact .early rfl hout
  | runningTests => exact .collect (Or.inl rfl) hout
  | debugAvailable => exact absurd (hs.pending (Or.inl hst)) hnone
  | collectingArtifacts => exact absurd (hs.pending (Or.inr (Or.inl hst))) hnone
  | cleaningUp => exact absurd (hs.pending (Or.inr (Or.inr hst))) hnone
  | passed | failed | cancelled | timedOut | infraFailed => rw [hst] at hlive; cases hlive

/-- **One change.** A change of an existing row starts from a live row, and moves
its state legally. -/
theorem RowChange.legal {op : Op} {t : DbTime} {j : JobId} {old new : JobRow}
    (h : RowChange op t j (some old) new) (hs : old.Shape) :
    old.state.isTerminal = false ∧ (new.state ≠ old.state → LegalStep op j old new) := by
  cases h with
  | cancel hlive hp =>
      exact ⟨hlive, fun _ =>
        Or.inl (validateTransition_ok_iff.mpr (cancelRequested_edge hs hlive hp))⟩
  | claim hq =>
      refine ⟨by rw [hq]; rfl, fun _ => Or.inl ?_⟩
      rw [hq]
      exact validateTransition_ok_iff.mpr (.spine rfl)
  | transition hval hguard =>
      have hedge := validateTransition_ok_iff.mp hval
      obtain rfl := (transitionGuard_iff.mp hguard).1
      exact ⟨hedge.source_live, fun _ =>
        Or.inl (validateTransition_ok_iff.mpr (hedge.merged _ _))⟩
  | result hguard => exact ⟨(resultGuard_iff.mp hguard).2.2.2.2, fun hne => absurd rfl hne⟩
  | heartbeat _ _ hguard =>
      exact ⟨(extendGuard_iff.mp hguard).2.2.2.2.2, fun hne => absurd rfl hne⟩
  | @recover stale maxDeliver _ _ row hfence =>
      refine ⟨hfence.live, fun hne => Or.inr ?_⟩
      have hlease : old.leaseId.isSome := by rw [hfence.lease]; rfl
      -- a recovered cleanup keeps its state
      have hfinal : ∀ o failure, (old.toFinalizer o failure).state ≠ old.state →
          (old.toFinalizer o failure).state = .collectingArtifacts := by
        intro o failure hne
        by_cases hc : old.state = .cleaningUp
        · exact absurd (by simp [JobRow.toFinalizer, hc]) hne
        · simp [JobRow.toFinalizer, hc]
      cases hk : recoveryKind stale maxDeliver old with
      | requeue => exact Or.inl ⟨rfl, rfl⟩
      | cancelling =>
          rw [hk] at hne
          exact Or.inr ⟨rfl, hlease, hfence.live, hfinal _ _ hne⟩
      | exhausted =>
          rw [hk] at hne
          exact Or.inr ⟨rfl, hlease, hfence.live, hfinal _ _ hne⟩

/-- A call keeps the row of a job that has one, and a new row starts in the queue. -/
theorem Touches.row {op : Op} {t : DbTime} {j : JobId} {db db' : Db} (h : Touches op t j db db') :
    (∀ old, db.job? j = some old → ∃ new, db'.job? j = some new) ∧
      (db.job? j = none → ∀ new, db'.job? j = some new → new.state = .queued) := by
  rcases h with ⟨hsame, _⟩ | ⟨new, hnew, hchange⟩
  · refine ⟨fun old hold => ⟨old, hsame.trans hold⟩, fun hnone new hnew => ?_⟩
    rw [hsame, hnone] at hnew
    cases hnew
  · refine ⟨fun _ _ => ⟨new, hnew⟩, fun hnone new' hnew' => ?_⟩
    obtain rfl := Option.some.inj (hnew.symm.trans hnew')
    rw [hnone] at hchange
    cases hchange
    rfl

/-- **Lifecycle.** In every run of the repository: each stored row has its shape;
a new row is queued; a change of an existing row's state is a legal step; a
terminal row never changes again. -/
theorem lifecycle (Allowed : Op → Prop) {db db' : Db} {call : Call}
    (hreach : (repository Allowed).Reachable db)
    (hstep : (repository Allowed).step db call db') (j : JobId) :
    (∀ row, db.job? j = some row → row.Shape) ∧ (∀ row, db'.job? j = some row → row.Shape) ∧
    (db.job? j = none → ∀ new, db'.job? j = some new → new.state = .queued) ∧
    ∀ old, db.job? j = some old → ∃ new, db'.job? j = some new ∧
      (new.state ≠ old.state → LegalStep call.op j old new) ∧
      (old.state.isTerminal = true → new = old) := by
  have hshape := shape_invariant Allowed db hreach j
  have htouch := repository_step_rows hstep j
  refine ⟨hshape, shape_invariant Allowed db' (.step hreach hstep) j, htouch.row.2, ?_⟩
  intro old hold
  rcases htouch with ⟨hsame, _⟩ | ⟨new, hnew, hchange⟩
  · exact ⟨old, hsame.trans hold, fun hne => absurd rfl hne, fun _ => rfl⟩
  · rw [hold] at hchange
    obtain ⟨hlive, hlegal⟩ := hchange.legal (hshape old hold)
    exact ⟨new, hnew, hlegal, fun ht => absurd (hlive.symm.trans ht) (by decide)⟩

/-- The claim of a created job is a legal step of a reachable database. -/
theorem lifecycle_claim :
    ∃ new, (Sample.after Sample.claimed).job? Sample.job = some new ∧
      LegalStep (Sample.claim Sample.lease 100 1) Sample.job
        (newJobRow Sample.request "key" (Sample.at_ 2)) new := by
  have hreach : (repository fun _ => True).Reachable (Sample.after Sample.created) :=
    Sample.after_reachable fun _ _ => trivial
  have hrow : (Sample.after Sample.created).job? Sample.job =
      some (newJobRow Sample.request "key" (Sample.at_ 2)) := by decide +kernel
  have hstate : ((Sample.after Sample.claimed).job? Sample.job).map (·.state) = some .claimed := by
    decide +kernel
  have hstep := @repository_step_exec (fun _ => True) (Sample.claim Sample.lease 100 1) trivial
    (Sample.at_ 3) (Sample.after Sample.created)
  obtain ⟨_, _, _, h⟩ := lifecycle (fun _ => True) hreach hstep Sample.job
  obtain ⟨new, hnew, hlegal, _⟩ := h _ hrow
  have hnew' : (Sample.after Sample.claimed).job? Sample.job = some new := hnew
  refine ⟨new, hnew', hlegal ?_⟩
  rw [hnew'] at hstate
  have hclaimed : new.state = .claimed := Option.some.inj hstate
  rw [hclaimed]
  decide

/-! ## The recorded outcome -/

/-- A recovery of job `j` that replaced the outcome `o` of its row: a job that was
not being cancelled went back to the queue and lost outcome, failure and evidence
together, or had no attempts left and failed. -/
structure OutcomeReplaced (op : Op) (j : JobId) (o : JobOutcome) (old new : JobRow) : Prop where
  notCancelled : o ≠ .cancelled
  recovery : ∃ stale maxDeliver eventId, op = .recoverStaleJob stale maxDeliver eventId ∧
    stale.jobId = j ∧ Recoverable stale old ∧
    ((old.deliveryAttempts < maxDeliver ∧ new.state = .queued ∧ new.pendingOutcome = none ∧
        new.failure = none ∧ new.artifactsFinalized = false ∧ new.cleanupCompleted = false) ∨
      (maxDeliver ≤ old.deliveryAttempts ∧ new.pendingOutcome = some .infraFailed ∧
        new.failure = some abandonedFailure))

/-- **One change.** Only a recovery replaces a recorded outcome. -/
theorem RowChange.pendingOutcome {op : Op} {t : DbTime} {j : JobId} {old new : JobRow}
    {o : JobOutcome} (h : RowChange op t j (some old) new) (hs : old.Shape)
    (ho : old.pendingOutcome = some o) :
    new.pendingOutcome = some o ∨ OutcomeReplaced op j o old new := by
  cases h with
  | cancel _ hp => rw [hp] at ho; cases ho
  | claim hq => rw [(hs.queued hq).2.2.1] at ho; cases ho
  | @transition _ source target evidence lease payload eventId _ _ hval hguard =>
      -- COALESCE keeps the stored outcome or takes an equal one
      left
      show evidence.pendingOutcome.or old.pendingOutcome = some o
      rcases (transitionGuard_iff.mp hguard).2.1 with he | he | he
      · rw [he, ho]; rfl
      · rw [he] at ho; cases ho
      · rw [← he, ho]; rfl
  | @result result _ _ _ hguard =>
      left
      show some result.outcome = some o
      rcases (resultGuard_iff.mp hguard).2.2.2.1 with he | he
      · rw [he] at ho; cases ho
      · rw [← he, ho]
  | heartbeat _ _ hguard =>
      rw [(extendGuard_iff.mp hguard).2.2.2.1] at ho; cases ho
  | @recover stale maxDeliver eventId _ _ hfence =>
      by_cases hc : o = .cancelled
      · left
        subst hc
        simp [recoveryKind, ho, JobRow.recovered, JobRow.toFinalizer]
      · right
        have hne : old.pendingOutcome ≠ some .cancelled := by
          rw [ho]; exact fun h => hc (Option.some.inj h)
        refine ⟨hc, stale, maxDeliver, eventId, rfl, rfl, hfence, ?_⟩
        rw [hfence.attempts]
        by_cases ha : stale.deliveryAttempts < maxDeliver
        · left
          simp [recoveryKind, hne, ha, JobRow.recovered, JobRow.requeued]
        · right
          refine ⟨by omega, ?_⟩
          simp [recoveryKind, hne, ha, JobRow.recovered, JobRow.toFinalizer]

/-- The row of `j` has outcome `o` pending, and ends in it if it has ended. -/
def Db.Decided (db : Db) (j : JobId) (o : JobOutcome) : Prop :=
  ∃ row, db.job? j = some row ∧ row.pendingOutcome = some o ∧
    (row.state.isTerminal = true → row.outcome = some o)

/-- A terminal row ends in its pending outcome. -/
theorem JobRow.Shape.decided {db : Db} {j : JobId} {row : JobRow} {o : JobOutcome}
    (hs : row.Shape) (hrow : db.job? j = some row) (ho : row.pendingOutcome = some o) :
    db.Decided j o := by
  refine ⟨row, hrow, ho, fun ht => ?_⟩
  obtain ⟨hout, hp, _⟩ := hs.terminal ht
  rw [hout, ← hp, ho]

/-- **Outcomes.** From a reachable state in which outcome `o` is recorded for `j`,
a run keeps it, to the end of the job, until a recovery replaces it. -/
theorem outcome_kept (Allowed : Op → Prop) {db db' : Db} {calls : List Call}
    (hreach : (repository Allowed).Reachable db) (hrun : (repository Allowed).Run db calls db')
    {j : JobId} {row : JobRow} {o : JobOutcome} (hrow : db.job? j = some row)
    (ho : row.pendingOutcome = some o) :
    db'.Decided j o ∨ ∃ pre call post db₁ db₂ row₁ row₂, calls = pre ++ call :: post ∧
      (repository Allowed).Run db pre db₁ ∧ db₁.Decided j o ∧ db₁.job? j = some row₁ ∧
      (repository Allowed).step db₁ call db₂ ∧ db₂.job? j = some row₂ ∧
      OutcomeReplaced call.op j o row₁ row₂ ∧ (repository Allowed).Run db₂ post db' := by
  by_cases hend : db'.Decided j o
  · exact Or.inl hend
  right
  -- the first step that loses the outcome
  have hstart : db.Decided j o := (shape_invariant Allowed db hreach j row hrow).decided hrow ho
  obtain ⟨pre, call, post, db₁, db₂, rfl, hpre, h₁, hstep, h₂, hpost⟩ :=
    TSys.Run.leaves (P := fun db => db.Decided j o) hrun hstart hend
  have hreach₁ := hreach.run hpre
  have hshape₁ := shape_invariant Allowed db₁ hreach₁ j
  have hshape₂ := shape_invariant Allowed db₂ (.step hreach₁ hstep) j
  obtain ⟨row₁, hrow₁, ho₁, _⟩ := id h₁
  rcases repository_step_rows hstep j with ⟨hsame, _⟩ | ⟨row₂, hrow₂, hchange⟩
  · exact absurd ((hshape₁ row₁ hrow₁).decided (hsame.trans hrow₁) ho₁) h₂
  · rw [hrow₁] at hchange
    rcases hchange.pendingOutcome (hshape₁ row₁ hrow₁) ho₁ with hkeep | hreplaced
    · exact absurd ((hshape₂ row₂ hrow₂).decided hrow₂ hkeep) h₂
    · exact ⟨pre, call, post, db₁, db₂, row₁, row₂, rfl, hpre, h₁, hrow₁, hstep, hrow₂, hreplaced,
        hpost⟩

namespace Sample

/-- The running tests passed. -/
def passed : List (Op × DbTime) := running ++ [(.recordJobResult (result .passed) (event 6), at_ 8)]

/-- The owner goes on to collect artifacts. -/
def collect : Op := .transitionJobState job .runningTests .collectingArtifacts
  ⟨some .passed, false, false⟩ (some ⟨worker, lease⟩) [] (event 7)

end Sample

/-- A passed run keeps its outcome when the owner goes on. -/
theorem outcome_kept_passed :
    ((Sample.after Sample.passed).replay [(Sample.collect, Sample.at_ 9)]).Decided Sample.job
      .passed := by
  obtain ⟨calls, hops, hrun⟩ := @Db.replay_run (fun _ => True) [(Sample.collect, Sample.at_ 9)]
    (fun _ _ => trivial) (Sample.after Sample.passed)
  have hpending : ((Sample.after Sample.passed).job? Sample.job).map (·.pendingOutcome) =
      some (some .passed) := by decide +kernel
  obtain ⟨row, hrow, ho⟩ := Option.map_eq_some_iff.mp hpending
  rcases outcome_kept (fun _ => True) (Sample.after_reachable fun _ _ => trivial) hrun hrow ho with
    h | ⟨pre, call, post, _, _, _, _, rfl, _, _, _, _, _, hreplaced, _⟩
  · exact h
  · -- the only call is a transition
    obtain ⟨stale, maxDeliver, eventId, hop, _⟩ := hreplaced.recovery
    have hmem : (call.op, call.time) ∈ (pre ++ call :: post).map fun c => (c.op, c.time) :=
      List.mem_map.mpr ⟨call, by simp, rfl⟩
    rw [hops, hop, List.mem_singleton] at hmem
    cases hmem

/-- **A replaced outcome.** The tests passed, the owner's lease ran out on the last
attempt, and the job ends `infra_failed` without having been requeued. -/
theorem passed_becomes_infraFailed :
    let db := Sample.after Sample.passed
    let ops := [(Sample.recover .runningTests 1 7, Sample.at_ 250),
      (Sample.finalize .collectingArtifacts .cleaningUp .infraFailed false 8, Sample.at_ 251),
      (Sample.finalize .cleaningUp .infraFailed .infraFailed true 9, Sample.at_ 252)]
    (repository fun _ => True).Reachable db ∧
    (∃ calls, calls.map (fun c => (c.op, c.time)) = ops ∧
      (repository fun _ => True).Run db calls (db.replay ops)) ∧
    (db.job? Sample.job).map (·.pendingOutcome) = some (some .passed) ∧
    (∀ n, ((db.replay (ops.take n)).job? Sample.job).map (·.state) ≠ some .queued) ∧
    ((db.replay ops).job? Sample.job).map (fun row => (row.state, row.outcome)) =
      some (.infraFailed, some .infraFailed) := by
  refine ⟨Sample.after_reachable fun _ _ => trivial, Db.replay_run (fun _ _ => trivial) _,
    by decide +kernel, ?_, by decide +kernel⟩
  intro n
  match n with
  | 0 | 1 | 2 => decide +kernel
  | n + 3 =>
      rw [List.take_of_length_le (by simp)]
      decide +kernel

end RunAnywhere
