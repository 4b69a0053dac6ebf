import RunAnywhere.Theorems.Lifecycle

/-!
# What the Rust checks accept and what the schema accepts

Two specifications of a valid job row have to agree: the checks a worker's transition or
result passes before its UPDATE, and the CHECK constraints of table `jobs`. They agree but
for two gaps:

* **transitions** — the validator accepts `cleanup_completed` on any edge, and the UPDATE
  merges it into a row whose artifacts are not finalized; `record_job_result` refuses that;
* **results** — a failure may have a blank message, which only the schema refuses, or one with
  U+0000, which its column does not hold.

`Op.Conforms` closes both, and asks that a job does not end before it was created. A call
that conforms stores a valid row, and one that does not fails in the database
(`rust_accepts_schema`).
-/

namespace RunAnywhere

open Logic

/-- A transition or a result that passes its Rust checks and whose UPDATE matches `row`; it
would store `new`. -/
inductive Op.Writes (db : Db) (t : DbTime) : Op → JobRow → JobRow → Prop
  | transition {j source target evidence lease payload eventId row} :
      validateTransition source target evidence = .ok () → db.job? j = some row →
      transitionGuard source evidence lease t row = true →
      Writes db t (.transitionJobState j source target evidence lease payload eventId) row
        (row.transitioned target evidence t)
  | result {result eventId row} :
      (result.cleanupCompleted = true → result.artifactsFinalized = true) →
      (result.outcome = .passed → result.error = none) → db.job? result.jobId = some row →
      (verifyArtifactIds result.jobId result.artifactIds).Commits db () db →
      resultGuard result t row = true →
      Writes db t (.recordJobResult result eventId) row (row.withResult result)

/-- What the Rust checks leave to the schema. -/
def Op.Conforms (t : DbTime) (row : JobRow) : Op → Prop
  | .transitionJobState _ _ target evidence _ _ _ =>
      (evidence.cleanupCompleted = true →
        row.artifactsFinalized = true ∨ evidence.artifactsFinalized = true) ∧
      (target.isTerminal = true → row.createdAt ≤ t.now)
  | .recordJobResult result _ => ∀ failure ∈ result.error,
      jsonbHolds failure.message = true ∧ btrimEmpty failure.message = false
  | _ => True

/-! ## The stored row -/

/-- **Transition.** Of the constraints the evidence and the end of the job can break one
each; the lease columns and the terminal columns come out right. -/
theorem JobRow.transitioned_checks_iff {row : JobRow} (hc : row.Checks) (hs : row.Shape)
    {source target : JobState} {evidence : TransitionEvidence} {t : DbTime}
    (hsource : row.state = source) (hedge : Edge evidence source target) :
    (row.transitioned target evidence t).Checks ↔
      (evidence.cleanupCompleted = true →
        row.artifactsFinalized = true ∨ evidence.artifactsFinalized = true) ∧
      (target.isTerminal = true → row.createdAt ≤ t.now) := by
  constructor
  · intro h
    constructor
    · intro hclean
      have hart := h.cleanupAfterArtifacts (by
        show (row.cleanupCompleted || evidence.cleanupCompleted) = true
        rw [hclean, Bool.or_true])
      exact Bool.or_eq_true_iff.mp hart
    · intro hend
      obtain ⟨o, ho⟩ := (JobState.isTerminal_iff target).mp hend
      refine h.finishedOrder t.now ?_
      show (if target.terminalOutcome.isSome then some t.now else row.finishedAt) = some t.now
      rw [ho]
      rfl
  · rintro ⟨hclean, hend⟩
    have hlive : row.state.isTerminal = false := hsource ▸ hedge.source_live
    have hshape := hs.transitioned hsource hedge (t := t)
    have hopen : row.outcome = none ∧ row.finishedAt = none := by
      have hterm := hc.terminalState
      unfold JobRow.terminalStateConsistent at hterm
      rw [(JobState.terminalOutcome_eq_none _).mpr hlive] at hterm
      exact hterm
    have hcleanup : (row.cleanupCompleted || evidence.cleanupCompleted) = true →
        (row.artifactsFinalized || evidence.artifactsFinalized) = true := by
      intro h
      rcases Bool.or_eq_true_iff.mp h with h | h
      · rw [hc.cleanupAfterArtifacts h, Bool.true_or]
      · exact Bool.or_eq_true_iff.mpr (hclean h)
    cases hout : target.terminalOutcome with
    | none =>
        -- the job goes on: the lease and the terminal columns are the row's
        have hnot : target.isTerminal = false := (JobState.terminalOutcome_eq_none _).mp hout
        have hne : target ≠ .queued := hedge.target_ne_queued
        have hlease : (row.transitioned target evidence t).leaseConsistent := by
          unfold JobRow.leaseConsistent JobRow.transitioned
          rw [hout]
          exact hc.lease
        refine ⟨hc.automation, hc.idempotencyKey, hc.failure, hc.distinctUploads, hlease, ?_,
          fun hq => absurd hq hne, hcleanup, ?_, fun ht => ?_, hc.startedOrder, ?_⟩
        · unfold JobRow.transitioned
          rw [hout]
          exact hc.leaseHasWorker
        · unfold JobRow.terminalStateConsistent JobRow.transitioned
          rw [hout]
          exact ⟨rfl, hopen.2⟩
        · have ht' : target.isTerminal = true := ht
          rw [hnot] at ht'
          cases ht'
        · unfold JobRow.transitioned
          rw [hout]
          exact hc.finishedOrder
    | some o =>
        -- the job ends: its lease is gone, and the evidence is complete
        have hterm : target.isTerminal = true := (JobState.isTerminal_iff target).mpr ⟨o, hout⟩
        obtain ⟨_, hpending, hart, hdone, hnone⟩ := hshape.terminal hterm
        have hpending' : (row.transitioned target evidence t).pendingOutcome = some o :=
          hpending.trans hout
        have hne : target ≠ .queued := hedge.target_ne_queued
        refine ⟨hc.automation, hc.idempotencyKey, hc.failure, hc.distinctUploads, ?_, ?_,
          fun hq => absurd hq hne, hcleanup, ?_, fun _ => ⟨hart, hdone, ?_⟩, hc.startedOrder, ?_⟩
        · unfold JobRow.leaseConsistent JobRow.transitioned
          rw [hout]
          trivial
        · intro hsome
          rw [hnone] at hsome
          cases hsome
        · simp only [JobRow.terminalStateConsistent, JobRow.transitioned, hout]
          exact ⟨hpending', trivial⟩
        · unfold JobRow.transitioned
          rw [hout]
          rfl
        · intro at_ hat
          unfold JobRow.transitioned at hat
          rw [hout] at hat
          obtain rfl := Option.some.inj hat
          exact hend hterm

/-- **Result.** The flags are checked in Rust; the message of the failure is not. -/
theorem JobRow.withResult_checks_iff {row : JobRow} (hc : row.Checks) {result : JobResult}
    (hflags : result.cleanupCompleted = true → result.artifactsFinalized = true)
    (hlive : row.state.isTerminal = false) :
    (row.withResult result).Checks ↔ ∀ failure ∈ result.error,
      jsonbHolds failure.message = true ∧ btrimEmpty failure.message = false := by
  constructor
  · intro h failure hf
    have hvalid := h.failure
    unfold JobRow.failureValid JobRow.withResult at hvalid
    rw [Option.mem_def.mp hf] at hvalid
    exact hvalid
  · intro h
    have hterm := hc.terminalState
    have hnone : row.state.terminalOutcome = none :=
      (JobState.terminalOutcome_eq_none _).mpr hlive
    unfold JobRow.terminalStateConsistent at hterm
    rw [hnone] at hterm
    refine ⟨hc.automation, hc.idempotencyKey, ?_, hc.distinctUploads, hc.lease,
      hc.leaseHasWorker, hc.queuedUnassigned, fun hclean => ?_, ?_, fun ht => ?_,
      hc.startedOrder, hc.finishedOrder⟩
    · unfold JobRow.failureValid JobRow.withResult
      cases he : result.error with
      | none =>
          rw [Option.none_or]
          exact hc.failure
      | some failure => exact h failure he
    · show (row.artifactsFinalized || result.artifactsFinalized) = true
      have hclean' : (row.cleanupCompleted || result.cleanupCompleted) = true := hclean
      rcases Bool.or_eq_true_iff.mp hclean' with hold | hnew
      · rw [hc.cleanupAfterArtifacts hold, Bool.true_or]
      · rw [hflags hnew, Bool.or_true]
    · unfold JobRow.terminalStateConsistent JobRow.withResult
      rw [hnone]
      exact hterm
    · have ht' : row.state.isTerminal = true := ht
      rw [hlive] at ht'
      cases ht'

/-! ## The call -/

/-- The violation the database reports for table `jobs`. -/
abbrev jobsViolation : RepositoryError := .sqlx (.checkViolation "jobs")

/-- How the database refuses a row of table `jobs`: a CHECK constraint of the table is violated,
or a text is none its column `jsonb` holds. -/
def RepositoryError.RefusesJob : RepositoryError → Prop
  | .sqlx (.checkViolation table) => table = "jobs"
  | .sqlx .untranslatableCharacter => True
  | _ => False

theorem jobsViolation_refuses : jobsViolation.RefusesJob := rfl

/-- Any other error is a different one. -/
theorem RepositoryError.RefusesJob.ne {e e' : RepositoryError} (he : e.RefusesJob)
    (hother : ¬ e'.RefusesJob) : e' ≠ e := by
  rintro rfl
  exact hother he

section Avoids

variable {e : RepositoryError} (he : e.RefusesJob)
include he

theorem insertOutbox_avoids (key subject : String) (payload : OutboxPayload)
    (headers : List (String × String)) (t : DbTime) :
    (insertOutbox key subject payload headers t).Avoids e := by
  intro db h
  unfold insertOutbox at h
  split at h
  · cases h
  · simp only at h
    split at h
    · cases h
    · exact he.ne (by simp [RepositoryError.RefusesJob]) (Except.error.inj h)

theorem insertWebhookRows_avoids (event : JobEvent) (t : DbTime)
    (webhooks : List (WebhookId × Webhook)) :
    (insertWebhookRows event t webhooks).Avoids e := by
  induction webhooks with
  | nil => exact Tx.avoids_pure _ _
  | cons hd tl ih => exact .bind (insertOutbox_avoids he _ _ _ _ _) fun _ => ih

theorem appendEvent_avoids (id : JobEventId) (j : JobId) (eventType : String)
    (state : Option JobState) (stateChanged : Bool) (payload : List (String × EventValue))
    (t : DbTime) :
    (appendEvent id j eventType state stateChanged payload t).Avoids e := by
  have hinsert : (insertEvent id j eventType state payload t).Avoids e := by
    intro db h
    unfold insertEvent at h
    split at h
    · obtain rfl := Except.error.inj h
      exact he
    · cases h
  refine .bind (Tx.avoids_require (he.ne not_false)) fun _ => .bind (Tx.avoids_read _ _) fun _ =>
    .bind (Tx.avoids_require (he.ne not_false)) fun _ =>
    .bind (Tx.avoids_require (he.ne not_false)) fun _ => .bind hinsert fun event => ?_
  cases stateChanged with
  | false => exact Tx.avoids_pure _ _
  | true =>
      exact .bind
        (.bind (Tx.avoids_read _ _) fun webhooks => insertWebhookRows_avoids he _ _ webhooks)
        fun _ => Tx.avoids_pure _ _

theorem releaseWorkerCapacity_avoids (t : DbTime) (w : WorkerId) :
    (releaseWorkerCapacity t w).Avoids e := by
  refine .bind (fun db h => ?_) fun _ => Tx.avoids_pure _ _
  unfold updateWorker at h
  split at h
  · cases h
  · split at h
    · split at h
      · cases h
      · exact he.ne (by simp [RepositoryError.RefusesJob]) (Except.error.inj h)
    · cases h

end Avoids

/-- A matching UPDATE whose row is valid. -/
theorem updateJob_of_checks {db : Db} {j : JobId} {row : JobRow} {guard : JobRow → Bool}
    {set : JobRow → JobRow} (hrow : db.job? j = some row) (hguard : guard row = true)
    (hc : (set row).Checks) : (updateJob j guard set).Commits db (some (set row))
      { db with jobs := db.jobs.put j ⟨set row, hc⟩ } := by
  simp [Tx.Commits, updateJob, hrow, hguard, hc]

/-- A matching UPDATE whose row is not. -/
theorem updateJob_of_not_checks {db : Db} {j : JobId} {row : JobRow} {guard : JobRow → Bool}
    {set : JobRow → JobRow} (hrow : db.job? j = some row) (hguard : guard row = true)
    (hc : ¬ (set row).Checks) : updateJob j guard set db = .error jobsViolation := by
  simp [updateJob, hrow, hguard, hc]

/-- The database refuses a row of table `jobs`. -/
def RepoTx.RefusedIn {α : Type} (tx : RepoTx α) (db : Db) : Prop :=
  ∃ e, RepositoryError.RefusesJob e ∧ tx db = .error e

/-- What follows a matching UPDATE decides nothing about table `jobs`. -/
theorem updateJob_bind_refused_iff {α : Type} {db : Db} {j : JobId} {row : JobRow}
    {guard : JobRow → Bool} {set : JobRow → JobRow} {f : Option JobRow → RepoTx α}
    (hrow : db.job? j = some row) (hguard : guard row = true)
    (hf : ∀ e, RepositoryError.RefusesJob e → (f (some (set row))).Avoids e) :
    RepoTx.RefusedIn (updateJob j guard set >>= f) db ↔ ¬ (set row).Checks := by
  constructor
  · rintro ⟨e, he, h⟩ hc
    rw [Tx.bind_of_commits (updateJob_of_checks hrow hguard hc)] at h
    exact hf e he _ h
  · intro hc
    exact ⟨jobsViolation, jobsViolation_refuses,
      Tx.bind_of_error (updateJob_of_not_checks hrow hguard hc)⟩

/-- **Transition.** The database refuses the call exactly when it would store an invalid row. -/
theorem transitionJobState_refused_iff {db : Db} {t : DbTime} {j : JobId}
    {source target : JobState} {evidence : TransitionEvidence} {lease : Option LeaseGuard}
    {payload : List (String × EventValue)} {eventId : JobEventId} {row : JobRow}
    (hval : validateTransition source target evidence = .ok ()) (hrow : db.job? j = some row)
    (hguard : transitionGuard source evidence lease t row = true) :
    RepoTx.RefusedIn (transitionJobState j source target evidence lease payload eventId t) db ↔
      ¬ (row.transitioned target evidence t).Checks := by
  unfold transitionJobState transitionJobStateWith
  rw [hval]
  refine updateJob_bind_refused_iff hrow hguard fun e he => ?_
  refine .bind (Tx.avoids_okOr (he.ne not_false)) fun stored => ?_
  have hrest : ∀ u : Unit, (do
      let _ ← appendEvent eventId j ("job." ++ target.wire) (some target)
        (decide (source ≠ target)) payload t
      pure (stored.intoJob j) : RepoTx Job).Avoids e := fun _ =>
    .bind (appendEvent_avoids he _ _ _ _ _ _ _) fun _ => Tx.avoids_pure _ _
  split
  · split
    · exact .bind (releaseWorkerCapacity_avoids he _ _) hrest
    · exact hrest ()
  · exact hrest ()

/-- **Result.** Its failure is refused as a text before the UPDATE, or in the row. -/
theorem recordJobResult_refused_iff {db : Db} {t : DbTime} {result : JobResult}
    {eventId : JobEventId} {row : JobRow}
    (hflags : result.cleanupCompleted = true → result.artifactsFinalized = true)
    (hpassed : result.outcome = .passed → result.error = none)
    (hrow : db.job? result.jobId = some row)
    (hartifacts : (verifyArtifactIds result.jobId result.artifactIds).Commits db () db)
    (hguard : resultGuard result t row = true) :
    RepoTx.RefusedIn (recordJobResult result eventId t) db ↔
      ¬ (row.withResult result).Checks := by
  obtain ⟨hw, hl, _, hpending, hlive⟩ := resultGuard_iff.mp hguard
  have hheld : row.heldBy result.workerId result.leaseId = true :=
    JobRow.heldBy_iff.mpr ⟨hw, hl⟩
  have hpass : (!(decide (result.outcome = .passed) && result.error.isSome)) = true := by
    by_cases hp : result.outcome = .passed
    · simp [hpassed hp]
    · simp [hp]
  have hclean : (!(result.cleanupCompleted && !result.artifactsFinalized)) = true := by
    cases hc : result.cleanupCompleted with
    | false => rfl
    | true => simp [hflags hc]
  have hclean' : (!(result.cleanupCompleted &&
      !(row.artifactsFinalized || result.artifactsFinalized))) = true := by
    cases hc : result.cleanupCompleted with
    | false => rfl
    | true => simp [hflags hc]
  unfold recordJobResult
  rw [RepoTx.RefusedIn, Tx.bind_require hclean, Tx.bind_require hpass,
    Tx.bind_of_commits (lockJob_commits.mpr ⟨rfl, rfl⟩), hrow,
    Tx.bind_of_commits (Tx.okOr_commits.mpr ⟨rfl, rfl⟩), Tx.bind_require hheld,
    Tx.bind_require (by rw [hlive]; rfl), Tx.bind_require hclean']
  have hrest : ∀ f : Option JobRow → RepoTx Job,
      (∀ e, RepositoryError.RefusesJob e → (f (some (row.withResult result))).Avoids e) →
      (RepoTx.RefusedIn (verifyArtifactIds result.jobId result.artifactIds >>= fun _ =>
        Tx.require (result.error.all fun failure => jsonbHolds failure.message)
          (.sqlx .untranslatableCharacter) >>= fun _ =>
        updateJob result.jobId (resultGuard result t) (·.withResult result) >>= f) db ↔
          ¬ (row.withResult result).Checks) := by
    intro f hf
    rw [RepoTx.RefusedIn, Tx.bind_of_commits hartifacts]
    cases htext : result.error.all fun failure => jsonbHolds failure.message with
    | true =>
        rw [Tx.bind_require rfl]
        exact updateJob_bind_refused_iff hrow hguard hf
    | false =>
        refine iff_of_true
          ⟨.sqlx .untranslatableCharacter, trivial, Tx.bind_of_error rfl⟩ fun hc => ?_
        have hmessage := (JobRow.withResult_checks_iff (Db.job?_checks hrow) hflags hlive).mp hc
        have hall : (result.error.all fun failure => jsonbHolds failure.message) = true :=
          (Option.all_eq_true _ _).mpr fun failure hf => (hmessage failure hf).1
        rw [htext] at hall
        cases hall
  have havoids : ∀ (stored : Option JobRow) (e : RepositoryError), e.RefusesJob → (do
      let stored ← Tx.okOr stored (.compareAndSwapLost "job result" result.jobId.val)
      let _ ← appendEvent eventId result.jobId "job.result_recorded" (some row.state) false
        [("outcome", .outcome result.outcome), ("completed_at", .instant result.completedAt),
          ("artifact_ids", .artifacts result.artifactIds)] t
      pure (stored.intoJob result.jobId) : RepoTx Job).Avoids e := fun stored e he =>
    .bind (Tx.avoids_okOr (he.ne not_false)) fun stored =>
      .bind (appendEvent_avoids he _ _ _ _ _ _ _) fun _ => Tx.avoids_pure _ _
  rcases hpending with hnone | hsame
  · rw [hnone]
    exact hrest _ (havoids _)
  · rw [hsame]
    show (∃ e, _ ∧ (Tx.require (decide (result.outcome = result.outcome)) _ >>= fun _ => _) db =
      _) ↔ _
    rw [Tx.bind_require (decide_eq_true rfl)]
    exact hrest _ (havoids _)

/-- **The database refuses the call** exactly when it would store an invalid row. -/
theorem Op.Writes.refused_iff {db : Db} {t : DbTime} {op : Op} {row new : JobRow}
    (h : op.Writes db t row new) :
    (∃ e, RepositoryError.RefusesJob e ∧ op.tx t db = .error e) ↔ ¬ new.Checks := by
  cases h with
  | transition hval hrow hguard =>
      exact transitionJobState_refused_iff hval hrow hguard
  | result hflags hpassed hrow hartifacts hguard =>
      exact recordJobResult_refused_iff hflags hpassed hrow hartifacts hguard

/-- **What the Rust checks accept, the schema accepts**, of the calls that conform and of no
others: for every stored row and every transition or result that passes its Rust checks and
matches, the row it would store satisfies the constraints of table `jobs`, and the database
does not refuse it, if and only if the call conforms. -/
theorem rust_accepts_schema {Allowed : Op → Prop} {db : Db}
    (hr : (repository Allowed).Reachable db) {op : Op} {t : DbTime} {row new : JobRow}
    (h : op.Writes db t row new) :
    (new.Checks ↔ op.Conforms t row) ∧
      ((∃ e, RepositoryError.RefusesJob e ∧ (op.tx t).exec db = (.error e, db)) ↔
        ¬ op.Conforms t row) := by
  have hiff : new.Checks ↔ op.Conforms t row := by
    cases h with
    | @transition j source target evidence lease payload eventId _ hval hrow hguard =>
        have hshape := shape_invariant Allowed db hr j row hrow
        exact JobRow.transitioned_checks_iff (Db.job?_checks hrow) hshape
          (transitionGuard_iff.mp hguard).1 (validateTransition_edge hval)
    | result hflags _ hrow _ hguard =>
        exact JobRow.withResult_checks_iff (Db.job?_checks hrow) hflags
          (resultGuard_iff.mp hguard).2.2.2.2
  refine ⟨hiff, ?_⟩
  simp only [Tx.exec_error_iff]
  rw [h.refused_iff, hiff]

namespace Sample

/-- The owner reports cleanup on its way up, with artifacts that are not finalized. -/
def cleaned : Op :=
  .transitionJobState job .claimed .provisioningRuntime ⟨none, false, true⟩ (some ⟨worker, lease⟩)
    [] (event 2)

end Sample

/-- A transition without evidence conforms, and its row is valid. -/
theorem rust_accepts_schema_advanced : ∃ row,
    (Sample.after Sample.claimed).job? Sample.job = some row ∧
    (row.transitioned .provisioningRuntime .default (Sample.at_ 4)).Checks := by
  have hmatch : ((Sample.after Sample.claimed).job? Sample.job).any (transitionGuard .claimed
      .default (some ⟨Sample.worker, Sample.lease⟩) (Sample.at_ 4)) = true := by decide +kernel
  obtain ⟨row, hrow, hguard⟩ := (Option.any_eq_true _ _).mp hmatch
  have hreach : (repository fun _ => True).Reachable (Sample.after Sample.claimed) :=
    Sample.after_reachable fun _ _ => trivial
  have hwrites : (Sample.advance .claimed .provisioningRuntime 2).Writes
      (Sample.after Sample.claimed) (Sample.at_ 4) row
      (row.transitioned .provisioningRuntime .default (Sample.at_ 4)) :=
    .transition rfl hrow hguard
  exact ⟨row, hrow, (rust_accepts_schema hreach hwrites).1.mpr
    ⟨fun h => (nomatch h), fun h => (nomatch h)⟩⟩

/-- **A well-formed request fails in the database.** The validator accepts the edge and the
UPDATE matches, and the row it would store violates a constraint of table `jobs`. -/
theorem cleanup_without_artifacts_violates :
    (repository fun _ => True).Reachable (Sample.after Sample.claimed) ∧
    (∃ row new, Sample.cleaned.Writes (Sample.after Sample.claimed) (Sample.at_ 4) row new ∧
      ¬ new.Checks) ∧
    ((Sample.cleaned.tx (Sample.at_ 4)).exec (Sample.after Sample.claimed)).1 =
      .error jobsViolation := by
  have hmatch : ((Sample.after Sample.claimed).job? Sample.job).any (fun row =>
      transitionGuard .claimed ⟨none, false, true⟩ (some ⟨Sample.worker, Sample.lease⟩)
        (Sample.at_ 4) row && !row.artifactsFinalized) = true := by decide +kernel
  obtain ⟨row, hrow, hat⟩ := (Option.any_eq_true _ _).mp hmatch
  obtain ⟨hguard, hart⟩ := Bool.and_eq_true_iff.mp hat
  have hwrites : Sample.cleaned.Writes (Sample.after Sample.claimed) (Sample.at_ 4) row
      (row.transitioned .provisioningRuntime ⟨none, false, true⟩ (Sample.at_ 4)) :=
    .transition rfl hrow hguard
  have hnot : ¬ (row.transitioned .provisioningRuntime ⟨none, false, true⟩
      (Sample.at_ 4)).Checks := by
    intro hc
    have hdone := hc.cleanupAfterArtifacts (Bool.or_true _)
    have hnone : row.artifactsFinalized = false := by simpa using hart
    simp [JobRow.transitioned, hnone] at hdone
  refine ⟨Sample.after_reachable fun _ _ => trivial, ⟨row, _, hwrites, hnot⟩, ?_⟩
  have herror : Sample.cleaned.tx (Sample.at_ 4) (Sample.after Sample.claimed) =
      .error jobsViolation :=
    Tx.bind_of_commits (Tx.ofExcept_commits.mpr ⟨rfl, rfl⟩) |>.trans
      (Tx.bind_of_error (updateJob_of_not_checks hrow hguard hnot))
  rw [Tx.exec_of_error herror]

end RunAnywhere
