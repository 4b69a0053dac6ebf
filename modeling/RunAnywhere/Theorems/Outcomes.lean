import RunAnywhere.Theorems.Lifecycle

/-!
# Outcomes the state machine admits

A row is wedged when its pending outcome is one the validator refuses on the way to
artifact collection. Outcomes are stored by two writers that do not ask
`early_outcome_allowed`: a result stores any outcome in any leased state, and a
transition up the spine stores whatever outcome its evidence names. `Op.Admits` is
the condition on these two; the runs that meet it never wedge a row
(`unwedged_invariant`), and a committed call that does not meet it does
(`wedged_of_not_admits`).
-/

namespace RunAnywhere

open Logic

/-- States a live owner leaves for artifact collection. -/
def JobState.beforeCollection : JobState → Bool
  | .claimed | .provisioningRuntime | .booting | .installingApk | .runningTests
  | .debugAvailable => true
  | _ => false

/-- The states in which an outcome other than a result of the tests may come up. -/
def JobState.early : JobState → Bool
  | .claimed | .provisioningRuntime | .booting | .installingApk => true
  | _ => false

/-- The owner can drive the row's pending outcome to its terminal state: the edge
to artifact collection is accepted, and the two edges after it are. -/
def JobRow.Unwedged (row : JobRow) : Prop :=
  ∀ o, row.pendingOutcome = some o → row.state.beforeCollection = true →
    (∀ artifacts cleanup,
      validateTransition row.state .collectingArtifacts ⟨some o, artifacts, cleanup⟩ = .ok ()) ∧
    ∃ terminal : JobState, terminal.terminalOutcome = some o ∧
      (∀ cleanup,
        validateTransition .collectingArtifacts .cleaningUp ⟨some o, true, cleanup⟩ = .ok ()) ∧
      validateTransition .cleaningUp terminal ⟨some o, true, true⟩ = .ok ()

/-- After collection any outcome can be driven to its terminal state. -/
theorem finish_accepted (o : JobOutcome) : ∃ terminal : JobState,
    terminal.terminalOutcome = some o ∧
    (∀ cleanup,
      validateTransition .collectingArtifacts .cleaningUp ⟨some o, true, cleanup⟩ = .ok ()) ∧
    validateTransition .cleaningUp terminal ⟨some o, true, true⟩ = .ok () := by
  have hterminal : ∃ terminal : JobState, terminal.terminalOutcome = some o := by
    cases o with
    | passed => exact ⟨.passed, rfl⟩
    | failed => exact ⟨.failed, rfl⟩
    | cancelled => exact ⟨.cancelled, rfl⟩
    | timedOut => exact ⟨.timedOut, rfl⟩
    | infraFailed => exact ⟨.infraFailed, rfl⟩
  obtain ⟨terminal, ho⟩ := hterminal
  exact ⟨terminal, ho, fun _ => Edge.validateTransition (.cleanup rfl),
    Edge.validateTransition (.finish ho rfl rfl)⟩

/-- Outcome `o` may be pending in state `s`. -/
def JobState.admits (s : JobState) (o : JobOutcome) : Bool := !s.early || earlyOutcomeAllowed s o

/-- A row is unwedged exactly when its state admits its pending outcome. -/
theorem JobRow.unwedged_iff (row : JobRow) :
    row.Unwedged ↔ ∀ o, row.pendingOutcome = some o → row.state.admits o = true := by
  constructor
  · intro h o ho
    cases hs : row.state with
    | claimed | provisioningRuntime | booting | installingApk =>
        have hok := (h o ho (by rw [hs]; rfl)).1 false false
        rw [hs] at hok
        cases validateTransition_edge hok with
        | spine hn => cases hn
        | collect h' => rcases h' with h' | h' <;> cases h'
        | early ha hp =>
            obtain rfl := Option.some.inj hp
            simp [JobState.admits, ha]
    | _ => rfl
  · intro h o ho hs
    have hadmit := h o ho
    refine ⟨fun artifacts cleanup => Edge.validateTransition ?_, finish_accepted o⟩
    cases hst : row.state with
    | claimed | provisioningRuntime | booting | installingApk =>
        rw [hst] at hadmit
        exact .early (by simpa [JobState.admits, JobState.early] using hadmit) rfl
    | runningTests => exact .collect (Or.inl rfl) rfl
    | debugAvailable => exact .collect (Or.inr rfl) rfl
    | _ => rw [hst] at hs; cases hs

/-- An outcome the spine admits stays admitted up the spine. -/
theorem admits_next {s s' : JobState} {o : JobOutcome} (h : s.next = some s')
    (ha : s.admits o = true) (hq : s ≠ .queued) : s'.admits o = true := by
  cases s <;> cases h <;> revert ha hq <;> cases o <;> decide

/-- An edge keeps an admitted outcome admitted. -/
theorem Edge.admits {evidence : TransitionEvidence} {source target : JobState} {o : JobOutcome}
    (h : Edge evidence source target) (ha : source.admits o = true) (hq : source ≠ .queued) :
    target.admits o = true := by
  cases h with
  | spine hn => exact admits_next hn ha hq
  | debug | collect | early | cleanup => rfl
  | finish ht => cases target <;> first | rfl | cases ht

/-- The outcome a call records on the row of its job, if it names one, and the
state it leaves the row in. -/
def Op.records (db : Db) : Op → Option (JobState × JobOutcome)
  | .recordJobResult result _ =>
      (db.job? result.jobId).map fun row => (row.state, result.outcome)
  | .transitionJobState j _ target evidence _ _ _ =>
      if (db.job? j).any (·.pendingOutcome.isNone) then
        evidence.pendingOutcome.map fun o => (target, o)
      else none
  | _ => none

/-- The call records no outcome that the state of the row does not admit. -/
def Op.Admits (db : Db) (op : Op) : Prop :=
  ∀ s o, op.records db = some (s, o) → s.admits o = true

instance (db : Db) (op : Op) : Decidable (op.Admits db) :=
  match h : op.records db with
  | none => isTrue fun s o hso => by rw [h] at hso; cases hso
  | some (s, o) =>
      if ha : s.admits o = true then
        isTrue fun s' o' hso => by rw [h] at hso; cases hso; exact ha
      else isFalse fun hall => ha (hall s o h)

/-- **One change.** A change made by a call that admits its outcome leaves the row
unwedged. -/
theorem RowChange.unwedged {op : Op} {t : DbTime} {j : JobId} {db : Db} {new : JobRow}
    (h : RowChange op t j (db.job? j) new) (hadmits : op.Admits db)
    (hold : ∀ row, db.job? j = some row → row.Shape ∧ row.Unwedged) : new.Unwedged := by
  rw [JobRow.unwedged_iff]
  intro o ho
  generalize hdb : db.job? j = old at h
  cases h with
  | create => cases ho
  | cancel => rfl
  | @claim _ _ _ _ _ _ _ row hq =>
      -- a queued row has no outcome
      have hp : row.pendingOutcome = some o := ho
      rw [((hold row hdb).1.queued hq).2.2.1] at hp
      cases hp
  | @transition _ source target evidence lease payload eventId _ row hval hguard =>
      have hedge := validateTransition_edge hval
      obtain ⟨rfl, hmatch, _⟩ := transitionGuard_iff.mp hguard
      have hp : evidence.pendingOutcome.or row.pendingOutcome = some o := ho
      show target.admits o = true
      cases hrow : row.pendingOutcome with
      | none =>
          -- the outcome is new: the call records it
          rw [hrow, Option.or_none] at hp
          exact hadmits target o (by simp [Op.records, hdb, hrow, hp])
      | some o' =>
          -- the stored outcome is kept
          obtain rfl : o' = o := by
            rcases hmatch with he | he | he
            · rw [he, hrow] at hp; exact Option.some.inj hp
            · rw [hrow] at he; cases he
            · rw [← he, hrow] at hp; exact Option.some.inj hp
          have hq : row.state ≠ .queued := by
            intro hq
            rw [((hold row hdb).1.queued hq).2.2.1] at hrow
            cases hrow
          exact hedge.admits ((JobRow.unwedged_iff row).mp (hold row hdb).2 o' hrow) hq
  | @result result _ _ row hguard =>
      have hp : some result.outcome = some o := ho
      exact hadmits row.state o (by simp [Op.records, hdb, Option.some.inj hp])
  | @heartbeat _ _ _ _ row _ _ hguard =>
      have hp : row.pendingOutcome = some o := ho
      rw [(extendGuard_iff.mp hguard).2.2.2.1] at hp
      cases hp
  | @recover stale maxDeliver _ _ row _ =>
      have hfinal : ∀ o' failure, (row.toFinalizer o' failure).state.early = false := by
        intro o' failure
        by_cases hc : row.state = .cleaningUp <;> simp [JobRow.toFinalizer, hc, JobState.early]
      have hearly : (row.recovered (recoveryKind stale maxDeliver row)).state.early = false := by
        cases recoveryKind stale maxDeliver row with
        | requeue => rfl
        | cancelling => exact hfinal _ _
        | exhausted => exact hfinal _ _
      simp [JobState.admits, hearly]

/-- **One wedge.** A call that commits and records an outcome its state does not
admit leaves a wedged row. -/
theorem Op.wedges {op : Op} {t : DbTime} {db db' : Db} {out : op.Out}
    (h : (op.tx t).Commits db out db') (hnot : ¬ op.Admits db) :
    ∃ j row, db'.job? j = some row ∧ ¬ row.Unwedged := by
  obtain ⟨s, o, hrec, hadmit⟩ : ∃ s o, op.records db = some (s, o) ∧ ¬ s.admits o = true := by
    by_contra hall
    refine hnot fun s o hrec => ?_
    by_contra hadmit
    exact hall ⟨s, o, hrec, hadmit⟩
  have wedged : ∀ row : JobRow, row.state = s → row.pendingOutcome = some o → ¬ row.Unwedged := by
    intro row hs hp hun
    exact hadmit (hs ▸ (JobRow.unwedged_iff row).mp hun o hp)
  cases op with
  | recordJobResult result eventId =>
      obtain ⟨row, hc, hrow, _, _, _, _, _, hjobs, _⟩ := recordJobResult_commits h
      simp only [Op.records, hrow, Option.map_some, Option.some.injEq, Prod.mk.injEq] at hrec
      refine ⟨result.jobId, row.withResult result, ?_, wedged _ hrec.1 ?_⟩
      · unfold Db.job?
        rw [hjobs]
        exact Table.row?_put_self _ _ _ _
      · show some result.outcome = some o
        rw [hrec.2]
  | transitionJobState j source target evidence lease payload eventId =>
      obtain ⟨row, hrow, _, _, _, hstored⟩ := transitionJobState_stores h
      simp only [Op.records, hrow, Option.any_some, Option.isNone_iff_eq_none] at hrec
      split at hrec
      · next hp =>
          obtain ⟨o', ho', heq⟩ := Option.map_eq_some_iff.mp hrec
          obtain ⟨hstate, houtcome⟩ := Prod.mk.inj heq
          subst hstate
          subst houtcome
          refine ⟨j, row.transitioned target evidence t, hstored, wedged _ rfl ?_⟩
          show evidence.pendingOutcome.or row.pendingOutcome = some o'
          rw [ho']
          rfl
      · cases hrec
  | _ => cases hrec

/-- Runs of the repository in which every call admits the outcome it records. -/
def admitting : TSys Db Call where
  init db := (repository fun _ => True).init db
  step db call db' := (repository fun _ => True).step db call db' ∧ call.op.Admits db

theorem admitting_proj : TSys.Proj admitting (repository fun _ => True) id where
  init _ h := h
  step _ call _ _ h := ⟨[call], .single h.1⟩

/-- Every call of the replay admits the outcome it records. -/
def Db.ReplayAdmits (db : Db) : List (Op × DbTime) → Prop
  | [] => True
  | (op, t) :: rest => op.Admits db ∧ Db.ReplayAdmits ((op.tx t).exec db).2 rest

instance Db.decidableReplayAdmits (db : Db) :
    (ops : List (Op × DbTime)) → Decidable (db.ReplayAdmits ops)
  | [] => isTrue trivial
  | (op, t) :: rest =>
      have := Db.decidableReplayAdmits ((op.tx t).exec db).2 rest
      inferInstanceAs (Decidable (op.Admits db ∧ Db.ReplayAdmits ((op.tx t).exec db).2 rest))

theorem Db.replay_admitting {ops : List (Op × DbTime)} {db : Db} (hs : admitting.Reachable db)
    (h : db.ReplayAdmits ops) : admitting.Reachable (db.replay ops) := by
  induction ops generalizing db with
  | nil => exact hs
  | cons x rest ih =>
      obtain ⟨op, t⟩ := x
      exact ih (.step hs ⟨repository_step_exec trivial t db, h.1⟩) h.2

/-- **Outcomes.** In every run whose calls admit the outcomes they record, no row is
wedged; and a call that commits against the condition wedges the row it writes. -/
theorem outcomes_admitted {db : Db} (hreach : admitting.Reachable db) :
    (∀ j row, db.job? j = some row → row.Unwedged) ∧
    ∀ call db', (repository fun _ => True).step db call db' → call.answer.isOk = true →
      ¬ call.op.Admits db → ∃ j row, db'.job? j = some row ∧ ¬ row.Unwedged := by
  refine ⟨?_, ?_⟩
  · induction hreach with
    | init hi =>
        obtain ⟨catalog, rfl⟩ := hi
        intro j row hrow
        cases hrow
    | @step db call db' hr hstep ih =>
        intro j row hrow
        rcases repository_step_rows hstep.1 j with ⟨hsame, _⟩ | ⟨new, hnew, hchange⟩
        · exact ih j row (hsame ▸ hrow)
        · obtain rfl := Option.some.inj (hnew.symm.trans hrow)
          refine hchange.unwedged hstep.2 fun old hold => ⟨?_, ih j old hold⟩
          exact shape_invariant _ db (admitting_proj.reachable hr) j old hold
  · intro call db' hstep hok hnot
    rcases repository_step_cases hstep with ⟨out, _, hc⟩ | ⟨⟨e, he⟩, _⟩
    · exact Op.wedges hc hnot
    · rw [he] at hok
      cases hok

namespace Sample

/-- The owner of the claimed job reports an outcome before it has started. -/
def reported (outcome : JobOutcome) : List (Op × DbTime) :=
  claimed ++ [(.recordJobResult (result outcome) (event 2), at_ 4)]

end Sample

/-- A job whose worker fails before it has started can be driven to its end. -/
theorem outcomes_admitted_infraFailed :
    ∃ row, (Sample.after (Sample.reported .infraFailed)).job? Sample.job = some row ∧
      row.pendingOutcome = some .infraFailed ∧ row.Unwedged := by
  have hadmits : (Db.empty Sample.catalog).ReplayAdmits (Sample.reported .infraFailed) := by
    decide +kernel
  have hreach : admitting.Reachable (Sample.after (Sample.reported .infraFailed)) :=
    Db.replay_admitting (.init ⟨Sample.catalog, rfl⟩) hadmits
  have hpending : ((Sample.after (Sample.reported .infraFailed)).job? Sample.job).map
      (·.pendingOutcome) = some (some .infraFailed) := by decide +kernel
  obtain ⟨row, hrow, ho⟩ := Option.map_eq_some_iff.mp hpending
  exact ⟨row, hrow, ho, (outcomes_admitted hreach).1 Sample.job row hrow⟩

/-- **A wedged job.** The owner of a claimed job reports that its tests passed: the
result is stored, and the validator refuses every way to artifact collection. -/
theorem passed_while_claimed_is_wedged :
    (repository fun _ => True).Reachable (Sample.after (Sample.reported .passed)) ∧
    ((Sample.after (Sample.reported .passed)).job? Sample.job).map
      (fun row => (row.state, row.pendingOutcome)) = some (.claimed, some .passed) ∧
    ∀ artifacts cleanup,
      validateTransition .claimed .collectingArtifacts ⟨some .passed, artifacts, cleanup⟩ =
        .error (.outcomeNotAllowed .claimed .passed) :=
  ⟨Sample.after_reachable fun _ _ => trivial, by decide +kernel, by decide⟩

end RunAnywhere
