import Mathlib.Logic.Basic

/-!
# The job lifecycle

`contracts/src/state_machine.rs`: job states, outcomes, the evidence a
transition carries and the validator `validateTransition`. The lemmas at the end
read the validator backwards: which states an accepted edge leaves and what it
says about the outcome.
-/

namespace RunAnywhere

inductive JobOutcome
  | passed | failed | cancelled | timedOut | infraFailed
  deriving DecidableEq

/-- The wire name (`rename_all = "snake_case"`). -/
def JobOutcome.wire : JobOutcome → String
  | .passed => "passed"
  | .failed => "failed"
  | .cancelled => "cancelled"
  | .timedOut => "timed_out"
  | .infraFailed => "infra_failed"

/-- The `{:?}` rendering used in conflict messages. -/
def JobOutcome.debug : JobOutcome → String
  | .passed => "Passed"
  | .failed => "Failed"
  | .cancelled => "Cancelled"
  | .timedOut => "TimedOut"
  | .infraFailed => "InfraFailed"

inductive JobState
  | queued | claimed | provisioningRuntime | booting | installingApk | runningTests
  | debugAvailable | collectingArtifacts | cleaningUp
  | passed | failed | cancelled | timedOut | infraFailed
  deriving DecidableEq

/-- The wire name (`rename_all = "snake_case"`). -/
def JobState.wire : JobState → String
  | .queued => "queued"
  | .claimed => "claimed"
  | .provisioningRuntime => "provisioning_runtime"
  | .booting => "booting"
  | .installingApk => "installing_apk"
  | .runningTests => "running_tests"
  | .debugAvailable => "debug_available"
  | .collectingArtifacts => "collecting_artifacts"
  | .cleaningUp => "cleaning_up"
  | .passed => "passed"
  | .failed => "failed"
  | .cancelled => "cancelled"
  | .timedOut => "timed_out"
  | .infraFailed => "infra_failed"

/-- The `{:?}` rendering used in error messages. -/
def JobState.debug : JobState → String
  | .queued => "Queued"
  | .claimed => "Claimed"
  | .provisioningRuntime => "ProvisioningRuntime"
  | .booting => "Booting"
  | .installingApk => "InstallingApk"
  | .runningTests => "RunningTests"
  | .debugAvailable => "DebugAvailable"
  | .collectingArtifacts => "CollectingArtifacts"
  | .cleaningUp => "CleaningUp"
  | .passed => "Passed"
  | .failed => "Failed"
  | .cancelled => "Cancelled"
  | .timedOut => "TimedOut"
  | .infraFailed => "InfraFailed"

/-- `is_terminal`. -/
def JobState.isTerminal : JobState → Bool
  | .passed | .failed | .cancelled | .timedOut | .infraFailed => true
  | _ => false

/-- `terminal_outcome`. -/
def JobState.terminalOutcome : JobState → Option JobOutcome
  | .passed => some .passed
  | .failed => some .failed
  | .cancelled => some .cancelled
  | .timedOut => some .timedOut
  | .infraFailed => some .infraFailed
  | _ => none

structure TransitionEvidence where
  pendingOutcome : Option JobOutcome
  artifactsFinalized : Bool
  cleanupCompleted : Bool
  deriving DecidableEq

/-- `TransitionEvidence::default()`. -/
def TransitionEvidence.default : TransitionEvidence := ⟨none, false, false⟩

inductive TransitionError
  | invalidTransition (source target : JobState)
  | missingPendingOutcome (source target : JobState)
  | outcomeNotAllowed (source : JobState) (outcome : JobOutcome)
  | artifactsNotFinalized
  | cleanupNotCompleted
  | terminalOutcomeMismatch (pending : JobOutcome) (target : JobState)
  deriving DecidableEq

def TransitionError.message : TransitionError → String
  | .invalidTransition source target =>
      "transition from " ++ source.debug ++ " to " ++ target.debug ++ " is not allowed"
  | .missingPendingOutcome source target =>
      "transition from " ++ source.debug ++ " to " ++ target.debug ++
        " requires a pending outcome"
  | .outcomeNotAllowed source outcome =>
      "outcome " ++ outcome.debug ++ " is not allowed while leaving " ++ source.debug
  | .artifactsNotFinalized => "artifacts must be finalized before cleanup begins"
  | .cleanupNotCompleted => "cleanup must complete before a terminal state is recorded"
  | .terminalOutcomeMismatch pending target =>
      "terminal state " ++ target.debug ++ " does not match pending outcome " ++ pending.debug

/-- `require_pending_outcome`. -/
def requirePendingOutcome (source target : JobState) (evidence : TransitionEvidence) :
    Except TransitionError JobOutcome :=
  match evidence.pendingOutcome with
  | some outcome => .ok outcome
  | none => .error (.missingPendingOutcome source target)

/-- `early_outcome_allowed`. -/
def earlyOutcomeAllowed (source : JobState) (outcome : JobOutcome) : Bool :=
  match source with
  | .queued => outcome == .cancelled || outcome == .timedOut
  | .claimed | .provisioningRuntime | .booting =>
      outcome == .cancelled || outcome == .timedOut || outcome == .infraFailed
  | .installingApk =>
      outcome == .failed || outcome == .cancelled || outcome == .timedOut || outcome == .infraFailed
  | _ => false

/-- `validate_transition`. -/
def validateTransition (source target : JobState) (evidence : TransitionEvidence) :
    Except TransitionError Unit :=
  if source.isTerminal || (target.isTerminal && source != .cleaningUp) then
    .error (.invalidTransition source target)
  else
    match source, target with
    | .queued, .claimed
    | .claimed, .provisioningRuntime
    | .provisioningRuntime, .booting
    | .booting, .installingApk
    | .installingApk, .runningTests => .ok ()
    | .runningTests, .debugAvailable => do
        let _ ← requirePendingOutcome source target evidence
        .ok ()
    | .runningTests, .collectingArtifacts
    | .debugAvailable, .collectingArtifacts => do
        let _ ← requirePendingOutcome source target evidence
        .ok ()
    | .queued, .collectingArtifacts
    | .claimed, .collectingArtifacts
    | .provisioningRuntime, .collectingArtifacts
    | .booting, .collectingArtifacts
    | .installingApk, .collectingArtifacts => do
        let outcome ← requirePendingOutcome source target evidence
        if earlyOutcomeAllowed source outcome then .ok ()
        else .error (.outcomeNotAllowed source outcome)
    | .collectingArtifacts, .cleaningUp =>
        if evidence.artifactsFinalized then .ok () else .error .artifactsNotFinalized
    | .cleaningUp, terminal =>
        if terminal.isTerminal then
          if !evidence.cleanupCompleted then .error .cleanupNotCompleted
          else do
            let pending ← requirePendingOutcome source target evidence
            if terminal.terminalOutcome = some pending then .ok ()
            else .error (.terminalOutcomeMismatch pending terminal)
        else .error (.invalidTransition source target)
    | _, _ => .error (.invalidTransition source target)

/-! ## Reading the validator backwards -/

theorem JobState.isTerminal_iff (s : JobState) : s.isTerminal = true ↔ ∃ o, s.terminalOutcome = some o := by
  cases s <;> simp [isTerminal, terminalOutcome]

theorem JobState.terminalOutcome_eq_none (s : JobState) :
    s.terminalOutcome = none ↔ s.isTerminal = false := by
  cases s <;> simp [isTerminal, terminalOutcome]

/-- The next state on the way from the queue to the running tests. -/
def JobState.next : JobState → Option JobState
  | .queued => some .claimed
  | .claimed => some .provisioningRuntime
  | .provisioningRuntime => some .booting
  | .booting => some .installingApk
  | .installingApk => some .runningTests
  | _ => none

/-- The edges of the lifecycle and what each asks of the evidence. -/
inductive Edge (evidence : TransitionEvidence) : JobState → JobState → Prop
  | spine {source target} : source.next = some target → Edge evidence source target
  | debug {o} : evidence.pendingOutcome = some o → Edge evidence .runningTests .debugAvailable
  | collect {source o} : source = .runningTests ∨ source = .debugAvailable →
      evidence.pendingOutcome = some o → Edge evidence source .collectingArtifacts
  | early {source o} : earlyOutcomeAllowed source o = true →
      evidence.pendingOutcome = some o → Edge evidence source .collectingArtifacts
  | cleanup : evidence.artifactsFinalized = true → Edge evidence .collectingArtifacts .cleaningUp
  | finish {target o} : target.terminalOutcome = some o → evidence.pendingOutcome = some o →
      evidence.cleanupCompleted = true → Edge evidence .cleaningUp target

/-- An outcome is required to be present. -/
theorem requirePendingOutcome_ok {source target : JobState} {evidence : TransitionEvidence}
    {o : JobOutcome} (h : requirePendingOutcome source target evidence = .ok o) :
    evidence.pendingOutcome = some o := by
  unfold requirePendingOutcome at h
  split at h
  · next hp => cases h; exact hp
  · cases h

/-- An accepted edge is one of the lifecycle. -/
theorem validateTransition_edge {source target : JobState} {evidence : TransitionEvidence}
    (h : validateTransition source target evidence = .ok ()) : Edge evidence source target := by
  unfold validateTransition at h
  split at h
  · cases h
  split at h
  -- the spine
  iterate 5 exact .spine rfl
  · -- the debug hold
    cases hp : requirePendingOutcome .runningTests .debugAvailable evidence with
    | error e => rw [hp] at h; cases h
    | ok o => exact .debug (requirePendingOutcome_ok hp)
  · cases hp : requirePendingOutcome .runningTests .collectingArtifacts evidence with
    | error e => rw [hp] at h; cases h
    | ok o => exact .collect (Or.inl rfl) (requirePendingOutcome_ok hp)
  · cases hp : requirePendingOutcome .debugAvailable .collectingArtifacts evidence with
    | error e => rw [hp] at h; cases h
    | ok o => exact .collect (Or.inr rfl) (requirePendingOutcome_ok hp)
  -- the early exits
  iterate 5
    · generalize hp : requirePendingOutcome _ _ evidence = r at h
      cases r with
      | error e => cases h
      | ok o =>
          simp only [bind, Except.bind] at h
          split at h
          · next ha => exact .early ha (requirePendingOutcome_ok hp)
          · cases h
  · split at h
    · next ha => exact .cleanup ha
    · cases h
  · -- a terminal state
    split at h
    · split at h
      · cases h
      next hc =>
      generalize hp : requirePendingOutcome _ _ evidence = r at h
      cases r with
      | error e => cases h
      | ok o =>
          simp only [bind, Except.bind] at h
          split at h
          · next ht => exact .finish ht (requirePendingOutcome_ok hp) (by simpa using hc)
          · cases h
    · cases h
  · cases h

/-- Every edge of the lifecycle is accepted. -/
theorem Edge.validateTransition {source target : JobState} {evidence : TransitionEvidence}
    (h : Edge evidence source target) : validateTransition source target evidence = .ok () := by
  cases h with
  | spine hn => cases source <;> simp_all [JobState.next] <;> subst hn <;> rfl
  | debug hp => simp [RunAnywhere.validateTransition, requirePendingOutcome, hp, JobState.isTerminal,
      bind, Except.bind]
  | collect hs hp =>
      rcases hs with rfl | rfl <;>
        simp [RunAnywhere.validateTransition, requirePendingOutcome, hp, JobState.isTerminal,
          bind, Except.bind]
  | early ha hp =>
      cases source <;> simp_all [RunAnywhere.validateTransition, requirePendingOutcome,
        earlyOutcomeAllowed, JobState.isTerminal, bind, Except.bind]
  | cleanup ha => simp [RunAnywhere.validateTransition, ha, JobState.isTerminal]
  | finish ht hp hc =>
      have hterm : target.isTerminal = true := (JobState.isTerminal_iff target).mpr ⟨_, ht⟩
      cases target <;> simp_all [RunAnywhere.validateTransition, requirePendingOutcome,
        JobState.isTerminal, bind, Except.bind]

/-- **The validator.** It accepts the edges of the lifecycle and nothing else. -/
theorem validateTransition_ok_iff {source target : JobState} {evidence : TransitionEvidence} :
    validateTransition source target evidence = .ok () ↔ Edge evidence source target :=
  ⟨validateTransition_edge, Edge.validateTransition⟩

namespace Edge

variable {evidence : TransitionEvidence} {source target : JobState}

/-- No edge leaves a terminal state. -/
theorem source_live (h : Edge evidence source target) : source.isTerminal = false := by
  cases h with
  | spine hn => cases source <;> simp_all [JobState.next, JobState.isTerminal]
  | debug | cleanup | finish => rfl
  | collect hs => rcases hs with rfl | rfl <;> rfl
  | early ha => cases source <;> simp_all [earlyOutcomeAllowed, JobState.isTerminal]

/-- No edge returns to the queue. -/
theorem target_ne_queued (h : Edge evidence source target) : target ≠ .queued := by
  rintro rfl
  cases h with
  | spine hn => cases source <;> cases hn
  | finish ht => cases ht

/-- A terminal state is entered from cleanup, with its own outcome. -/
theorem of_terminal (h : Edge evidence source target) (ht : target.isTerminal = true) :
    source = .cleaningUp ∧ evidence.cleanupCompleted = true ∧
      evidence.pendingOutcome = target.terminalOutcome := by
  cases h with
  | spine hn => cases source <;> simp_all [JobState.next] <;> subst hn <;> cases ht
  | debug | collect | early | cleanup => cases ht
  | finish ho hp hc => exact ⟨rfl, hc, hp.trans ho.symm⟩

/-- Evidence that keeps a named outcome and the flags is accepted too. -/
theorem mono (h : Edge evidence source target) {evidence' : TransitionEvidence}
    (hp : ∀ o, evidence.pendingOutcome = some o → evidence'.pendingOutcome = some o)
    (ha : evidence.artifactsFinalized = true → evidence'.artifactsFinalized = true)
    (hc : evidence.cleanupCompleted = true → evidence'.cleanupCompleted = true) :
    Edge evidence' source target := by
  cases h with
  | spine hn => exact .spine hn
  | debug ho => exact .debug (hp _ ho)
  | collect hs ho => exact .collect hs (hp _ ho)
  | early he ho => exact .early he (hp _ ho)
  | cleanup hf => exact .cleanup (ha hf)
  | finish ht ho hf => exact .finish ht (hp _ ho) (hc hf)

end Edge

end RunAnywhere
