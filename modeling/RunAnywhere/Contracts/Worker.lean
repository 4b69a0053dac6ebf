import RunAnywhere.Contracts.Api

/-!
# Worker and queue contracts

`contracts/src/worker.rs`: registrations, heartbeats, the queue payload
`JobQueued`, results, the control replies and the sanitized dead letters with
their idempotency keys.
-/

namespace RunAnywhere

structure WorkerRegistration where
  workerId : WorkerId
  runtimes : List RuntimeKind
  kvm : Bool
  gpu : Bool
  arch : HostArch
  capacity : Nat
  deriving DecidableEq

structure JobLeaseExtension where
  jobId : JobId
  leaseId : LeaseId
  deriving DecidableEq

structure WorkerHeartbeat where
  workerId : WorkerId
  activeJobs : Nat
  capacity : Nat
  runtimes : List RuntimeKind
  kvm : Bool
  gpu : Bool
  arch : HostArch
  leaseExtends : List JobLeaseExtension
  lastSeen : Time
  deriving DecidableEq

/-- The queue payload: canonical profile data is resolved from the database. -/
structure JobQueued where
  jobId : JobId
  projectId : ProjectId
  runtimeProfileId : RuntimeProfileId
  minIsolation : IsolationTier
  timeoutSeconds : DurationSeconds
  deriving DecidableEq

structure JobClaim where
  jobId : JobId
  projectId : ProjectId
  workerId : WorkerId
  leaseId : LeaseId
  apkUploadId : UploadId
  testUploadId : Option UploadId
  runtimeProfile : RuntimeProfile
  mode : JobMode
  minIsolation : IsolationTier
  automation : AutomationSpec
  artifacts : ArtifactSelection
  timeoutSeconds : DurationSeconds
  claimedAt : Time
  leaseExpiresAt : Time
  deriving DecidableEq

/-- One fenced claim sent to its worker. -/
structure JobDispatch where
  claim : JobClaim
  traceContext : List (String × String)
  deriving DecidableEq

structure JobResult where
  jobId : JobId
  workerId : WorkerId
  leaseId : LeaseId
  outcome : JobOutcome
  artifactIds : List ArtifactId
  artifactsFinalized : Bool
  cleanupCompleted : Bool
  error : Option FailureDetail
  completedAt : Time
  deriving DecidableEq

/-- A worker-requested state transition fenced by the exact worker lease. -/
structure JobStateTransitionRequest where
  jobId : JobId
  workerId : WorkerId
  leaseId : LeaseId
  source : JobState
  target : JobState
  evidence : TransitionEvidence
  deriving DecidableEq

/-- `JobStateTransitionRequest::validate`. -/
def JobStateTransitionRequest.validate (request : JobStateTransitionRequest) :
    Except TransitionError Unit :=
  validateTransition request.source request.target request.evidence

/-- Typed reply of the scheduler's request/reply control subjects. -/
inductive ControlResponse
  | accepted
  | heartbeat (extended cancelRequested stale : List JobLeaseExtension)
  | staleLease
  | quotaExceeded (retryAfterSeconds : DurationSeconds)
  | retry (retryAfterSeconds : DurationSeconds)
  deriving DecidableEq

inductive JobDeadLetterReason
  | malformedMessage | canonicalJobInconsistent | attemptsExhausted
  deriving DecidableEq

inductive JobDeadLetterValidationError
  | zeroAttempt | zeroSourceStreamSequence | missingStableIdentity
  deriving DecidableEq

/-- The `Display` texts. -/
def JobDeadLetterValidationError.message : JobDeadLetterValidationError → String
  | .zeroAttempt => "dead-letter attempt must be at least one"
  | .zeroSourceStreamSequence => "dead-letter source stream sequence must be at least one"
  | .missingStableIdentity =>
      "dead letter must identify either a job or a source stream sequence"

/-- Sanitized record published to `jobs.dead` after durable outbox insertion. -/
structure JobDeadLetter where
  jobId : Option JobId
  projectId : Option ProjectId
  sourceStreamSequence : Option Nat
  attempt : Nat
  reason : JobDeadLetterReason
  deadLetteredAt : Time
  deriving DecidableEq

/-- `JobDeadLetter::validate`. -/
def JobDeadLetter.validate (d : JobDeadLetter) : Except JobDeadLetterValidationError Unit :=
  if d.attempt = 0 then .error .zeroAttempt
  else if d.sourceStreamSequence = some 0 then .error .zeroSourceStreamSequence
  else if
    (match d.reason with
      | .attemptsExhausted => d.jobId.isNone
      | .malformedMessage | .canonicalJobInconsistent => d.sourceStreamSequence.isNone) then
    .error .missingStableIdentity
  else .ok ()

/-- `JobDeadLetter::idempotency_key`: the key of the durable outbox entry. -/
def JobDeadLetter.idempotencyKey (d : JobDeadLetter) :
    Except JobDeadLetterValidationError String :=
  match d.validate with
  | .error e => .error e
  | .ok () =>
      match d.reason with
      | .attemptsExhausted =>
          match d.jobId with
          | some jobId => .ok ("dlq:" ++ jobId.val ++ ":" ++ toString d.attempt)
          | none => .error .missingStableIdentity
      | .malformedMessage =>
          match d.sourceStreamSequence with
          | some sequence => .ok ("dlq:JOB_QUEUE:" ++ toString sequence ++ ":malformed_message")
          | none => .error .missingStableIdentity
      | .canonicalJobInconsistent =>
          match d.sourceStreamSequence with
          | some sequence =>
              .ok ("dlq:JOB_QUEUE:" ++ toString sequence ++ ":canonical_job_inconsistent")
          | none => .error .missingStableIdentity

/-- `JobDeadLetter::new`. -/
def JobDeadLetter.new (jobId : Option JobId) (projectId : Option ProjectId)
    (sourceStreamSequence : Option Nat) (attempt : Nat) (reason : JobDeadLetterReason)
    (deadLetteredAt : Time) : Except JobDeadLetterValidationError JobDeadLetter :=
  let d : JobDeadLetter := ⟨jobId, projectId, sourceStreamSequence, attempt, reason, deadLetteredAt⟩
  match d.validate with
  | .ok () => .ok d
  | .error e => .error e

/-- What `new` returns is the record of its arguments. -/
theorem JobDeadLetter.new_eq {jobId : Option JobId} {projectId : Option ProjectId}
    {sequence : Option Nat} {attempt : Nat} {reason : JobDeadLetterReason} {at_ : Time}
    {d : JobDeadLetter} (h : JobDeadLetter.new jobId projectId sequence attempt reason at_ = .ok d) :
    d = ⟨jobId, projectId, sequence, attempt, reason, at_⟩ := by
  simp only [JobDeadLetter.new] at h
  split at h
  · cases h; rfl
  · cases h

end RunAnywhere
