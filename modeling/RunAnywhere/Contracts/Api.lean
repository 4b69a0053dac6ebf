import RunAnywhere.Contracts.Runtime
import RunAnywhere.Contracts.StateMachine

/-!
# API contracts

The parts of `contracts/src/api.rs` and `contracts/src/error.rs` the job
lifecycle reads and returns. Instants are microseconds since the epoch, the
resolution of a PostgreSQL timestamp; JSON payloads of job events are typed
values under their keys.
-/

namespace RunAnywhere

/-- Microseconds since the epoch. -/
abbrev Time := Int

inductive ErrorCode
  | validation | unauthorized | forbidden | notFound | conflict | quotaExceeded | infraFailed
  | internalError
  deriving DecidableEq

structure FailureDetail where
  code : ErrorCode
  message : String
  deriving DecidableEq

inductive AuthScope
  | projectRead | projectWrite | debugCreate | admin
  deriving DecidableEq

structure Project where
  id : ProjectId
  name : String
  owner : String
  maxConcurrentJobs : Nat
  maxOutstandingJobs : Nat
  createdAt : Time
  deriving DecidableEq

inductive UploadKind
  | apk | test | script
  deriving DecidableEq

/-- The `{:?}` rendering used in validation messages. -/
def UploadKind.debug : UploadKind → String
  | .apk => "Apk"
  | .test => "Test"
  | .script => "Script"

inductive JobMode
  | headlessCi | browserDebug
  deriving DecidableEq

inductive AutomationSpec
  | builtInSmoke
  | appium (scriptRef : ScriptRef)
  deriving DecidableEq

structure ArtifactSelection where
  screenshots : Bool
  video : Bool
  logcat : Bool
  junit : Bool
  deriving DecidableEq

structure CreateJobRequest where
  projectId : ProjectId
  apkUploadId : UploadId
  testUploadId : Option UploadId
  runtimeProfile : RuntimeProfileId
  mode : JobMode
  minIsolation : IsolationTier
  automation : AutomationSpec
  artifacts : ArtifactSelection
  timeoutSeconds : DurationSeconds
  deriving DecidableEq

structure Job where
  id : JobId
  projectId : ProjectId
  apkUploadId : UploadId
  testUploadId : Option UploadId
  runtimeProfile : RuntimeProfileId
  mode : JobMode
  minIsolation : IsolationTier
  automation : AutomationSpec
  artifacts : ArtifactSelection
  timeoutSeconds : DurationSeconds
  state : JobState
  outcome : Option JobOutcome
  failure : Option FailureDetail
  workerId : Option WorkerId
  createdAt : Time
  startedAt : Option Time
  finishedAt : Option Time
  deriving DecidableEq

structure JobSummary where
  id : JobId
  projectId : ProjectId
  runtimeProfile : RuntimeProfileId
  mode : JobMode
  state : JobState
  outcome : Option JobOutcome
  createdAt : Time
  startedAt : Option Time
  finishedAt : Option Time
  deriving DecidableEq

inductive ArtifactKind
  | apkMetadata | installLog | logcat | screenshot | video | appiumLog | junit | crashTrace
  | runtimeMetrics | debugSessionAudit
  deriving DecidableEq

structure Artifact where
  id : ArtifactId
  jobId : JobId
  kind : ArtifactKind
  fileName : Option String
  sizeBytes : Nat
  sha256 : Sha256
  createdAt : Time
  downloadUrl : Option String
  downloadExpiresAt : Option Time
  deriving DecidableEq

/-- The JSON values job events carry. -/
inductive EventValue
  | text (s : String)
  | bool (b : Bool)
  | number (n : Nat)
  | state (s : JobState)
  | outcome (o : JobOutcome)
  | instant (t : Time)
  | artifacts (ids : List ArtifactId)
  deriving DecidableEq

structure JobEvent where
  id : JobEventId
  jobId : JobId
  sequence : Nat
  timestamp : Time
  eventType : String
  state : Option JobState
  payload : List (String × EventValue)
  deriving DecidableEq

inductive WorkerState
  | online | draining | offline
  deriving DecidableEq

structure WorkerStatus where
  workerId : WorkerId
  runtimes : List RuntimeKind
  kvm : Bool
  gpu : Bool
  arch : HostArch
  capacity : Nat
  activeJobs : Nat
  state : WorkerState
  lastSeen : Time
  deriving DecidableEq

inductive WebhookEvent
  | jobStateChanged
  deriving DecidableEq

structure Webhook where
  projectId : ProjectId
  url : String
  events : List WebhookEvent
  active : Bool
  deriving DecidableEq

end RunAnywhere
