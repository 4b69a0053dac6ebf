import RunAnywhere.Contracts.Api
import RunAnywhere.Logic.Table

/-!
# Managed runtimes

`scheduler/src/reaper.rs`: a runtime may be reaped when its job and lease are gone for
long enough. The Docker Engine behind the inventory and the removals is outside.
-/

namespace RunAnywhere

open Logic

/-- A managed runtime the engine lists. -/
structure RuntimeResource where
  resourceId : String
  jobId : JobId
  workerId : WorkerId
  leaseId : LeaseId
  createdAt : Time
  deriving DecidableEq

inductive RuntimeOwnership
  | activeMatchingLease | jobMissing | jobTerminal | leaseMismatch | unknown
  deriving DecidableEq

inductive ReapDecision
  | reap | keepActive | keepInGrace | keepUnknown
  deriving DecidableEq

/-- What became of a runtime that was to be reaped. -/
inductive ReapOutcome
  | reaped | alreadyAbsent | skipped
  deriving DecidableEq

/-- `chrono::Duration::from_std`, in microseconds: at most `i64::MAX` milliseconds. -/
def durationFromStd (micros : Nat) : Option Int :=
  if micros ≤ 9223372036854775807 * 1000 then some micros else none

/-- `evaluate_reap`: time alone is never sufficient, an active matching lease remains
protected at any age. -/
def evaluateReap (_resource : RuntimeResource) (ownership : RuntimeOwnership)
    (unsafeSince : Option Time) (now : Time) (grace : Nat) : ReapDecision :=
  match ownership with
  | .activeMatchingLease => .keepActive
  | .unknown => .keepUnknown
  | .jobMissing | .jobTerminal | .leaseMismatch =>
      match unsafeSince, durationFromStd grace with
      | some since, some grace => if now - since < grace then .keepInGrace else .reap
      | _, _ => .keepInGrace

/-- Since when each runtime has been seen without its lease. -/
abbrev OrphanObservations := Table String (RuntimeResource × Time)

/-- `observe_runtime_ownership`. -/
def OrphanObservations.observe (observations : OrphanObservations) (resource : RuntimeResource)
    (ownership : RuntimeOwnership) (now : Time) : Option Time × OrphanObservations :=
  match ownership with
  | .activeMatchingLease | .unknown => (none, observations.erase resource.resourceId)
  | .jobMissing | .jobTerminal | .leaseMismatch =>
      match observations.get? resource.resourceId with
      | some (observed, firstSeen) =>
          if observed = resource then (some firstSeen, observations)
          else (some now, observations.put resource.resourceId (resource, now))
      | none => (some now, observations.put resource.resourceId (resource, now))

/-- The `retain` of the runtimes an inventory listed. -/
def OrphanObservations.retain (observations : OrphanObservations) (listed : List String) :
    OrphanObservations :=
  (observations.keys.filter (· ∉ listed)).foldl (·.erase ·) observations

end RunAnywhere
