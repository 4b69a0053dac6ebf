import RunAnywhere.Contracts.StateMachine
import RunAnywhere.Logic.Tx

/-!
# Repository errors

`repository/src/error.rs`. A write that violates a constraint of the schema
fails with the driver's error (`sqlx`), which names the constraint.
-/

namespace RunAnywhere

/-- Identifies the project quota that rejected an otherwise valid operation. -/
inductive ProjectQuota
  | outstandingJobs | concurrentJobs
  deriving DecidableEq

/-- What the driver reports: a rejected statement, or a lost connection. -/
inductive SqlxError
  | checkViolation (table : String)
  | uniqueViolation (constraint : String)
  | foreignKeyViolation (constraint : String)
  | untranslatableCharacter
  | rowNotFound
  | connection
  deriving DecidableEq

inductive RepositoryError
  | validation (message : String)
  | notFound (entity id : String)
  | conflict (message : String)
  | quotaExceeded (projectId : String) (quota : ProjectQuota) (current limit : Nat)
  | invalidTransition (error : TransitionError)
  | compareAndSwapLost (entity id : String)
  | decode (field message : String)
  | sqlx (error : SqlxError)
  deriving DecidableEq

/-- `to_u32`: a BIGINT column read into a `u32`. -/
def toU32 (field : String) (value : Nat) : Except RepositoryError Nat :=
  if value < 4294967296 then .ok value
  else .error (.decode field "out of range integral type conversion attempted")

/-- `checked_i64`: a `u64` bound to a BIGINT column. -/
def checkedI64 (field : String) (value : Nat) : Except RepositoryError Nat :=
  if value < 9223372036854775808 then .ok value
  else .error (.validation (field ++ " exceeds PostgreSQL BIGINT"))

section Writes

variable {σ α : Type}

/-- `classify_write`: a write that meets a taken key is a conflict. -/
def classifyWrite (x : Logic.Tx RepositoryError σ α) (conflict : String) :
    Logic.Tx RepositoryError σ α := fun s =>
  (x s).mapError fun
    | .sqlx (.uniqueViolation _) => .conflict conflict
    | e => e

theorem classifyWrite_commits {x : Logic.Tx RepositoryError σ α} {conflict : String} {s s' : σ}
    {a : α} : (classifyWrite x conflict).Commits s a s' ↔ x.Commits s a s' := by
  unfold Logic.Tx.Commits classifyWrite
  exact Logic.Tx.mapError_eq_ok

end Writes

end RunAnywhere
