import RunAnywhere.Logic.Path
import RunAnywhere.Scheduler.Dlq

/-!
# The reconciler

`scheduler/src/reconciler.rs`: one pass ends stale leases, finalizes jobs whose
runtimes are gone, drains the dead-letter outbox and retires the sources of exhausted
jobs. The inventory of runtimes, their removal and the audit of debug sessions answer
from outside.
-/

namespace RunAnywhere

open Logic

inductive ReconcilerError
  | repository (error : RepositoryError)
  | dlq (error : DlqError)
  | invalidExhaustionMarker (eventKey : String)
  deriving DecidableEq

namespace Reconciler

/-- `RECONCILE_BATCH`. -/
def batch : Nat := 200

/-- `get_job_scheduling_snapshot`. -/
def snapshot (j : JobId) : TaskOr ReconcilerError (Option JobSchedulingSnapshot) :=
  .try_ (Repository.getJobSchedulingSnapshot j) .repository

/-- The loop of `run_once` over the stale leases. -/
def recoverAll (cfg : Config) : List StaleJob → TaskOr ReconcilerError Unit
  | [] => pure ()
  | stale :: rest => do
      let lease : LeaseGuard := ⟨stale.workerId, stale.leaseId⟩
      match ← Routine.try_ (Repository.recoverStaleJob stale cfg.maxRunAttempts) .repository with
      | .requeued _ => do
          -- a missing binding is expected after a failover
          let _ ← (AckRegistry.nak stale.jobId stale.workerId stale.leaseId).attempt
          recoverAll cfg rest
      | .finalizing _ => do
          let _ ← act (.memory (.exhaustedInsert stale.jobId lease))
          recoverAll cfg rest
      | .cancelling _ => do
          let _ ← act (.memory (.cancellationInsert stale.jobId lease))
          recoverAll cfg rest
      | .lostRace => recoverAll cfg rest

/-- `runtime_ownership`: a lookup that fails protects the runtime. -/
def runtimeOwnership (resource : RuntimeResource) : Task RuntimeOwnership := do
  match ← Repository.getJobSchedulingSnapshot resource.jobId with
  | .ok none => pure .jobMissing
  | .ok (some snap) =>
      if snap.job.state.isTerminal then pure .jobTerminal
      else if snap.lease = some ⟨resource.workerId, resource.leaseId⟩ then
        pure .activeMatchingLease
      else pure .leaseMismatch
  | .error _ => pure .unknown

/-- The loop of `reconcile_runtimes`, with the jobs that keep a runtime so far. -/
def reconcileEach (cfg : Config) (at_ : Time) :
    List RuntimeResource → List JobId → Task (List JobId)
  | [], remaining => pure remaining
  | resource :: rest, remaining => do
      let ownership ← runtimeOwnership resource
      let unsafeSince ← act (.memory (.orphanObserve resource ownership at_))
      match evaluateReap resource ownership unsafeSince at_ cfg.timing.reapGrace with
      | .reap => do
          match ← act (.outside (.reap resource)) with
          | .ok .reaped | .ok .alreadyAbsent => do
              let _ ← act (.memory (.orphanRemove resource.resourceId))
              reconcileEach cfg at_ rest remaining
          | .ok .skipped | .error _ => reconcileEach cfg at_ rest (resource.jobId :: remaining)
      | .keepInGrace | .keepActive | .keepUnknown =>
          reconcileEach cfg at_ rest (resource.jobId :: remaining)

/-- `reconcile_runtimes`: the jobs that keep a managed runtime. -/
def reconcileRuntimes (cfg : Config) (at_ : Time) : TaskOr String (List JobId) := do
  let resources ← .try_ (act (.outside .inventory)) id
  let remaining ← reconcileEach cfg at_ resources []
  let _ ← act (.memory (.orphanRetain (resources.map (·.resourceId))))
  pure remaining

/-- The unfenced transition of the leader's finalizer. -/
def finalizerTransition (j : JobId) (source target : JobState) (outcome : JobOutcome)
    (cleanupCompleted : Bool) (payload : List (String × EventValue)) : TaskOr ReconcilerError Unit := do
  let _ ← .try_ (Repository.transitionJobState j source target ⟨some outcome, true, cleanupCompleted⟩
    none payload) .repository

/-- After a cancelled job was finalized: acknowledge its source, if recovery saw its
lease. -/
def acknowledgeCancelled (rounds : Nat) (j : JobId) : TaskOr ReconcilerError Unit := do
  match ← act (.memory (.cancellationGet j)) with
  | none => pure ()
  | some lease =>
      -- the guard in the scrutinee of the `if let` lives to the end of its body
      let body : TaskOr ReconcilerError Unit := do
        match ← (AckRegistry.confirmAck rounds j lease.workerId lease.leaseId).attempt with
        | .ok () | .error (.missing _) =>
            let _ ← act (.memory (.cancellationRemove j))
        | .error _ => pure ()
      holding .pendingCancellations body

/-- After an exhausted job was finalized: publish its dead letter, then retire its
source, if recovery saw its lease. -/
def retireExhausted (cfg : Config) (snap : JobSchedulingSnapshot) : TaskOr ReconcilerError Unit := do
  let deadLetter ← expect (JobDeadLetter.new (some snap.job.id) (some snap.job.projectId) none
    (max snap.deliveryAttempts 1) .attemptsExhausted (← now))
  let _ ← .try_ (Dlq.ensurePublished cfg.dispatcherId deadLetter []) .dlq
  match ← act (.memory (.exhaustedRemove snap.job.id)) with
  | none => pure ()
  | some lease => do
      match ← (AckRegistry.take snap.job.id lease.workerId lease.leaseId).attempt with
      | .ok b => .try_ (Dlq.retireDelivery b) .dlq
      | .error _ => pure ()

/-- One job of `finalize_ready_jobs`; whether it was finalized. -/
def finalizeJob (cfg : Config) (rounds : Nat) (j : JobId) : TaskOr ReconcilerError Bool := do
  match ← snapshot j with
  | none => pure false
  | some snap =>
      match snap.lease, snap.pendingOutcome with
      | none, some outcome =>
          match outcome with
          | .cancelled | .infraFailed => do
              let snap ← (do
                if snap.job.state = .collectingArtifacts then
                  finalizerTransition j .collectingArtifacts .cleaningUp outcome false
                    [("finalizer", .text "confirmed_empty_or_unrecoverable")]
                  match ← snapshot j with
                  | some refreshed => pure refreshed
                  | none => .lift stop
                else pure snap : TaskOr ReconcilerError JobSchedulingSnapshot)
              if snap.job.state ≠ .cleaningUp then pure false
              else do
                let terminal := if outcome = .cancelled then .cancelled else .infraFailed
                finalizerTransition j .cleaningUp terminal outcome true
                  [("cleanup", .text "reconciled")]
                if outcome = .cancelled then acknowledgeCancelled rounds j
                else retireExhausted cfg snap
                pure true
          | _ => pure false
      | _, _ => pure false

/-- The loop of `finalize_ready_jobs`. -/
def finalizeAll (cfg : Config) (rounds : Nat) (runtimeJobs : List JobId) :
    List JobId → Nat → TaskOr ReconcilerError Nat
  | [], finalized => pure finalized
  | j :: rest, finalized =>
      if runtimeJobs.contains j then finalizeAll cfg rounds runtimeJobs rest finalized
      else do
        let done ← finalizeJob cfg rounds j
        finalizeAll cfg rounds runtimeJobs rest (if done then finalized + 1 else finalized)

/-- `finalize_ready_jobs`. -/
def finalizeReadyJobs (cfg : Config) (rounds : Nat) (runtimeJobs : List JobId) :
    TaskOr ReconcilerError Nat := do
  let ids ← .try_ (act (.query (.finalizableJobs batch))) .repository
  finalizeAll cfg rounds runtimeJobs ids 0

/-- The loop of `retire_published_exhausted`. -/
def retireAll (cfg : Config) : List (JobId × LeaseGuard) → TaskOr ReconcilerError Unit
  | [] => pure ()
  | (j, lease) :: rest => do
      match ← snapshot j with
      | none => retireAll cfg rest
      | some snap =>
          if snap.job.state ≠ .infraFailed then retireAll cfg rest
          else do
            let eventKey := exhaustionEventKey j snap.deliveryAttempts
            match ← Routine.try_ (Repository.getOutboxMessage eventKey) .repository with
            | none => retireAll cfg rest
            | some marker =>
                if !isMatchingExhaustionMarker marker j snap.deliveryAttempts then
                  .fail (.invalidExhaustionMarker eventKey)
                else if marker.publishedAt.isNone then retireAll cfg rest
                else do
                  match ← (AckRegistry.take j lease.workerId lease.leaseId).attempt with
                  | .ok b => .try_ (Dlq.retireDelivery b) .dlq
                  | .error _ => pure ()
                  let _ ← act (.memory (.exhaustedRemove j))
                  retireAll cfg rest

/-- `retire_published_exhausted`. -/
def retirePublishedExhausted (cfg : Config) : TaskOr ReconcilerError Unit := do
  let pending ← act (.memory .exhaustedList)
  retireAll cfg pending

/-- `run_once`: a runtime inventory that fails skips the finalization only. -/
def runOnce (cfg : Config) (rounds : Nat) : TaskOr ReconcilerError Unit := do
  let at_ ← now
  let staleJobs ← .try_ (Repository.findStaleJobs
    ⟨at_, at_ - (cfg.timing.staleWorkerThreshold : Int), batch⟩) .repository
  recoverAll cfg staleJobs
  match ← (reconcileRuntimes cfg at_).attempt with
  | .ok runtimeJobs =>
      let _ ← finalizeReadyJobs cfg rounds runtimeJobs
  | .error _ => pure ()
  let _ ← .try_ (act (.outside .endDebugSessions)) .repository
  let _ ← .try_ (Dlq.publishReady cfg.dispatcherId) .dlq
  retirePublishedExhausted cfg

end Reconciler

/-! ## The guard of the pending cancellations -/

section Holding

open Prog

variable {l : MemoryLock} {α β : Type}

theorem stop_bind (f : α → Task β) : (stop >>= f : Task β) = stop := by
  refine congrArg (Prog.act Action.stop) (funext fun e => ?_)
  exact e.elim

theorem stop_lift {ε : Type} : (Routine.lift stop : TaskOr ε α) = stop := stop_bind _

theorem holding_bind (p : Task α) (f : α → Task β) :
    holding l (p >>= f) = holding l p >>= fun a => holding l (f a) := by
  induction p with
  | done a => rfl
  | act x k ih =>
      simp only [act_bind, holding]
      by_cases hx : x.lock = some l
      · rw [if_pos hx, if_pos hx, stop_bind]
      · rw [if_neg hx, if_neg hx]
        exact congrArg (Prog.act x) (funext ih)

/-- A part that does not ask for the lock is not held up. -/
theorem holding_of_all {p : Task α} (hp : All (fun x => x.lock ≠ some l) p) :
    holding l p = p := by
  induction p with
  | done a => rfl
  | act x k ih =>
      simp only [holding]
      rw [if_neg hp.1]
      exact congrArg (Prog.act x) (funext fun r => ih r (hp.2 r))

/-- An acknowledgement takes no lock but the registry's. -/
theorem confirmAck_locks (rounds : Nat) (j : JobId) (w : WorkerId) (lease : LeaseId) :
    All (fun x => x.lock ≠ some .pendingCancellations)
      (AckRegistry.confirmAck rounds j w lease) := by
  have hloop (rounds : Nat) (b : AckBinding) :
      All (fun x => x.lock ≠ some .pendingCancellations)
        (AckRegistry.confirmLoop j w lease rounds b) := by
    induction rounds generalizing b with
    | zero => exact .lift ⟨by decide, fun e => e.elim⟩
    | succ rounds ih =>
        refine .andThen (.try_ (.perform nofun)) fun _ => ?_
        refine .andThen (.perform nofun) fun found => ?_
        cases found with
        | none => trivial
        | some current => exact ih current
  exact .andThen (.perform nofun) fun b => hloop rounds b

/-- **Its own guard.** A pass that ended a job whose cancellation is pending does not go on after
an acknowledgement that came to an end: it asks for the lock it holds. -/
theorem acknowledgeCancelled_eq (rounds : Nat) (j : JobId) :
    Reconciler.acknowledgeCancelled rounds j = (do
      match ← act (.memory (.cancellationGet j)) with
      | none => pure ()
      | some lease => do
          match ← (AckRegistry.confirmAck rounds j lease.workerId lease.leaseId).attempt with
          | .ok () | .error (.missing _) => .lift stop
          | .error _ => pure ()) := by
  unfold Reconciler.acknowledgeCancelled
  refine congrArg _ (funext fun lease? => ?_)
  cases lease? with
  | none => rfl
  | some lease =>
      refine (holding_bind _ _).trans ?_
      rw [holding_of_all (.attempt (confirmAck_locks rounds j lease.workerId lease.leaseId))]
      refine congrArg _ (funext fun r => ?_)
      cases r with
      | error e => rfl
      | ok r =>
          cases r with
          | ok u => exact stop_lift.symm
          | error e =>
              cases e with
              | missing k => exact stop_lift.symm
              | staleLease k => rfl
              | jetStream text => rfl

end Holding

end RunAnywhere
