import RunAnywhere.Contracts.Wire
import RunAnywhere.Scheduler.Cluster

/-!
# Deliveries and their acknowledgements

`scheduler/src/delivery.rs` decodes a queue payload and decides what a delivered message means
against the canonical PostgreSQL snapshot; `scheduler/src/acknowledgements.rs` keeps the
acknowledgement handles of leased jobs.
-/

namespace RunAnywhere

open Logic

/-! ## Payloads -/

def maxQueuePayloadBytes : Nat := 256 * 1024

/-- `decode_queue_payload` of the bytes of a message; the JSON parser is a parameter. -/
def decodeQueueBytes (json : Json.Codec) (bytes : List UInt8) :
    Except QueuePayloadError JobQueued :=
  if maxQueuePayloadBytes < bytes.length then .error .tooLarge
  else
    match (json.parse bytes).bind JobQueued.fromJson with
    | some queued => .ok queued
    | none => .error .malformed

/-- What the stream's messages keep of their bytes. -/
def QueuePayload.ofBytes (json : Json.Codec) (bytes : List UInt8) : QueuePayload :=
  if maxQueuePayloadBytes < bytes.length then .oversized
  else ((json.parse bytes).bind JobQueued.fromJson).elim .unparsable .jobQueued

/-- Decoding what is kept is decoding the bytes. -/
theorem decodeQueuePayload_ofBytes (json : Json.Codec) (bytes : List UInt8) :
    decodeQueuePayload (.ofBytes json bytes) = decodeQueueBytes json bytes := by
  unfold QueuePayload.ofBytes decodeQueueBytes
  split
  · rfl
  · cases (json.parse bytes).bind JobQueued.fromJson with
    | none => rfl
    | some queued => rfl

/-! ## Canonical decisions -/

inductive CanonicalDeliveryDecision
  /-- the database is already terminal; the stale queue record is disposable -/
  | ackTerminal
  /-- a cancellation moved queued work onto the finalizer path without a lease -/
  | finalizeCancellation
  /-- valid, unowned work can enter the fairness buffer -/
  | buffer (lane : PriorityLane)
  /-- the new handle belongs to this still-live lease -/
  | rebind (lease : LeaseGuard)
  /-- a stale or finalizing record is left to the reconciler -/
  | holdForReconciliation
  | deadLetter (reason : JobDeadLetterReason)
  deriving DecidableEq

/-- `classify_canonical_delivery`. -/
def classifyCanonicalDelivery (queued : JobQueued) (snapshot : JobSchedulingSnapshot)
    (now : Time) : CanonicalDeliveryDecision :=
  if snapshot.job.state.isTerminal then .ackTerminal
  else if snapshot.pendingOutcome = some .cancelled ∧ snapshot.lease = none ∧
      snapshot.deliveryAttempts = 0 then .finalizeCancellation
  else if queued ≠ snapshot.queued then .deadLetter .canonicalJobInconsistent
  else
    match snapshot.lease with
    | some lease =>
        if snapshot.leaseExpiresAt.any (fun expiresAt => decide (now < expiresAt)) then .rebind lease
        else .holdForReconciliation
    | none =>
        if snapshot.job.state = .queued ∧ snapshot.pendingOutcome = none ∧
            snapshot.leaseExpiresAt = none then .buffer snapshot.job.mode.lane
        else .holdForReconciliation

/-- What a decision tells of the snapshot. -/
theorem classifyCanonicalDelivery_spec (queued : JobQueued) (snapshot : JobSchedulingSnapshot)
    (now : Time) :
    match classifyCanonicalDelivery queued snapshot now with
    | .ackTerminal => snapshot.job.state.isTerminal = true
    | .finalizeCancellation => snapshot.pendingOutcome = some .cancelled ∧ snapshot.lease = none ∧
        snapshot.deliveryAttempts = 0
    | .deadLetter reason => reason = .canonicalJobInconsistent
    | .rebind _ | .holdForReconciliation | .buffer _ => queued = snapshot.queued := by
  unfold classifyCanonicalDelivery
  by_cases hend : snapshot.job.state.isTerminal = true
  · rw [if_pos hend]
    exact hend
  · rw [if_neg hend]
    by_cases hcancelled : snapshot.pendingOutcome = some .cancelled ∧ snapshot.lease = none ∧
        snapshot.deliveryAttempts = 0
    · rw [if_pos hcancelled]
      exact hcancelled
    · rw [if_neg hcancelled]
      by_cases hsame : queued = snapshot.queued
      · rw [if_neg fun hne => hne hsame]
        cases snapshot.lease with
        | some lease =>
            by_cases hlive : snapshot.leaseExpiresAt.any fun expiresAt => decide (now < expiresAt)
            · simp only [hlive, if_true]
              exact hsame
            · simp only [hlive]
              exact hsame
        | none =>
            by_cases hwaits : snapshot.job.state = .queued ∧ snapshot.pendingOutcome = none ∧
                snapshot.leaseExpiresAt = none
            · simp only [hwaits, and_self, if_true]
              exact hsame
            · simp only [hwaits, if_false]
              exact hsame
      · rw [if_pos hsame]

/-! ## The acknowledgement registry -/

namespace AckRegistry

/-- `bind`. -/
def bind (j : JobId) (b : AckBinding) : Task Unit := act (.memory (.bind j b))

/-- `binding`. -/
def binding (j : JobId) (w : WorkerId) (l : LeaseId) : TaskOr AckRegistryError AckBinding :=
  act (.memory (.binding j w l))

/-- `take`. -/
def take (j : JobId) (w : WorkerId) (l : LeaseId) : TaskOr AckRegistryError AckBinding :=
  act (.memory (.take j w l))

/-- `progress`. -/
def progress (j : JobId) (w : WorkerId) (l : LeaseId) : TaskOr AckRegistryError Unit := do
  let b ← binding j w l
  .try_ (act (.stream (.progress b.streamSequence))) .jetStream

/-- The check of `confirm_ack` under the write lock. -/
def settle (j : JobId) (w : WorkerId) (l : LeaseId) (confirmed : Nat) :
    TaskOr AckRegistryError (Option AckBinding) :=
  act (.memory (.settle j w l confirmed))

/-- The loop of `confirm_ack`: a binding that replaced the confirmed one is confirmed
too. -/
def confirmLoop (j : JobId) (w : WorkerId) (l : LeaseId) :
    Nat → AckBinding → TaskOr AckRegistryError Unit
  | 0, _ => .lift stop
  | rounds + 1, b => do
      .try_ (act (.stream (.doubleAck b.streamSequence))) .jetStream
      match ← settle j w l b.streamSequence with
      | none => pure ()
      | some current => confirmLoop j w l rounds current

/-- `confirm_ack`: confirm an acknowledgement with the server before dropping the
binding. -/
def confirmAck (rounds : Nat) (j : JobId) (w : WorkerId) (l : LeaseId) :
    TaskOr AckRegistryError Unit := do
  let b ← binding j w l
  confirmLoop j w l rounds b

/-- `nak`: release a recovered lease for redelivery. -/
def nak (j : JobId) (w : WorkerId) (l : LeaseId) : TaskOr AckRegistryError Unit := do
  let b ← take j w l
  .try_ (act (.stream (.nak b.streamSequence))) .jetStream

end AckRegistry

end RunAnywhere
