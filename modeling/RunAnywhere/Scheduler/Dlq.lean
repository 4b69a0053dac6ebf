import RunAnywhere.Scheduler.Delivery

/-!
# Dead letters

`scheduler/src/dlq.rs`: a dead letter is inserted into the outbox, published from
there and marked published; the source message is removed after that. A source
message counts as removed when the stream no longer has it.
-/

namespace RunAnywhere

open Logic

/-- `exhaustion_event_key`. -/
def exhaustionEventKey (j : JobId) (attempt : Nat) : String :=
  "dlq:" ++ j.val ++ ":" ++ toString (max attempt 1)

/-- `is_matching_exhaustion_marker`: not a same-key poison row. -/
def isMatchingExhaustionMarker (message : OutboxMessage) (j : JobId) (attempt : Nat) : Bool :=
  decide (message.subject = jobsDeadSubject) &&
    decide (message.eventKey = exhaustionEventKey j attempt) &&
    match message.payload with
    | .jobDeadLetter deadLetter =>
        decide (deadLetter.reason = .attemptsExhausted) && decide (deadLetter.jobId = some j) &&
          decide (deadLetter.attempt = max attempt 1)
    | _ => false

inductive DlqError
  | repository (error : RepositoryError)
  | trace (text : String)
  | publish (text : String)
  | pending (eventKey : String)
  | term (text : String)
  | delete (sequence : Nat) (message : String)
  deriving DecidableEq

inductive DlqPublishOutcome
  | newlyPublished | alreadyPublished
  deriving DecidableEq

namespace Dlq

/-- `outbox_lease_timeout`, in microseconds. -/
def outboxLeaseTimeout : Int := 30 * 1000000

/-- `DLQ_LEASE_BATCH`. -/
def leaseBatch : Nat := 64

/-- `publish_one`. -/
def publishOne (message : OutboxMessage) : TaskOr DlqError Unit :=
  .try_ (act (.stream (.publishDead message))) .publish

/-- The loop of `publish_ready`. The first failure releases its row and ends it. -/
def publishAll (dispatcherId : String) : List OutboxMessage → Nat → TaskOr DlqError Nat
  | [], published => pure published
  | message :: rest, published => do
      match ← (publishOne message).attempt with
      | .error error => do
          let retryAt := (← now) + 5 * 1000000
          let _ ← Repository.retryOutboxMessage message.id dispatcherId retryAt
            "JetStream did not confirm DLQ publication"
          .fail error
      | .ok () => do
          let _ ← .try_ (Repository.markOutboxPublished message.id dispatcherId) .repository
          publishAll dispatcherId rest (published + 1)

/-- `publish_ready`: drain the scheduler-owned dead-letter channel. -/
def publishReady (dispatcherId : String) : TaskOr DlqError Nat := do
  let messages ← .try_ (Repository.leaseOutboxMessagesForSubject dispatcherId jobsDeadSubject
    outboxLeaseTimeout leaseBatch) .repository
  publishAll dispatcherId messages 0

/-- `ensure_published`: return only after this exact logical record is confirmed
published. -/
def ensurePublished (dispatcherId : String) (deadLetter : JobDeadLetter)
    (traceContext : List (String × String)) : TaskOr DlqError DlqPublishOutcome := do
  let eventKey ← .ofExcept (deadLetter.idempotencyKey.mapError fun e => .trace e.message)
  let message ← .try_ (Repository.enqueueJobDeadLetter deadLetter traceContext) .repository
  if message.publishedAt.isNone then
    let _ ← publishReady dispatcherId
  let published ← .try_ (Repository.getOutboxMessage eventKey) .repository
  if (published.bind (·.publishedAt)).isSome then
    pure (if message.publishedAt.isSome then .alreadyPublished else .newlyPublished)
  else .fail (.pending eventKey)

/-- `accept_if_source_is_absent`. -/
def acceptIfSourceIsAbsent (n : Nat) (deleteError : String) : TaskOr DlqError Unit := do
  match ← act (.stream (.getRawMessage n)) with
  | .error .noMessageFound => pure ()
  | _ => .fail (.delete n deleteError)

/-- `delete_source`. -/
def deleteSource (n : Nat) : TaskOr DlqError Unit := do
  match ← act (.stream (.deleteMessage n)) with
  | .ok true => pure ()
  | .ok false =>
      acceptIfSourceIsAbsent n "JetStream reported an unsuccessful source-message deletion"
  | .error text => acceptIfSourceIsAbsent n text

/-- `retire_delivery`: stop further delivery and remove the source message. -/
def retireDelivery (b : AckBinding) : TaskOr DlqError Unit := do
  .try_ (act (.stream (.term b.streamSequence))) .term
  deleteSource b.streamSequence

end Dlq

end RunAnywhere
