import RunAnywhere.Scheduler.Dispatcher

/-!
# Advisory recovery

`scheduler/src/advisory.rs`: JetStream reports a message it stopped delivering. The
source message is looked up again and settled against the canonical snapshot; work
that is still owed is redriven before its exhausted source is deleted.
-/

namespace RunAnywhere

open Logic

inductive AdvisoryError
  | repository (error : RepositoryError)
  | dlq (error : DlqError)
  | source (text : String)
  | acknowledge (text : String)
  | redrive (text : String)
  | invalidExhaustionMarker (eventKey : String)
  deriving DecidableEq

structure ConsumerAdvisory where
  stream : String
  consumer : String
  streamSeq : Nat
  deriving DecidableEq

namespace AdvisoryRecovery

/-- `confirm_ack`, of the advisory message. -/
def confirmAck : TaskOr AdvisoryError Unit := .try_ (act (.outside .ackAdvisory)) .acknowledge

/-- `redrive_canonical`. -/
def redriveCanonical (queued : JobQueued) (traceContext : List (String × String))
    (sourceStreamSequence : Nat) : TaskOr AdvisoryError Unit :=
  .try_ (act (.stream (.publish (redriveMessage queued traceContext sourceStreamSequence))))
    .redrive

/-- `dead_letter_and_finish`. -/
def deadLetterAndFinish (cfg : Config) (n attempt : Nat) (j : Option JobId)
    (project : Option ProjectId) (reason : JobDeadLetterReason)
    (traceContext : List (String × String)) : TaskOr AdvisoryError Unit := do
  let deadLetter ← expect
    (JobDeadLetter.new j project (some n) (max attempt 1) reason (← now))
  let _ ← .try_ (Dlq.ensurePublished cfg.dispatcherId deadLetter traceContext) .dlq
  .try_ (Dlq.deleteSource n) .dlq
  confirmAck

/-- The source message of an advisory, from its lookup on. -/
def settle (cfg : Config) (n : Nat) (raw : QueueMessage) : TaskOr AdvisoryError Unit := do
  let traceContext := raw.traceContext
  match decodeQueuePayload raw.payload with
  | .error _ => deadLetterAndFinish cfg n 1 none none .malformedMessage traceContext
  | .ok queued => do
      match ← Routine.try_ (Repository.getJobSchedulingSnapshot queued.jobId) .repository with
      | none =>
          deadLetterAndFinish cfg n 1 (some queued.jobId) (some queued.projectId)
            .canonicalJobInconsistent traceContext
      | some snap => do
          let attempt := max snap.deliveryAttempts 1
          let eventKey := exhaustionEventKey snap.job.id attempt
          let exhausted := deadLetterAndFinish cfg n attempt (some snap.job.id)
            (some snap.job.projectId) .attemptsExhausted traceContext
          let recoveryMarkedExhausted ← (do
            match ← Routine.try_ (Repository.getOutboxMessage eventKey) .repository with
            | some marker =>
                if isMatchingExhaustionMarker marker snap.job.id attempt then
                  pure (decide (cfg.maxRunAttempts ≤ snap.deliveryAttempts))
                else .fail (.invalidExhaustionMarker eventKey)
            | none => pure false : TaskOr AdvisoryError Bool)
          if snap.job.state.isTerminal then
            if recoveryMarkedExhausted then exhausted
            else do
              .try_ (Dlq.deleteSource n) .dlq
              confirmAck
          else if queued ≠ snap.queued then do
            redriveCanonical snap.queued traceContext n
            deadLetterAndFinish cfg n attempt (some snap.job.id) (some snap.job.projectId)
              .canonicalJobInconsistent traceContext
          else if snap.pendingOutcome = some .infraFailed ∧ snap.lease = none ∧
              recoveryMarkedExhausted = true then exhausted
          else do
            -- canonical work is redriven instead of charging a run attempt
            redriveCanonical snap.queued traceContext n
            .try_ (Dlq.deleteSource n) .dlq
            confirmAck

/-- `handle`; `none` is a body above the limit or that does not parse. -/
def handle (cfg : Config) (advisory : Option ConsumerAdvisory) : TaskOr AdvisoryError Unit := do
  match advisory with
  | none => confirmAck
  | some advisory =>
      if advisory.stream ≠ "JOB_QUEUE" ∨ advisory.consumer ≠ "job-dispatch-v1" ∨
          advisory.streamSeq = 0 then confirmAck
      else do
        match ← act (.stream (.getRawMessage advisory.streamSeq)) with
        | .ok raw => settle cfg advisory.streamSeq raw
        | .error .noMessageFound => confirmAck
        | .error (.other text) => .fail (.source text)

end AdvisoryRecovery

end RunAnywhere
