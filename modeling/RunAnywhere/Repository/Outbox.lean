import RunAnywhere.Repository.Db
import Mathlib.Data.List.Sort

/-!
# The transactional outbox

`repository/src/outbox.rs`. Producers insert one row under a stable event key;
publishers lease rows, publish them and mark them published. The `commits`
lemmas say what each call may change: an insert adds one unpublished row, a lease
touches only the lock columns and the attempt counter, and `publishedAt` is
written by `markOutboxPublished` alone.
-/

namespace RunAnywhere

open Logic

/-- A durably persisted message awaiting publication. -/
structure OutboxMessage extends OutboxRow where
  /-- Stable delivery ID. For `jobs.queued`, this is the job ID. -/
  eventKey : String
  deriving DecidableEq

/-- `TryFrom<OutboxRow>`. -/
def OutboxRow.intoMessage (eventKey : String) (r : OutboxRow) : OutboxMessage :=
  { r with eventKey := eventKey }

def jobsQueuedSubject : String := "jobs.queued"
def jobsDeadSubject : String := "jobs.dead"
def webhookSubject : String := "webhooks.job_state_changed"

/-- `validate_trace_headers`, and the same check in `insert_job_queued_outbox`. -/
def validateTraceHeaders (traceHeaders : List (String × String)) : RepoTx Unit :=
  .require (!traceHeaders.any fun h => isBlank h.1)
    (.validation "outbox trace header names must not be blank")

/-- `validate_dispatcher_id`. -/
def validateDispatcherId (dispatcherId : String) : RepoTx Unit :=
  .require (!isBlank dispatcherId) (.validation "outbox dispatcher ID must not be blank")

/-- `validate_subject`. -/
def validateSubject (subject : String) : RepoTx Unit :=
  .require (!isBlank subject) (.validation "outbox subject must not be blank")

/-- `checked_limit`. -/
def checkedLimit (limit : Nat) : RepoTx Unit :=
  .require (decide (0 < limit) && decide (limit ≤ 200))
    (.validation "limit must be between 1 and 200")

/-- `insert_job_queued_outbox`. -/
def insertJobQueuedOutbox (queued : JobQueued) (traceHeaders : List (String × String))
    (t : DbTime) : RepoTx Unit := do
  validateTraceHeaders traceHeaders
  let inserted ← insertOutbox queued.jobId.val jobsQueuedSubject (.jobQueued queued) traceHeaders t
  .require inserted.isSome (.conflict "job already has a queued outbox message")

/-- `insert_job_dead_letter_outbox`: repeating the same logical attempt returns
the original row. -/
def insertJobDeadLetterOutbox (deadLetter : JobDeadLetter)
    (traceHeaders : List (String × String)) (t : DbTime) : RepoTx OutboxMessage := do
  let invalid := fun (e : JobDeadLetterValidationError) => RepositoryError.validation e.message
  .ofExcept (deadLetter.validate.mapError invalid)
  validateTraceHeaders traceHeaders
  let eventKey ← .ofExcept (deadLetter.idempotencyKey.mapError invalid)
  match ← insertOutbox eventKey jobsDeadSubject (.jobDeadLetter deadLetter) traceHeaders t with
  | some row => pure (row.intoMessage eventKey)
  | none =>
      let found ← .read fun db => db.message? eventKey
      let row ← .okOr found
        (.conflict "dead-letter outbox winner was not visible after conflict")
      .require (decide (row.subject = jobsDeadSubject))
        (.conflict ("outbox key `" ++ eventKey ++ "` is already used by subject `"
          ++ row.subject ++ "`"))
      pure (row.intoMessage eventKey)

/-- `enqueue_job_dead_letter`. -/
def enqueueJobDeadLetter (deadLetter : JobDeadLetter) (traceHeaders : List (String × String))
    (t : DbTime) : RepoTx OutboxMessage :=
  insertJobDeadLetterOutbox deadLetter traceHeaders t

/-- `get_outbox_message`. -/
def getOutboxMessage (eventKey : String) : RepoTx (Option OutboxMessage) :=
  .read fun db => (db.message? eventKey).map (·.intoMessage eventKey)

/-- `UPDATE outbox_messages SET … WHERE event_key = key AND guard RETURNING …`. -/
def updateOutbox (key : String) (guard : OutboxRow → Bool) (set : OutboxRow → OutboxRow) :
    RepoTx (Option OutboxRow) := fun db =>
  match db.message? key with
  | none => .ok (none, db)
  | some row =>
      if guard row then
        if h : (set row).Checks then
          .ok (some (set row), { db with outbox := db.outbox.put key ⟨set row, h⟩ })
        else .error (.sqlx (.checkViolation "outbox_messages"))
      else .ok (none, db)

/-- The event key of the row with identity `id`. -/
def Db.messageKey? (db : Db) (id : Nat) : Option String :=
  (db.outbox.rows.find? fun p => p.2.val.id = id).map Prod.fst

/-- The WHERE clause of a lease: unpublished, of this channel, due, and not held
by a lease younger than `leaseMicros`. -/
def OutboxRow.leasable (subject : String) (leaseMicros : Int) (clock : Time) (r : OutboxRow) :
    Bool :=
  r.publishedAt.isNone && decide (r.subject = subject) && decide (r.availableAt ≤ clock) &&
    (r.lockedAt.all fun lockedAt => decide (lockedAt ≤ clock - leaseMicros))

/-- The keys a lease selects: `ORDER BY available_at, id … SKIP LOCKED LIMIT n`.
`skip` are the rows another transaction has locked. -/
def Db.leaseCandidates (db : Db) (subject : String) (leaseMicros : Int) (clock : Time)
    (limit : Nat) (skip : String → Bool) : List String :=
  let ready := db.outbox.rows.filter fun p =>
    p.2.val.leasable subject leaseMicros clock && !skip p.1
  let ordered := ready.insertionSort fun p q =>
    p.2.val.availableAt < q.2.val.availableAt ∨
      (p.2.val.availableAt = q.2.val.availableAt ∧ p.2.val.id ≤ q.2.val.id)
  (ordered.take limit).map Prod.fst

/-- `SET locked_by = …, locked_at = clock_timestamp(), attempts = attempts + 1`. -/
def OutboxRow.lock (dispatcherId : String) (clock : Time) (r : OutboxRow) : OutboxRow :=
  { r with lockedBy := some dispatcherId, lockedAt := some clock, attempts := r.attempts + 1 }

/-- Lock the selected rows one by one, returning them in order. -/
def lockOutboxRows (dispatcherId : String) (clock : Time) : List String → RepoTx (List OutboxMessage)
  | [] => pure []
  | key :: rest => do
      let row ← updateOutbox key (fun _ => true) (·.lock dispatcherId clock)
      let messages ← lockOutboxRows dispatcherId clock rest
      pure ((row.map (·.intoMessage key)).toList ++ messages)

/-- `lease_outbox_messages_for_subject`. `num_milliseconds` truncates the timeout
to whole milliseconds. -/
def leaseOutboxMessagesForSubject (dispatcherId subject : String) (leaseTimeout : Int)
    (limit : Nat) (skip : String → Bool) (t : DbTime) : RepoTx (List OutboxMessage) := do
  validateDispatcherId dispatcherId
  validateSubject subject
  let leaseMicros := leaseTimeout.tdiv 1000 * 1000
  .require (decide (0 < leaseMicros)) (.validation "outbox lease timeout must be positive")
  checkedLimit limit
  let keys ← .read fun db => db.leaseCandidates subject leaseMicros t.clock limit skip
  lockOutboxRows dispatcherId t.clock keys

/-- The keys a lease of every channel selects. -/
def Db.anyLeaseCandidates (db : Db) (leaseMicros : Int) (clock : Time) (limit : Nat)
    (skip : String → Bool) : List String :=
  let ready := db.outbox.rows.filter fun p =>
    p.2.val.leasable p.2.val.subject leaseMicros clock && !skip p.1
  let ordered := ready.insertionSort fun p q =>
    p.2.val.availableAt < q.2.val.availableAt ∨
      (p.2.val.availableAt = q.2.val.availableAt ∧ p.2.val.id ≤ q.2.val.id)
  (ordered.take limit).map Prod.fst

/-- `lease_outbox_messages`: the same lease for the rows of every channel. -/
def leaseOutboxMessages (dispatcherId : String) (leaseTimeout : Int) (limit : Nat)
    (skip : String → Bool) (t : DbTime) : RepoTx (List OutboxMessage) := do
  validateDispatcherId dispatcherId
  let leaseMicros := leaseTimeout.tdiv 1000 * 1000
  .require (decide (0 < leaseMicros)) (.validation "outbox lease timeout must be positive")
  checkedLimit limit
  let keys ← .read fun db => db.anyLeaseCandidates leaseMicros t.clock limit skip
  lockOutboxRows dispatcherId t.clock keys

/-- `mark_outbox_published`. -/
def markOutboxPublished (messageId : Nat) (dispatcherId : String) (t : DbTime) :
    RepoTx OutboxMessage := do
  validateDispatcherId dispatcherId
  let lost := RepositoryError.compareAndSwapLost "outbox message lease" (toString messageId)
  let key ← .okOr (← .read fun db => db.messageKey? messageId) lost
  let row ← updateOutbox key
    (fun r => r.publishedAt.isNone && decide (r.lockedBy = some dispatcherId))
    (fun r => { r with
      publishedAt := some t.clock, lockedBy := none, lockedAt := none, lastError := none })
  let row ← .okOr row lost
  pure (row.intoMessage key)

/-- `retry_outbox_message`. -/
def retryOutboxMessage (messageId : Nat) (dispatcherId : String) (availableAt : Time)
    (lastError : String) : RepoTx OutboxMessage := do
  validateDispatcherId dispatcherId
  .require (!isBlank lastError) (.validation "outbox retry error must not be blank")
  let lost := RepositoryError.compareAndSwapLost "outbox message lease" (toString messageId)
  let key ← .okOr (← .read fun db => db.messageKey? messageId) lost
  let row ← updateOutbox key
    (fun r => r.publishedAt.isNone && decide (r.lockedBy = some dispatcherId))
    (fun r => { r with
      availableAt := availableAt, lastError := some lastError, lockedBy := none,
      lockedAt := none })
  let row ← .okOr row lost
  pure (row.intoMessage key)

end RunAnywhere
