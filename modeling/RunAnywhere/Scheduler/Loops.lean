import RunAnywhere.Repository.OutboxRun
import RunAnywhere.Scheduler.Dlq
import RunAnywhere.Scheduler.Publisher

/-!
# The loops that drain the outbox

Three loops lease rows of the outbox, publish what the rows say and finalize them: the
queue dispatcher (`api/src/queue.rs`), the webhook dispatcher (`api/src/webhooks.rs`) and
the dead-letter publisher (`scheduler/src/dlq.rs`). A `Drain` is the database with the
batches of any number of such loops in flight:

* **batches** — a loop leases when nothing of its last batch is in flight; the rows of a
  batch are published and finalized in any order, each step on its own;
* **transport** — a publication is confirmed, and then in the log, or fails, with the
  message delivered or not;
* **crashes** — any part of what is in flight may be lost at any time;
* **others** — the calls of everybody else come in between.

The grants and the ended leases are recorded for the statements; no step reads them.
-/

namespace RunAnywhere

/-! ## What a loop does with a row -/

/-- The checks of `publish_outbox_message`: the row carries a `JobQueued` under its own
key. -/
def OutboxDispatcher.checkMessage (outbox : OutboxMessage) : Except String JobQueued :=
  if outbox.subject ≠ jobsQueuedSubject then
    .error "queue subject must be a concrete non-empty NATS subject"
  else
    match outbox.payload with
    | .jobQueued queued =>
        if outbox.eventKey ≠ queued.jobId.val then
          .error "queue message ID must not be blank or contain control characters"
        else .ok queued
    | _ => .error "failed to serialize JobQueued"

/-- `publish_outbox_message` publishes what passed the checks. -/
theorem OutboxDispatcher.publishOutboxMessage_eq (outbox : OutboxMessage) :
    publishOutboxMessage outbox =
      match checkMessage outbox with
      | .ok queued =>
          act (.stream (.publish ⟨some queued.jobId.val, outbox.traceHeaders, .jobQueued queued⟩))
      | .error text => .fail text := by
  unfold publishOutboxMessage checkMessage
  by_cases hsubject : outbox.subject = jobsQueuedSubject
  · cases hpayload : outbox.payload with
    | jobQueued queued =>
        by_cases hkey : outbox.eventKey = queued.jobId.val
        · simp [hsubject, hkey]
          rfl
        · simp [hsubject, hkey]
    | jobDeadLetter deadLetter => simp [hsubject]
    | webhook delivery => simp [hsubject]
  · simp [hsubject]

/-- `WebhookDelivery`. -/
structure WebhookDelivery where
  deliveryId : String
  url : String
  event : JobEvent
  deriving DecidableEq

/-- `dispatch_outbox_message` up to the delivery; `none` when the registration is missing
or inactive. -/
def dispatchOutboxMessage (webhooks : Logic.Table WebhookId Webhook) (message : OutboxMessage) :
    Except String (Option WebhookDelivery) :=
  let invalid := "invalid webhook outbox message"
  if message.subject ≠ webhookSubject then .error invalid
  else
    match message.payload with
    | .webhook payload =>
        if message.eventKey ≠ "webhook:" ++ payload.event.id.val ++ ":" ++ payload.webhookId.val ∨
            payload.event.state.isNone then .error invalid
        else
          match webhooks.get? payload.webhookId with
          | none => .ok none
          | some webhook =>
              if !webhook.active then .ok none
              else if webhook.url ≠ payload.url then .error invalid
              else .ok (some ⟨message.eventKey, payload.url, payload.event⟩)
    | _ => .error invalid

/-- What goes out for a row. -/
inductive Publication
  | queued (queued : JobQueued)
  | delivery (delivery : WebhookDelivery)
  | deadLetter (message : OutboxMessage)
  deriving DecidableEq

/-- What a loop does with a leased row: send it, finalize it unsent, or give it back. -/
inductive Verdict
  | send (publication : Publication)
  | waive
  | refuse (error : String)

/-! ## The loops -/

/-- A loop, under the name it leases with. -/
inductive Loop
  | queue (cfg : OutboxDispatcherConfig)
  | webhook (dispatcherId : String)
  | dead (dispatcherId : String)
  deriving DecidableEq

namespace Loop

def dispatcherId : Loop → String
  | .queue cfg => cfg.dispatcherId
  | .webhook dispatcherId | .dead dispatcherId => dispatcherId

def subject : Loop → String
  | .queue _ => jobsQueuedSubject
  | .webhook _ => webhookSubject
  | .dead _ => jobsDeadSubject

/-- `lease_timeout`, in microseconds. -/
def leaseTimeout : Loop → Int
  | .queue cfg => cfg.leaseTimeout
  | .webhook _ => 90 * 1000000
  | .dead _ => Dlq.outboxLeaseTimeout

def batchSize : Loop → Nat
  | .queue cfg => cfg.batchSize
  | .webhook _ => 50
  | .dead _ => Dlq.leaseBatch

/-- The timeout in whole milliseconds, as the lease takes it. -/
def leaseMicros (x : Loop) : Int := x.leaseTimeout.tdiv 1000 * 1000

/-- `dispatch_message`, `process_outbox_message` and `publish_one`, up to the transport. -/
def verdict (db : Db) (message : OutboxMessage) : Loop → Verdict
  | .queue _ =>
      match OutboxDispatcher.checkMessage message with
      | .ok queued => .send (.queued queued)
      | .error text => .refuse text
  | .webhook _ =>
      match dispatchOutboxMessage db.catalog.webhooks message with
      | .ok (some delivery) => .send (.delivery delivery)
      | .ok none => .waive
      | .error text => .refuse text
  | .dead _ => .send (.deadLetter message)

/-- The error a loop stores with a row it gives back; the dead-letter publisher stores a
text of its own. -/
def retryError (text : String) : Loop → String
  | .queue _ | .webhook _ => text
  | .dead _ => "JetStream did not confirm DLQ publication"

end Loop

/-- The loops that may run: configured with a positive timeout, under names of their own,
with one timeout for a channel. -/
structure Loops where
  runs : Loop → Prop
  valid : ∀ x, runs x → 0 < x.leaseTimeout
  distinct : ∀ x y, runs x → runs y → x.dispatcherId = y.dispatcherId → x = y
  agree : ∀ x y, runs x → runs y → x.subject = y.subject → x.leaseTimeout = y.leaseTimeout

/-! ## Batches in flight -/

/-- A lease as it was granted; `number` counts the leases of the row. -/
structure Grant where
  key : String
  number : Nat
  loop : Loop
  grantedAt : Time
  deriving DecidableEq

/-- How far a leased row has come. -/
inductive Stage
  | leased
  | sending (publication : Publication)
  | done
  | failed (text : String)
  deriving DecidableEq

/-- A leased row in the hands of its loop. -/
structure Flight where
  grant : Grant
  message : OutboxMessage
  stage : Stage

structure Drain where
  db : Db
  flights : List Flight
  /-- what the transport confirmed -/
  log : List Publication
  /-- keys of rows whose registration was seen missing or inactive -/
  waived : List String
  /-- newest first -/
  grants : List Grant
  ended : List Grant

/-- The flights a lease starts. -/
def launch (x : Loop) (clock : Time) (messages : List OutboxMessage) : List Flight :=
  messages.map fun m => ⟨⟨m.eventKey, m.attempts, x, clock⟩, m, .leased⟩

/-- The leases ended by an answered finalization. -/
def ending {α : Type} (g : Grant) : Except RepositoryError α → List Grant
  | .ok _ => [g]
  | .error _ => []

/-- One step of the loops and of everybody else. -/
inductive Drain.Step (loops : Loops) : Drain → Drain → Prop
  | other {s : Drain} {op : Op} {t : DbTime} {answer : Except RepositoryError op.Out} {db' : Db} :
      op.publishes = false → (op.tx t).exec s.db = (answer, db') →
      Step loops s { s with db := db' }
  | lease {s : Drain} {x : Loop} {t : DbTime} {skip : String → Bool}
      {messages : List OutboxMessage} {db' : Db} :
      loops.runs x → (∀ f ∈ s.flights, f.grant.loop ≠ x) →
      (leaseOutboxMessagesForSubject x.dispatcherId x.subject x.leaseTimeout x.batchSize skip
        t).exec s.db = (.ok messages, db') →
      Step loops s { s with
        db := db', flights := s.flights ++ launch x t.clock messages,
        grants := (launch x t.clock messages).map (·.grant) ++ s.grants }
  /-- the checks passed, and the publication is under way -/
  | send {s : Drain} {f : Flight} {p : Publication} {before after : List Flight} :
      s.flights = before ++ f :: after → f.stage = .leased →
      f.grant.loop.verdict s.db f.message = .send p →
      Step loops s { s with flights := before ++ { f with stage := .sending p } :: after }
  /-- the registration is missing or inactive -/
  | waive {s : Drain} {f : Flight} {before after : List Flight} :
      s.flights = before ++ f :: after → f.stage = .leased →
      f.grant.loop.verdict s.db f.message = .waive →
      Step loops s { s with
        flights := before ++ { f with stage := .done } :: after,
        waived := f.grant.key :: s.waived }
  /-- the row was refused, or could not be checked -/
  | refuse {s : Drain} {f : Flight} {text : String} {before after : List Flight} :
      s.flights = before ++ f :: after → f.stage = .leased →
      Step loops s { s with flights := before ++ { f with stage := .failed text } :: after }
  /-- the transport confirmed the publication -/
  | confirm {s : Drain} {f : Flight} {p : Publication} {before after : List Flight} :
      s.flights = before ++ f :: after → f.stage = .sending p →
      Step loops s { s with
        flights := before ++ { f with stage := .done } :: after, log := p :: s.log }
  /-- the publication failed or timed out, the message delivered or not -/
  | unconfirmed {s : Drain} {f : Flight} {p : Publication} {text : String}
      {before after : List Flight} :
      s.flights = before ++ f :: after → f.stage = .sending p →
      Step loops s { s with flights := before ++ { f with stage := .failed text } :: after }
  /-- `mark_outbox_published` -/
  | mark {s : Drain} {f : Flight} {before after : List Flight} {t : DbTime}
      {answer : Except RepositoryError OutboxMessage} {db' : Db} :
      s.flights = before ++ f :: after → f.stage = .done →
      (markOutboxPublished f.message.id f.grant.loop.dispatcherId t).exec s.db = (answer, db') →
      Step loops s { s with
        db := db', flights := before ++ after, ended := ending f.grant answer ++ s.ended }
  /-- `retry_outbox_message` -/
  | retry {s : Drain} {f : Flight} {text : String} {before after : List Flight}
      {availableAt : Time} {answer : Except RepositoryError OutboxMessage} {db' : Db} :
      s.flights = before ++ f :: after → f.stage = .failed text →
      (retryOutboxMessage f.message.id f.grant.loop.dispatcherId availableAt
        (f.grant.loop.retryError text)).exec s.db = (answer, db') →
      Step loops s { s with
        db := db', flights := before ++ after, ended := ending f.grant answer ++ s.ended }
  /-- a crash, or an error that ends a batch -/
  | drop {s : Drain} {rest : List Flight} : rest.Sublist s.flights →
      Step loops s { s with flights := rest }

/-- The runs of the loops, from an empty database. -/
def drain (loops : Loops) : Logic.TSys Drain Unit where
  init s := ∃ catalog, s = ⟨Db.empty catalog, [], [], [], [], []⟩
  step s _ s' := Drain.Step loops s s'

end RunAnywhere
