import RunAnywhere.Logic.Prog
import RunAnywhere.Scheduler.Fairness
import RunAnywhere.Scheduler.Reaper
import RunAnywhere.Scheduler.Stream
import RunAnywhere.Theorems.Fencing

/-!
# The cluster and its atomic actions

`Cluster` is everything the scheduler's components share: the database, the work
queue and the memory of the leader. A component is a program over `Action`: one
repository call, one JetStream exchange, one access to a locked map. What an action
does is a function of the cluster and of nature's choices (`Action.perform`):

* **repository** — a query or a call is one transaction; the connection may fail
  before it, or after its commit with the answer lost;
* **JetStream** — an exchange may fail without effect or with the effect done;
* **memory** — an access to the registry, to a pending map or to the fairness
  buffer is atomic; a failover drops all of it. A thread that keeps the guard of a lock over
  a part of its program waits for itself when it asks for the lock there (`holding`).
-/

namespace RunAnywhere

open Logic

/-! ## Leader memory -/

/-- One delivered queue message bound to the canonical PostgreSQL lease. The
acknowledgement handle of a delivery is named by its stream sequence. -/
structure AckBinding where
  workerId : WorkerId
  leaseId : LeaseId
  streamSequence : Nat
  deriving DecidableEq

/-- `AckBinding::matches`. -/
def AckBinding.isFor (b : AckBinding) (w : WorkerId) (l : LeaseId) : Bool :=
  decide (b.workerId = w) && decide (b.leaseId = l)

inductive AckRegistryError
  | missing (j : JobId)
  | staleLease (j : JobId)
  | jetStream (text : String)
  deriving DecidableEq

/-- A delivery waiting in the fairness buffer. -/
structure PendingDelivery where
  queued : JobQueued
  traceContext : List (String × String)
  streamSequence : Nat
  lastProgressAt : Time
  deriving DecidableEq

structure LeaderMemory where
  registry : Table JobId AckBinding
  fair : FairQueue PendingDelivery
  pendingExhausted : Table JobId LeaseGuard
  pendingCancellations : Table JobId LeaseGuard
  orphanObservations : OrphanObservations

/-- The memory of a new leader. -/
def LeaderMemory.fresh (fair : FairQueue PendingDelivery) : LeaderMemory :=
  ⟨Table.empty, fair, Table.empty, Table.empty, Table.empty⟩

/-- An access to the leader's memory. -/
inductive MemoryCall
  | bind (j : JobId) (b : AckBinding)
  | binding (j : JobId) (w : WorkerId) (l : LeaseId)
  /-- the check of `confirm_ack` under the write lock: drop the confirmed binding, or
  return the one that replaced it -/
  | settle (j : JobId) (w : WorkerId) (l : LeaseId) (confirmed : Nat)
  | take (j : JobId) (w : WorkerId) (l : LeaseId)
  | fairGet (j : JobId)
  | fairSet (j : JobId) (payload : PendingDelivery)
  | fairPush (entry : FairEntry PendingDelivery)
  | fairPop (now : Time)
  | exhaustedInsert (j : JobId) (lease : LeaseGuard)
  | exhaustedRemove (j : JobId)
  | exhaustedList
  | cancellationInsert (j : JobId) (lease : LeaseGuard)
  | cancellationGet (j : JobId)
  | cancellationRemove (j : JobId)
  | orphanObserve (resource : RuntimeResource) (ownership : RuntimeOwnership) (now : Time)
  | orphanRemove (resourceId : String)
  | orphanRetain (listed : List String)

abbrev MemoryCall.Out : MemoryCall → Type
  | .bind _ _ | .fairSet _ _ | .exhaustedInsert _ _ | .cancellationInsert _ _
  | .cancellationRemove _ | .orphanRemove _ | .orphanRetain _ => Unit
  | .binding _ _ _ | .take _ _ _ => Except AckRegistryError AckBinding
  | .settle _ _ _ _ => Except AckRegistryError (Option AckBinding)
  | .fairGet _ | .fairPop _ => Option (FairEntry PendingDelivery)
  | .fairPush _ => Except (FairQueueError PendingDelivery) Unit
  | .exhaustedRemove _ | .cancellationGet _ => Option LeaseGuard
  | .exhaustedList => List (JobId × LeaseGuard)
  | .orphanObserve _ _ _ => Option Time

/-- The locks of the leader's memory; the fairness buffer belongs to the dispatcher. -/
inductive MemoryLock
  | registry | pendingExhausted | pendingCancellations | orphanObservations
  deriving DecidableEq

/-- The lock an access takes. -/
def MemoryCall.lock : MemoryCall → Option MemoryLock
  | .bind _ _ | .binding _ _ _ | .settle _ _ _ _ | .take _ _ _ => some .registry
  | .fairGet _ | .fairSet _ _ | .fairPush _ | .fairPop _ => none
  | .exhaustedInsert _ _ | .exhaustedRemove _ | .exhaustedList => some .pendingExhausted
  | .cancellationInsert _ _ | .cancellationGet _ | .cancellationRemove _ =>
      some .pendingCancellations
  | .orphanObserve _ _ _ | .orphanRemove _ | .orphanRetain _ => some .orphanObservations

/-- `AckRegistry::binding`. -/
def LeaderMemory.binding (m : LeaderMemory) (j : JobId) (w : WorkerId) (l : LeaseId) :
    Except AckRegistryError AckBinding :=
  match m.registry.get? j with
  | none => .error (.missing j)
  | some b => if b.isFor w l then .ok b else .error (.staleLease j)

/-- The effect of an access. -/
def MemoryCall.run : (x : MemoryCall) → LeaderMemory → x.Out × LeaderMemory
  | .bind j b, m => ((), { m with registry := m.registry.put j b })
  | .binding j w l, m => (m.binding j w l, m)
  | .settle j w l confirmed, m =>
      match m.registry.get? j with
      | none => (.ok none, m)
      | some current =>
          if current.isFor w l then
            if current.streamSequence = confirmed then
              (.ok none, { m with registry := m.registry.erase j })
            else (.ok (some current), m)
          else (.error (.staleLease j), m)
  | .take j w l, m =>
      match m.binding j w l with
      | .ok b => (.ok b, { m with registry := m.registry.erase j })
      | .error e => (.error e, m)
  | .fairGet j, m => (m.fair.get? j, m)
  | .fairSet j payload, m => ((), { m with fair := m.fair.setPayload j payload })
  | .fairPush entry, m =>
      match m.fair.push entry with
      | .ok fair => (.ok (), { m with fair := fair })
      | .error e => (.error e, m)
  | .fairPop now, m => ((m.fair.pop now).1, { m with fair := (m.fair.pop now).2 })
  | .exhaustedInsert j lease, m =>
      ((), { m with pendingExhausted := m.pendingExhausted.put j lease })
  | .exhaustedRemove j, m =>
      (m.pendingExhausted.get? j, { m with pendingExhausted := m.pendingExhausted.erase j })
  | .exhaustedList, m => (m.pendingExhausted.rows, m)
  | .cancellationInsert j lease, m =>
      ((), { m with pendingCancellations := m.pendingCancellations.put j lease })
  | .cancellationGet j, m => (m.pendingCancellations.get? j, m)
  | .cancellationRemove j, m =>
      ((), { m with pendingCancellations := m.pendingCancellations.erase j })
  | .orphanObserve resource ownership now, m =>
      let (since, observations) := m.orphanObservations.observe resource ownership now
      (since, { m with orphanObservations := observations })
  | .orphanRemove resourceId, m =>
      ((), { m with orphanObservations := m.orphanObservations.erase resourceId })
  | .orphanRetain listed, m =>
      ((), { m with orphanObservations := m.orphanObservations.retain listed })

theorem AckBinding.isFor_iff {b : AckBinding} {w : WorkerId} {l : LeaseId} :
    b.isFor w l = true ↔ b.workerId = w ∧ b.leaseId = l := by
  rw [AckBinding.isFor, Bool.and_eq_true, decide_eq_true_iff, decide_eq_true_iff]

/-- A binding that is returned is in the registry, and of the lease asked for. -/
theorem binding_found {m : LeaderMemory} {j : JobId} {w : WorkerId} {l : LeaseId} {b : AckBinding}
    (h : m.binding j w l = .ok b) :
    m.registry.get? j = some b ∧ b.workerId = w ∧ b.leaseId = l := by
  unfold LeaderMemory.binding at h
  split at h
  · cases h
  · next found hget =>
      split at h
      · next hfor =>
          obtain rfl := Except.ok.inj h
          exact ⟨hget, AckBinding.isFor_iff.mp hfor⟩
      · cases h

theorem settle_found {m : LeaderMemory} {j : JobId} {w : WorkerId} {l : LeaseId} {n : Nat}
    {b : AckBinding} (h : ((MemoryCall.settle j w l n).run m).1 = .ok (some b)) :
    m.registry.get? j = some b ∧ b.workerId = w ∧ b.leaseId = l := by
  simp only [MemoryCall.run] at h
  cases hget : m.registry.get? j with
  | none =>
      rw [hget] at h
      cases h
  | some current =>
      rw [hget] at h
      simp only at h
      split at h
      · next hfor =>
          split at h
          · cases h
          · obtain rfl := Option.some.inj (Except.ok.inj h)
            exact ⟨rfl, AckBinding.isFor_iff.mp hfor⟩
      · cases h

/-! ## The cluster -/

/-- The shared state. `granted` are the leases claims were given, `history` the
databases so far, newest first. -/
structure Cluster where
  db : Db
  granted : List LeaseId
  history : List Db
  queue : WorkQueue
  memory : LeaderMemory

/-! ## Actions -/

/-- A read of the repository. -/
inductive Query
  /-- `replayed` marks the read by which the control plane classifies a transition to
  that state after its compare-and-swap lost; it has no effect on the answer -/
  | schedulingSnapshot (j : JobId) (replayed : Option JobState)
  | outboxMessage (eventKey : String)
  | staleJobs (criteria : StaleJobCriteria)
  | workersMatching (profile : RuntimeProfile) (minimum : IsolationTier) (cutoff : Time)
      (limit : Nat)
  | finalizableJobs (limit : Nat)

abbrev Query.Out : Query → Type
  | .schedulingSnapshot _ _ => Option JobSchedulingSnapshot
  | .outboxMessage _ => Option OutboxMessage
  | .staleJobs _ => List StaleJob
  | .workersMatching _ _ _ _ => List WorkerStatus
  | .finalizableJobs _ => List JobId

/-- The scan of `finalize_ready_jobs`: `ORDER BY created_at, id LIMIT n`. -/
def finalizableJobs (limit : Nat) : RepoTx (List JobId) := .read fun db =>
  let ready := (db.jobs.rows.map fun x => (x.1, x.2.val)).filter fun x =>
    (decide (x.2.state = .collectingArtifacts) || decide (x.2.state = .cleaningUp)) &&
      (decide (x.2.pendingOutcome = some .cancelled) ||
        decide (x.2.pendingOutcome = some .infraFailed))
  let ordered := ready.insertionSort fun a b =>
    a.2.createdAt < b.2.createdAt ∨ (a.2.createdAt = b.2.createdAt ∧ a.1.val ≤ b.1.val)
  (ordered.take limit).map Prod.fst

/-- The transaction of a query. -/
def Query.tx : (q : Query) → RepoTx q.Out
  | .schedulingSnapshot j _ => getJobSchedulingSnapshot j
  | .outboxMessage eventKey => getOutboxMessage eventKey
  | .staleJobs criteria => findStaleJobs criteria
  | .workersMatching profile minimum cutoff limit =>
      findWorkersMatching profile minimum cutoff limit
  | .finalizableJobs limit => RunAnywhere.finalizableJobs limit

/-- Why a raw message was not returned. -/
inductive RawMessageError
  | noMessageFound
  | other (text : String)
  deriving DecidableEq

/-- An exchange with JetStream. -/
inductive StreamCall
  | publish (m : QueueMessage)
  | publishDead (m : OutboxMessage)
  | doubleAck (n : Nat)
  | term (n : Nat)
  | progress (n : Nat)
  | nak (n : Nat)
  | deleteMessage (n : Nat)
  | getRawMessage (n : Nat)

abbrev StreamCall.Out : StreamCall → Type
  | .publish _ | .publishDead _ | .doubleAck _ | .term _ | .progress _ | .nak _ =>
      Except String Unit
  | .deleteMessage _ => Except String Bool
  | .getRawMessage _ => Except RawMessageError QueueMessage

/-- The exchange retires sequence `n`. -/
def StreamCall.Retires (n : Nat) : StreamCall → Prop
  | .doubleAck m | .term m | .deleteMessage m => m = n
  | _ => False

/-- The exchange removes sequence `n` without an acknowledgement. -/
def StreamCall.Discards (n : Nat) : StreamCall → Prop
  | .term m | .deleteMessage m => m = n
  | _ => False

/-- Values drawn at random, and the outbox rows other transactions have locked. -/
structure Draw where
  eventId : JobEventId
  leaseId : LeaseId
  locked : String → Bool

/-- What comes from outside: the clock, random values, a worker's reply, the
advisory stream, the runtime inventory and the removal of a runtime, the audit of debug
sessions. -/
inductive Outside
  | now
  | draw
  | requestWorker (w : WorkerId) (dispatch : JobDispatch)
  | ackAdvisory
  | inventory
  | reap (resource : RuntimeResource)
  | endDebugSessions

abbrev Outside.Out : Outside → Type
  | .now => Time
  | .draw => Draw
  | .requestWorker _ _ => Option ControlResponse
  | .ackAdvisory => Except String Unit
  | .inventory => Except String (List RuntimeResource)
  | .reap _ => Except String ReapOutcome
  | .endDebugSessions => Except RepositoryError Nat

/-- One atomic action of a component. `stop` has no answer: a thread that comes to it
has panicked, waits for a lock it holds itself, or goes round a loop more often than it was
given rounds. -/
inductive Action
  | query (q : Query)
  | call (op : Op)
  | stream (x : StreamCall)
  | memory (x : MemoryCall)
  | outside (x : Outside)
  | stop

abbrev Action.Res : Action → Type
  | .query q => Except RepositoryError q.Out
  | .call op => Except RepositoryError op.Out
  | .stream x => x.Out
  | .memory x => x.Out
  | .outside x => x.Out
  | .stop => Empty

/-! ## Nature's choices -/

/-- How an exchange over the network went: done, not done and reported, done and
reported as failed. -/
inductive Fate
  | success | failure | lost
  deriving DecidableEq

/-- Nature's choices for one action. -/
structure Choice where
  time : DbTime := ⟨0, 0, 0⟩
  fate : Fate := .success
  clock : Time := 0
  draw : Draw := ⟨⟨"evt_0", by decide⟩, ⟨"lease_0", by decide⟩, fun _ => false⟩
  text : String := "timeout"
  reply : Option ControlResponse := none
  inventory : Except String (List RuntimeResource) := .ok []
  reap : Except String ReapOutcome := .ok .skipped
  sessions : Except RepositoryError Nat := .ok 0

/-- The state after a call that reached the database, with its answer; `none` when a
claim would be given a lease a second time. -/
def Cluster.execute (s : Cluster) (op : Op) (t : DbTime) :
    Option (Except RepositoryError op.Out × Cluster) :=
  let done := (op.tx t).exec s.db
  let granted := Call.grants ⟨op, t, done.1⟩
  if granted.all (· ∉ s.granted) then
    some (done.1, { s with
      db := done.2, granted := granted.toList ++ s.granted, history := done.2 :: s.history })
  else none

/-- The answer to an exchange that has only to be confirmed. -/
def confirm (fate : Fate) (text : String) : Except String Unit :=
  if fate = .success then .ok () else .error text

/-- The effect of an exchange that has only to be confirmed. -/
def Cluster.exchange (s : Cluster) (fate : Fate) (f : WorkQueue → WorkQueue) : Cluster :=
  if fate = .failure then s else { s with queue := f s.queue }

def StreamCall.run (s : Cluster) (c : Choice) : (x : StreamCall) → x.Out × Cluster
  | .publish m => (confirm c.fate c.text, s.exchange c.fate (·.publish m))
  | .publishDead _ | .progress _ | .nak _ => (confirm c.fate c.text, s)
  | .doubleAck n | .term n => (confirm c.fate c.text, s.exchange c.fate (·.retire n))
  | .deleteMessage n =>
      if c.fate = .success ∧ s.queue.Live n then (.ok true, s.exchange .success (·.retire n))
      else if c.fate = .lost then (.error c.text, s.exchange .lost (·.retire n))
      else (.error c.text, s)
  | .getRawMessage n =>
      if c.fate = .success then
        match s.queue.message? n with
        | some m => if n ∈ s.queue.retired then (.error .noMessageFound, s) else (.ok m, s)
        | none => (.error .noMessageFound, s)
      else (.error (.other c.text), s)

def Outside.run (c : Choice) : (x : Outside) → x.Out
  | .now => c.clock
  | .draw => c.draw
  | .requestWorker _ _ => c.reply
  | .ackAdvisory => confirm c.fate c.text
  | .inventory => c.inventory
  | .reap _ => c.reap
  | .endDebugSessions => c.sessions

/-- **Actions.** The answer and the cluster after an action, under nature's choices. -/
def Action.perform (s : Cluster) : (x : Action) → Choice → Option (x.Res × Cluster)
  | .query q, c =>
      if c.fate = .success then some ((q.tx.exec s.db).1, s)
      else some (.error (.sqlx .connection), s)
  | .call op, c =>
      if c.fate = .failure then some (.error (.sqlx .connection), s)
      else (s.execute op c.time).map fun r =>
        (if c.fate = .lost then .error (.sqlx .connection) else r.1, r.2)
  | .stream x, c => some (x.run s c)
  | .memory x, _ => some ((x.run s.memory).1, { s with memory := (x.run s.memory).2 })
  | .outside x, c => some (x.run c, s)
  | .stop, _ => none

/-! ## Programs -/

/-- A program of a component. -/
abbrev Task (α : Type) := Prog Action Action.Res α

/-- A program of a component that may fail. -/
abbrev TaskOr (ε α : Type) := Routine Action Action.Res ε α

/-- Perform one action. -/
def act (x : Action) : Task x.Res := .perform x

def now : Task Time := act (.outside .now)

def draw : Task Draw := act (.outside .draw)

/-- A thread that does not go on. -/
def stop {α : Type} : Task α := .act .stop fun e => nomatch e

/-- The lock an action takes. -/
def Action.lock : Action → Option MemoryLock
  | .memory x => x.lock
  | _ => none

/-- A part of a program during which its thread holds the guard of a lock. The locks are not
reentrant, so the thread does not go on when it asks for the lock again. Other threads are not
kept from the lock here. -/
def holding {α : Type} (l : MemoryLock) : Task α → Task α
  | .done a => .done a
  | .act x k => if x.lock = some l then stop else .act x fun r => holding l (k r)

/-- The `expect` of a result. -/
def expect {ε ε' α : Type} : Except ε α → TaskOr ε' α
  | .ok a => pure a
  | .error _ => .lift stop

namespace Repository

/-- `get_job_scheduling_snapshot`. -/
def getJobSchedulingSnapshot (j : JobId) :
    Task (Except RepositoryError (Option JobSchedulingSnapshot)) :=
  act (.query (.schedulingSnapshot j none))

/-- `get_outbox_message`. -/
def getOutboxMessage (eventKey : String) : Task (Except RepositoryError (Option OutboxMessage)) :=
  act (.query (.outboxMessage eventKey))

/-- `find_stale_jobs`. -/
def findStaleJobs (criteria : StaleJobCriteria) : Task (Except RepositoryError (List StaleJob)) :=
  act (.query (.staleJobs criteria))

/-- `find_workers_matching`. -/
def findWorkersMatching (profile : RuntimeProfile) (minimum : IsolationTier) (cutoff : Time)
    (limit : Nat) : Task (Except RepositoryError (List WorkerStatus)) :=
  act (.query (.workersMatching profile minimum cutoff limit))

/-- `claim_job_with_options`. -/
def claimJobWithOptions (j : JobId) (w : WorkerId) (l : LeaseId) (leaseExpiresAt : Time)
    (options : ClaimJobOptions) : Task (Except RepositoryError JobClaim) := do
  let d ← draw
  act (.call (.claimJobWithOptions j w l leaseExpiresAt options d.eventId))

/-- `transition_job_state`. -/
def transitionJobState (j : JobId) (source target : JobState) (evidence : TransitionEvidence)
    (lease : Option LeaseGuard) (payload : List (String × EventValue)) :
    Task (Except RepositoryError Job) := do
  let d ← draw
  act (.call (.transitionJobState j source target evidence lease payload d.eventId))

/-- `record_job_result`. -/
def recordJobResult (result : JobResult) : Task (Except RepositoryError Job) := do
  let d ← draw
  act (.call (.recordJobResult result d.eventId))

/-- `recover_stale_job`. -/
def recoverStaleJob (stale : StaleJob) (maxDeliver : Nat) :
    Task (Except RepositoryError RecoveryDisposition) := do
  let d ← draw
  act (.call (.recoverStaleJob stale maxDeliver d.eventId))

/-- `enqueue_job_dead_letter`. -/
def enqueueJobDeadLetter (deadLetter : JobDeadLetter) (traceContext : List (String × String)) :
    Task (Except RepositoryError OutboxMessage) :=
  act (.call (.enqueueJobDeadLetter deadLetter traceContext))

/-- `lease_outbox_messages_for_subject`. -/
def leaseOutboxMessagesForSubject (dispatcherId subject : String) (leaseTimeout : Int)
    (limit : Nat) : Task (Except RepositoryError (List OutboxMessage)) := do
  let d ← draw
  act (.call (.leaseOutboxMessages dispatcherId subject leaseTimeout limit d.locked))

/-- `mark_outbox_published`. -/
def markOutboxPublished (messageId : Nat) (dispatcherId : String) :
    Task (Except RepositoryError OutboxMessage) :=
  act (.call (.markOutboxPublished messageId dispatcherId))

/-- `retry_outbox_message`. -/
def retryOutboxMessage (messageId : Nat) (dispatcherId : String) (availableAt : Time)
    (lastError : String) : Task (Except RepositoryError OutboxMessage) :=
  act (.call (.retryOutboxMessage messageId dispatcherId availableAt lastError))

end Repository

/-! ## Settings -/

/-- `TimingSettings`, in microseconds. -/
structure TimingSettings where
  workerHeartbeat : Nat
  staleWorkerThreshold : Nat
  databaseLeaseTtl : Nat
  reconciliationInterval : Nat
  reapGrace : Nat
  deriving DecidableEq

/-- The settings the components read. -/
structure Config where
  timing : TimingSettings
  fairness : FairQueueConfig
  maxRunAttempts : Nat
  /-- the name under which the leader leases dead letters -/
  dispatcherId : String
  deriving DecidableEq

end RunAnywhere
