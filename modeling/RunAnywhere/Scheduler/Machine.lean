import RunAnywhere.Scheduler.Advisory
import RunAnywhere.Scheduler.Control
import RunAnywhere.Scheduler.Publisher
import RunAnywhere.Scheduler.Reconciler

/-!
# The scheduler as a machine

`machine cfg` runs the components over a cluster. A `Request` is what a component is
asked for; each runs as a thread of its own:

* **deliveries and advisories** — any stored message may be delivered at any time and
  any number of times, and any advisory may arrive: the redelivery policy of the
  consumer, its `max_deliver` included, picks some of these runs;
* **workers** — any request, from any worker, at any time, is handled;
* **publisher** — a leased message is dispatched by a thread of its own, which outlives
  the leader;
* **crashes** — a crash or a failover ends the leader's threads and empties its memory.
-/

namespace RunAnywhere

open Logic

/-- What a component is asked for. `rounds` bounds the acknowledgement loop of a thread
that does not stop in it. -/
inductive Request
  | deliver (n : Nat) (message : QueueMessage)
  | dispatchOne
  | advisory (notice : Option ConsumerAdvisory)
  | runOnce (rounds : Nat)
  | register (subjectWorker : WorkerId) (payload : Option WorkerRegistration)
  | heartbeat (subjectWorker : WorkerId) (payload : Option WorkerHeartbeat)
  | transition (rounds : Nat) (subjectWorker : WorkerId)
      (payload : Option JobStateTransitionRequest)
  | result (rounds : Nat) (subjectWorker : WorkerId) (payload : Option JobResult)
  | leaseQueued (publisher : OutboxDispatcherConfig)
  | dispatchMessage (publisher : OutboxDispatcherConfig) (message : OutboxMessage)

/-- What a component comes to: its answer to a worker, or what its loop logs. -/
inductive Report
  | response (response : ControlResponse)
  | dispatcher (result : Except DispatcherError Unit)
  | advisory (result : Except AdvisoryError Unit)
  | reconciler (result : Except ReconcilerError Unit)
  | publisher

/-- A program with what is reported of its result. -/
def reporting {α : Type} (report : α → Report) (p : Task α) : Task Report := do
  let result ← p
  pure (report result)

/-- The program of a request. -/
def Request.prog (cfg : Config) : Request → Task Report
  | .deliver n message => reporting .dispatcher (Dispatcher.deliver cfg n message)
  | .dispatchOne => reporting .dispatcher (Dispatcher.dispatchOne cfg)
  | .advisory notice => reporting .advisory (AdvisoryRecovery.handle cfg notice)
  | .runOnce rounds => reporting .reconciler (Reconciler.runOnce cfg rounds)
  | .register w payload => reporting .response (ControlPlane.registerWorker cfg w payload)
  | .heartbeat w payload => reporting .response (ControlPlane.recordHeartbeat cfg w payload)
  | .transition rounds w payload =>
      reporting .response (ControlPlane.transitionJob cfg rounds w payload)
  | .result rounds w payload => reporting .response (ControlPlane.recordResult cfg rounds w payload)
  | .leaseQueued publisher => reporting (fun _ => .publisher) (OutboxDispatcher.leaseBatch publisher)
  | .dispatchMessage publisher message =>
      reporting (fun _ => .publisher) (OutboxDispatcher.dispatchMessage publisher message)

/-- The message is a copy of the outbox row under its key: what a lease returned. -/
def Db.isCopy (db : Db) (message : OutboxMessage) : Bool :=
  (db.message? message.eventKey).any fun row =>
    decide (row.id = message.id) && decide (row.subject = message.subject) &&
      decide (row.payload = message.payload)

/-- When a request may come: a delivery is of a stored message, a dispatch of a leased
one. -/
def Request.enabled (s : Cluster) : Request → Bool
  | .deliver n message => decide (s.queue.message? n = some message)
  | .dispatchMessage _ message => s.db.isCopy message
  | _ => true

/-- The publisher runs in the API, not in the leader. -/
def Request.survives : Request → Bool
  | .leaseQueued _ | .dispatchMessage _ _ => true
  | _ => false

/-- Moves of others: the API, administration, and publications that carry no
identifier. -/
inductive Outer
  | api (op : Op) (time : DbTime)
  | publishForeign (traceContext : List (String × String)) (payload : QueuePayload)

/-- The calls made outside the scheduler. -/
def Op.isOuter : Op → Bool
  | .createJobWithOutbox _ _ _ _ _ | .requestJobCancellation _ _ | .setCatalog _
  | .setWorkerState _ _ => true
  | _ => false

/-- The job of a payload. -/
def QueuePayload.jobId? : QueuePayload → Option JobId
  | .jobQueued queued => some queued.jobId
  | _ => none

/-- Identifiers of new jobs are random: no message names one before it is created. -/
def Cluster.freshFor (s : Cluster) : Op → Bool
  | .createJobWithOutbox id _ _ _ _ => s.queue.log.all fun m => decide (m.payload.jobId? ≠ some id)
  | _ => true

/-- A move of others. -/
def Cluster.outer (s : Cluster) : Outer → Option Cluster
  | .api op t => if op.isOuter && s.freshFor op then (s.execute op t).map Prod.snd else none
  | .publishForeign traceContext payload =>
      some { s with queue := s.queue.publish ⟨none, traceContext, payload⟩ }

/-- The memory a leader starts with. -/
def Config.memory (cfg : Config) : LeaderMemory := .fresh (FairQueue.ofConfig cfg.fairness)

/-- The cluster before any operation. -/
def Cluster.boot (cfg : Config) (catalog : Catalog) : Cluster where
  db := Db.empty catalog
  granted := []
  history := [Db.empty catalog]
  queue := WorkQueue.empty
  memory := cfg.memory

/-- **The scheduler.** -/
def machine (cfg : Config) :
    Machine Cluster Action Action.Res Request Report Choice Outer where
  perform := Action.perform
  prog := Request.prog cfg
  enabled := Request.enabled
  survives := Request.survives
  env := Cluster.outer
  crash s := { s with memory := cfg.memory }

/-- The runs of the scheduler whose actions meet `cond`. -/
def scheduler (cfg : Config) (cond : Cluster → Action → Prop) :
    TSys (Pool Cluster Action Action.Res Request Report)
      (Cmd Request Choice Outer) :=
  (machine cfg).system (fun s => ∃ catalog, s = Cluster.boot cfg catalog) cond

/-! ## Evaluation -/

namespace Sample

/-- Heartbeats every 20 seconds, leases of 60, passes every 10; `n` attempts. -/
def config (n : Nat) : Config where
  timing := ⟨20000000, 60000000, 60000000, 10000000, 120000000⟩
  fairness := ⟨16, 3, 1, 60000000⟩
  maxRunAttempts := n
  dispatcherId := "scheduler"

/-- The canonical payload of the job. -/
def queued : JobQueued :=
  ⟨job, project, profile, .sharedKernelPrivileged, request.timeoutSeconds⟩

/-- A call of the API. -/
def api (op : Op) (s : Int) : Cmd Request Choice Outer := .env (.api op (at_ s))

/-- The next action of thread `n` at second `s`, which succeeds; event `k` is drawn. -/
def go (n : Nat) (s : Int) (k : Nat) : Cmd Request Choice Outer :=
  .act n { time := at_ s, clock := s * 1000000, draw := ⟨event k, lease', fun _ => false⟩ }

/-- The next `k` actions of thread `n` at second `s`; event `e` is drawn. -/
def goes (n : Nat) (s : Int) (e k : Nat) : List (Cmd Request Choice Outer) :=
  List.replicate k (go n s e)

/-- The job is created and delivered, and the dispatcher claims it for a worker. -/
def dispatched : List (Cmd Request Choice Outer) :=
  [api create 2, .spawn (.register worker (some ⟨worker, [.redroid], false, false, .x86_64, 2⟩)),
    go 0 3 1, .finish 0, .env (.publishForeign [] (.jobQueued queued)),
    .spawn (.deliver 1 ⟨none, [], .jobQueued queued⟩)] ++ goes 0 4 1 6 ++
    [.finish 0, .spawn .dispatchOne] ++ goes 0 5 1 13 ++ [.finish 0]

/-- The lease ran out, and recovery gives up after the first attempt. -/
def exhausted : List (Cmd Request Choice Outer) :=
  dispatched ++ [.spawn (.runOnce 3)] ++ goes 0 500 2 4

end Sample

/-- The pool a new cluster comes to. -/
def Sample.pool? (cfg : Config) (cs : List (Cmd Request Choice Outer)) :
    Option (Pool Cluster Action Action.Res Request Report) :=
  (machine cfg).replay ⟨Cluster.boot cfg Sample.catalog, []⟩ cs

theorem Sample.reachable {cfg : Config} {cs : List (Cmd Request Choice Outer)}
    {p : Pool Cluster Action Action.Res Request Report} (h : Sample.pool? cfg cs = some p) :
    (scheduler cfg fun _ _ => True).Reachable p := by
  have hboot : (scheduler cfg fun _ _ => True).Reachable ⟨Cluster.boot cfg Sample.catalog, []⟩ :=
    .init ⟨⟨Sample.catalog, rfl⟩, rfl⟩
  exact hboot.run ((machine cfg).replay_run h)

end RunAnywhere
