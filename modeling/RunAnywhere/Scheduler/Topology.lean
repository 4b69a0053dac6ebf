import Mathlib.Data.List.Sort
import RunAnywhere.Logic.Rely
import RunAnywhere.Logic.Table
import RunAnywhere.Repository.Outbox
import RunAnywhere.Scheduler.Config

/-!
# Provisioning JetStream

`scheduler/src/topology.rs`: the streams and consumers a scheduler wants, and the calls that
create them, or bring existing ones to the wanted configuration.

* **configurations** — `StreamConfig` and `ConsumerConfig` hold the fields the code reads or
  writes; `rest` stands for the others, as the server reads them;
* **drift** — `reconciledStreamConfig` and `consumerNeedsUpdate`: which differences are brought
  in line, and which are refused;
* **server** — the streams and the consumers by name. A request may fail before or after it took
  effect, and the server may choose a duplicate window that a request leaves open.
-/

namespace RunAnywhere.Topology

open Logic RunAnywhere.Env

/-! ## Configurations -/

inductive RetentionPolicy
  | limits
  | interest
  | workQueue
  deriving DecidableEq

inductive StorageType
  | file
  | memory
  deriving DecidableEq

inductive DiscardPolicy
  | old
  | new
  deriving DecidableEq

inductive AckPolicy
  | explicit
  | none
  | all
  deriving DecidableEq

inductive DeliverPolicy
  | all
  | last
  | new
  | byStartSequence (startSequence : Nat)
  | byStartTime (startTime : Int)
  | lastPerSubject
  deriving DecidableEq

/-- `stream::Config`. Ages and windows are nanoseconds. -/
structure StreamConfig (ρ : Type) where
  name : String
  description : Option String
  subjects : List String
  retention : RetentionPolicy
  storage : StorageType
  discard : DiscardPolicy
  maxBytes : Int
  maxMessageSize : Int
  maxAge : Nat
  duplicateWindow : Nat
  numReplicas : Nat
  noAck : Bool
  denyDelete : Bool
  isSealed : Bool
  rest : ρ

/-- `consumer::Config`. Waits are nanoseconds. -/
structure ConsumerConfig (κ : Type) where
  durableName : Option String
  name : Option String
  description : Option String
  deliverSubject : Option String
  deliverGroup : Option String
  deliverPolicy : DeliverPolicy
  ackPolicy : AckPolicy
  ackWait : Nat
  maxDeliver : Int
  filterSubject : String
  filterSubjects : List String
  headersOnly : Bool
  maxAckPending : Int
  maxBatch : Int
  numReplicas : Nat
  memoryStorage : Bool
  backoff : List Nat
  rest : κ

/-! ## What is wanted -/

def jobQueueStream : String := "JOB_QUEUE"
def jobDispatchConsumer : String := "job-dispatch-v1"
def jobDlqStream : String := "JOB_DLQ"
def jobAdvisoryStream : String := "JOB_ADVISORIES"
def jobAdvisoryConsumer : String := "job-advisory-recovery-v1"

def maxDeliveriesAdvisorySubject : String :=
  "$JS.EVENT.ADVISORY.CONSUMER.MAX_DELIVERIES.JOB_QUEUE.job-dispatch-v1"
def terminatedAdvisorySubject : String :=
  "$JS.EVENT.ADVISORY.CONSUMER.MSG_TERMINATED.JOB_QUEUE.job-dispatch-v1"

def maxJobMessageBytes : Int := 256 * 1024

/-- The duration of a setting, which is in whole seconds, as a configuration holds it. -/
def nanoseconds (seconds : Nat) : Nat := seconds * 1000000000

section Desired

variable {ρ κ : Type} [Inhabited ρ] [Inhabited κ]

def desiredJobStream (config : TopologyConfig) : StreamConfig ρ where
  name := jobQueueStream
  description := some "Run Anywhere durable job work queue"
  subjects := [jobsQueuedSubject]
  retention := .workQueue
  storage := .file
  discard := .new
  maxBytes := config.jobStreamMaxBytes
  maxMessageSize := maxJobMessageBytes
  maxAge := 0
  duplicateWindow := nanoseconds config.advisoryRetention
  numReplicas := config.streamReplicas
  noAck := false
  denyDelete := false
  isSealed := false
  rest := default

def desiredDlqStream (config : TopologyConfig) : StreamConfig ρ where
  name := jobDlqStream
  description := some "Run Anywhere sanitized job dead letters"
  subjects := [jobsDeadSubject]
  retention := .limits
  storage := .file
  discard := .old
  maxBytes := config.dlqStreamMaxBytes
  maxMessageSize := maxJobMessageBytes
  maxAge := nanoseconds config.dlqRetention
  duplicateWindow := nanoseconds config.dlqRetention
  numReplicas := config.streamReplicas
  noAck := false
  denyDelete := false
  isSealed := false
  rest := default

def desiredAdvisoryStream (config : TopologyConfig) : StreamConfig ρ where
  name := jobAdvisoryStream
  description := some "Durable max-delivery and termination advisories"
  subjects := [maxDeliveriesAdvisorySubject, terminatedAdvisorySubject]
  retention := .limits
  storage := .file
  discard := .old
  maxBytes := config.advisoryStreamMaxBytes
  maxMessageSize := maxJobMessageBytes
  maxAge := nanoseconds config.advisoryRetention
  duplicateWindow := 0
  numReplicas := config.streamReplicas
  noAck := false
  denyDelete := false
  isSealed := false
  rest := default

def desiredJobConsumer (config : TopologyConfig) : ConsumerConfig κ where
  durableName := some jobDispatchConsumer
  name := some jobDispatchConsumer
  description := some "Fenced scheduler dispatch and DLQ handling"
  deliverSubject := none
  deliverGroup := none
  deliverPolicy := .all
  ackPolicy := .explicit
  ackWait := nanoseconds config.ackWait
  maxDeliver := config.maxDeliver
  filterSubject := jobsQueuedSubject
  filterSubjects := []
  headersOnly := false
  maxAckPending := config.maxAckPending
  maxBatch := config.pullBatchSize
  numReplicas := config.streamReplicas
  memoryStorage := false
  backoff := []
  rest := default

def desiredAdvisoryConsumer (config : TopologyConfig) : ConsumerConfig κ where
  durableName := some jobAdvisoryConsumer
  name := some jobAdvisoryConsumer
  description := some "Durable recovery of exhausted and terminated job messages"
  deliverSubject := none
  deliverGroup := none
  deliverPolicy := .all
  ackPolicy := .explicit
  ackWait := nanoseconds config.ackWait
  maxDeliver := -1
  filterSubject := ""
  filterSubjects := []
  headersOnly := false
  maxAckPending := min config.maxAckPending 256
  maxBatch := config.pullBatchSize
  numReplicas := config.streamReplicas
  memoryStorage := false
  backoff := []
  rest := default

end Desired

/-! ## Drift -/

/-- A value an error shows. -/
inductive Shown
  | retention (value : RetentionPolicy)
  | storage (value : StorageType)
  | flag (value : Bool)
  | texts (value : List String)
  | name (value : Option String)
  | ack (value : AckPolicy)
  | deliver (value : DeliverPolicy)
  | subject (value : String)
  | filters (subject : String) (subjects : List String)
  deriving DecidableEq

/-- `TopologyError`. -/
inductive TopologyError
  | invalidConfig (message : String)
  | incompatible (resource field : String) (expected actual : Shown)
  | operation (resource message : String)
  deriving DecidableEq

/-- `incompatible_if`, which refuses a difference. -/
def incompatibleIf {α : Type} [DecidableEq α] (shown : α → Shown) (resource field : String)
    (expected actual : α) : Except TopologyError Unit :=
  if expected = actual then .ok ()
  else .error (.incompatible resource field (shown expected) (shown actual))

/-- `Vec::sort` of the subjects. -/
def sorted (subjects : List String) : List String := subjects.insertionSort (· ≤ ·)

section Drift

variable {ρ κ : Type}

/-- The fields of `actual` a scheduler manages, as `desired` has them. -/
def StreamConfig.managedBy (actual desired : StreamConfig ρ) : StreamConfig ρ :=
  { actual with
    description := desired.description
    maxBytes := desired.maxBytes
    discard := desired.discard
    maxAge := desired.maxAge
    duplicateWindow := desired.duplicateWindow
    maxMessageSize := desired.maxMessageSize
    numReplicas := desired.numReplicas }

/-- `managed_equal`. -/
def StreamConfig.managedEqual (actual updated : StreamConfig ρ) : Bool :=
  actual.description = updated.description && actual.maxBytes = updated.maxBytes &&
    actual.discard = updated.discard && actual.maxAge = updated.maxAge &&
    actual.duplicateWindow = updated.duplicateWindow &&
    actual.maxMessageSize = updated.maxMessageSize && actual.numReplicas = updated.numReplicas

/-- `reconciled_stream_config`. -/
def reconciledStreamConfig (actual desired : StreamConfig ρ) (resource : String) :
    Except TopologyError (Option (StreamConfig ρ)) := do
  incompatibleIf .retention resource "retention" desired.retention actual.retention
  incompatibleIf .storage resource "storage" desired.storage actual.storage
  incompatibleIf .flag resource "no_ack" false actual.noAck
  incompatibleIf .flag resource "deny_delete" false actual.denyDelete
  incompatibleIf .flag resource "sealed" false actual.isSealed
  incompatibleIf .texts resource "subjects" (sorted desired.subjects) (sorted actual.subjects)
  let updated := actual.managedBy desired
  pure (if actual.managedEqual updated then none else some updated)

/-- Whether the filter of `actual` is the one of `desired`. -/
def filterMatches (actual desired : ConsumerConfig κ) : Bool :=
  if desired.filterSubject = "" ∧ desired.filterSubjects = [] then
    actual.filterSubject = "" && actual.filterSubjects = []
  else
    (actual.filterSubject = desired.filterSubject && actual.filterSubjects = []) ||
      (actual.filterSubject = "" && actual.filterSubjects = [desired.filterSubject])

/-- `consumer_needs_update`. -/
def consumerNeedsUpdate (actual desired : ConsumerConfig κ) (resource : String) :
    Except TopologyError Bool := do
  incompatibleIf .name resource "durable_name" desired.durableName actual.durableName
  incompatibleIf .name resource "pull_consumer" none actual.deliverSubject
  incompatibleIf .name resource "deliver_group" none actual.deliverGroup
  incompatibleIf .ack resource "ack_policy" desired.ackPolicy actual.ackPolicy
  incompatibleIf .deliver resource "deliver_policy" desired.deliverPolicy actual.deliverPolicy
  incompatibleIf .flag resource "headers_only" false actual.headersOnly
  if filterMatches actual desired = false then
    .error (.incompatible resource "filter_subject" (.subject desired.filterSubject)
      (.filters actual.filterSubject actual.filterSubjects))
  else
    pure (actual.description ≠ desired.description || actual.ackWait ≠ desired.ackWait ||
      actual.maxDeliver ≠ desired.maxDeliver || actual.maxAckPending ≠ desired.maxAckPending ||
      actual.maxBatch ≠ desired.maxBatch || actual.numReplicas ≠ desired.numReplicas ||
      actual.memoryStorage ≠ desired.memoryStorage || !actual.backoff.isEmpty)

end Drift

/-! ## The calls -/

/-- A request to the server. -/
inductive Call (ρ κ : Type)
  | getOrCreateStream (config : StreamConfig ρ)
  | updateStream (config : StreamConfig ρ)
  | getStream (name : String)
  | getOrCreateConsumer (stream name : String) (config : ConsumerConfig κ)
  | updateConsumer (stream name : String) (config : ConsumerConfig κ)
  | getConsumer (stream name : String)

/-- What a request answers when it succeeds: the stored configuration where the code reads it. -/
abbrev Call.Ok {ρ κ : Type} : Call ρ κ → Type
  | .getOrCreateStream _ => StreamConfig ρ
  | .getOrCreateConsumer _ _ _ => ConsumerConfig κ
  | _ => Unit

abbrev Call.Out {ρ κ : Type} (x : Call ρ κ) : Type := Except String x.Ok

section Programs

variable {ρ κ : Type}

/-- A program of a scheduler that starts. -/
abbrev Provision (ρ κ α : Type) := Routine (Call ρ κ) Call.Out TopologyError α

/-- One request. -/
def request (x : Call ρ κ) : Routine (Call ρ κ) Call.Out String x.Ok := Prog.perform x

/-- `ensure_stream`. -/
def ensureStream (desired : StreamConfig ρ) : Provision ρ κ Unit := do
  let existing ← .try_ (request (.getOrCreateStream desired)) (.operation desired.name)
  match ← .ofExcept (reconciledStreamConfig existing desired desired.name) with
  | some updated =>
      .try_ (request (.updateStream updated)) (.operation desired.name)
      .try_ (request (.getStream desired.name)) (.operation desired.name)
  | none => pure ()

/-- `ensure_pull_consumer`. -/
def ensurePullConsumer (stream name : String) (desired : ConsumerConfig κ) :
    Provision ρ κ Unit := do
  let existing ← .try_ (request (.getOrCreateConsumer stream name desired)) (.operation name)
  if ← .ofExcept (consumerNeedsUpdate existing desired name) then
    .try_ (request (.updateConsumer stream name desired)) (.operation name)
  else
    .try_ (request (.getConsumer stream name)) (.operation name)

/-- `provision_topology`. -/
def provisionTopology [Inhabited ρ] [Inhabited κ] (config : TopologyConfig) :
    Provision ρ κ Unit := do
  .ofExcept ((validateConfig config).mapError fun e => .invalidConfig e.message)
  ensureStream (desiredJobStream config)
  ensureStream (desiredDlqStream config)
  ensureStream (desiredAdvisoryStream config)
  ensurePullConsumer jobQueueStream jobDispatchConsumer (desiredJobConsumer config)
  ensurePullConsumer jobAdvisoryStream jobAdvisoryConsumer (desiredAdvisoryConsumer config)

end Programs

/-! ## The server -/

/-- The streams, and the consumers of each stream. -/
structure Server (ρ κ : Type) where
  streams : Table String (StreamConfig ρ)
  consumers : Table (String × String) (ConsumerConfig κ)

/-- How a request went: done, or failed before or after it took effect. -/
inductive Fate
  | done
  | failed (took : Bool) (message : String)

/-- What the server stores for a stream it was asked for. -/
abbrev Broker (ρ : Type) := StreamConfig ρ → StreamConfig ρ

/-- A server stores what it was asked for; it may choose the duplicate window that a request
leaves at zero. -/
structure Broker.Lawful {ρ : Type} (broker : Broker ρ) : Prop where
  keeps : ∀ c, broker c = { c with duplicateWindow := (broker c).duplicateWindow }
  window : ∀ c, c.duplicateWindow ≠ 0 → (broker c).duplicateWindow = c.duplicateWindow

section Server

variable {ρ κ : Type} (broker : Broker ρ)

/-- The answer and the server after a request that is carried out. -/
def Call.carry (s : Server ρ κ) : (x : Call ρ κ) → x.Out × Server ρ κ
  | .getOrCreateStream config =>
      match s.streams.get? config.name with
      | some existing => (.ok existing, s)
      | none => (.ok (broker config),
          { s with streams := s.streams.put config.name (broker config) })
  | .updateStream config =>
      match s.streams.get? config.name with
      | some _ => (.ok (), { s with streams := s.streams.put config.name (broker config) })
      | none => (.error "stream not found", s)
  | .getStream name =>
      match s.streams.get? name with
      | some _ => (.ok (), s)
      | none => (.error "stream not found", s)
  | .getOrCreateConsumer stream name config =>
      match s.streams.get? stream, s.consumers.get? (stream, name) with
      | none, _ => (.error "stream not found", s)
      | some _, some existing => (.ok existing, s)
      | some _, none =>
          (.ok config, { s with consumers := s.consumers.put (stream, name) config })
  | .updateConsumer stream name config =>
      match s.consumers.get? (stream, name) with
      | some _ => (.ok (), { s with consumers := s.consumers.put (stream, name) config })
      | none => (.error "consumer not found", s)
  | .getConsumer stream name =>
      match s.consumers.get? (stream, name) with
      | some _ => (.ok (), s)
      | none => (.error "consumer not found", s)

/-- A request under its fate. -/
def Call.perform (s : Server ρ κ) (x : Call ρ κ) : Fate → x.Out × Server ρ κ
  | .done => x.carry broker s
  | .failed took message => (.error message, if took then (x.carry broker s).2 else s)

/-- Streams are stored under their names. -/
def Server.Named (s : Server ρ κ) : Prop := ∀ k a, s.streams.get? k = some a → a.name = k

theorem Server.Named.put {s : Server ρ κ} (h : s.Named) {k : String} {a : StreamConfig ρ}
    (ha : a.name = k) : Server.Named { s with streams := s.streams.put k a } := by
  intro k' b hb
  simp only [Table.get?_put] at hb
  split at hb
  · next hk =>
      cases hb
      rw [ha, hk]
  · exact h k' b hb

/-- Requests keep the names. -/
theorem carry_named {s : Server ρ κ} (hb : broker.Lawful) (x : Call ρ κ) (h : s.Named) :
    (x.carry broker s).2.Named := by
  have hname : ∀ c, (broker c).name = c.name := by
    intro c
    rw [hb.keeps]
  cases x with
  | getOrCreateStream d =>
      simp only [Call.carry]
      split
      · exact h
      · exact h.put (hname d)
  | updateStream u =>
      simp only [Call.carry]
      split
      · exact h.put (hname u)
      · exact h
  | getStream k | getOrCreateConsumer stream name d | updateConsumer stream name d
  | getConsumer stream name =>
      simp only [Call.carry]
      split <;> exact h

/-- Moves of others: they create and change streams and consumers of other names. -/
inductive Other (ρ κ : Type)
  | stream (config : StreamConfig ρ)
  | consumer (stream name : String) (config : ConsumerConfig κ)

/-- The names a scheduler manages. -/
def managedStreams : List String := [jobQueueStream, jobDlqStream, jobAdvisoryStream]
def managedConsumers : List (String × String) :=
  [(jobQueueStream, jobDispatchConsumer), (jobAdvisoryStream, jobAdvisoryConsumer)]

def Server.other (s : Server ρ κ) : Other ρ κ → Option (Server ρ κ)
  | .stream config =>
      if config.name ∈ managedStreams then none
      else some { s with streams := s.streams.put config.name config }
  | .consumer stream name config =>
      if (stream, name) ∈ managedConsumers then none
      else some { s with consumers := s.consumers.put (stream, name) config }

/-- Any number of schedulers that start with one configuration, over a server whose requests
may fail when it is `faulty`. A scheduler may die at any time. -/
def machine [Inhabited ρ] [Inhabited κ] (faulty : Bool) (config : TopologyConfig) :
    Machine (Server ρ κ) (Call ρ κ) Call.Out Unit (Except TopologyError Unit) Fate (Other ρ κ) where
  perform s x fate :=
    match fate, faulty with
    | .failed _ _, false => none
    | _, _ => some (x.perform broker s fate)
  prog _ := provisionTopology config
  enabled _ _ := true
  survives _ := false
  env := Server.other
  crash s := s

end Server

end RunAnywhere.Topology
