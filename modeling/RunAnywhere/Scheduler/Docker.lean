import RunAnywhere.Logic.Chrono
import RunAnywhere.Logic.Json
import RunAnywhere.Logic.Rely
import RunAnywhere.Logic.Result
import RunAnywhere.Logic.Tx
import RunAnywhere.Scheduler.Reaper

/-!
# The reaper of a Docker Engine

`DockerEngineReaper` of `scheduler/src/reaper.rs`. The engine is outside; others use it as well.

* **labels** — a managed runtime carries the job, the worker and the lease it belongs to.
  `runtimeFromContainer` reads them out of an inventory, `labelsMatchResource` compares them
  before a runtime is removed;
* **calls** — three requests to the engine, each answered with a status and a body;
* **engine** — containers by id. An id is never used twice and the labels of a container never
  change; names may, and a name may be anything, the id of another container included. A request
  may name a container by its id, its name or the beginning of its id.
-/

namespace RunAnywhere.Docker

open Logic Logic.Chrono

/-! ## Labels -/

abbrev Labels := Table String String

def managedLabel : String := "io.run-anywhere.managed"
def jobIdLabel : String := "job-id"
def workerIdLabel : String := "worker-id"
def leaseIdLabel : String := "lease-id"
def runtimeKindLabel : String := "runtime-kind"

/-- `ReaperError`. -/
inductive ReaperError
  | request
  | engineStatus (status : Nat)
  | malformedManagedResource (resourceId label : String)
  | invalidResourceId
  | identityMismatch (resourceId : String)
  deriving DecidableEq

/-- A container as the inventory lists it. -/
structure DockerContainer where
  id : String
  created : Int
  labels : Option Labels

def validRuntimeKind (value : String) : Bool :=
  value ∈ ["android_emulator_container", "redroid", "cuttlefish", "browser_native_wasm"]

def validResourceId (resourceId : String) : Bool :=
  !resourceId.isEmpty && resourceId.utf8ByteSize ≤ 128 &&
    resourceId.toList.all fun c => c.isAlphanum || c = '_' || c = '-' || c = '.'

def malformed (resourceId label : String) : ReaperError :=
  .malformedManagedResource resourceId label

def requiredLabel (labels : Labels) (resourceId label : String) : Except ReaperError String :=
  match (labels.get? label).filter fun value => !value.isEmpty with
  | some value => .ok value
  | none => .error (malformed resourceId label)

/-- A required label that is parsed as an identifier. -/
def identLabel (pre : String) (labels : Labels) (resourceId label : String) :
    Except ReaperError (Ident pre) := do
  let value ← requiredLabel labels resourceId label
  (Ident.new pre value).mapError fun _ => malformed resourceId label

/-- `runtime_from_container`. -/
def runtimeFromContainer (container : DockerContainer) : Except ReaperError RuntimeResource := do
  if validResourceId container.id = false then
    .error .invalidResourceId
  else
    let labels := container.labels.getD Table.empty
    let managed ← requiredLabel labels container.id managedLabel
    if managed ≠ "true" then
      .error (malformed container.id managedLabel)
    else
      let jobId ← identLabel "job_" labels container.id jobIdLabel
      let workerId ← identLabel "wrk_" labels container.id workerIdLabel
      let leaseId ← identLabel "lease_" labels container.id leaseIdLabel
      let runtimeKind ← requiredLabel labels container.id runtimeKindLabel
      if validRuntimeKind runtimeKind = false then
        .error (malformed container.id runtimeKindLabel)
      else
        match DateTime.ofNanos (container.created * second) with
        | some createdAt =>
            pure ⟨container.id, jobId, workerId, leaseId, createdAt.nanos / 1000⟩
        | none => .error (malformed container.id "created_at")

/-- `labels_match_resource`. -/
def labelsMatchResource (labels : Labels) (resource : RuntimeResource) : Bool :=
  labels.get? managedLabel = some "true" && labels.get? jobIdLabel = some resource.jobId.val &&
    labels.get? workerIdLabel = some resource.workerId.val &&
    labels.get? leaseIdLabel = some resource.leaseId.val &&
    (labels.get? runtimeKindLabel).any validRuntimeKind

theorem requiredLabel_ok {labels : Labels} {id label value : String}
    (h : requiredLabel labels id label = .ok value) : labels.get? label = some value := by
  unfold requiredLabel at h
  split at h
  · next heq =>
      cases h
      exact (Option.filter_eq_some_iff.mp heq).1
  · cases h

theorem identLabel_ok {pre : String} {labels : Labels} {id label : String} {i : Ident pre}
    (h : identLabel pre labels id label = .ok i) : labels.get? label = some i.val := by
  obtain ⟨value, hvalue, hparse⟩ := Result.bind_ok_iff.mp h
  rw [requiredLabel_ok hvalue, Ident.val_of_new (Tx.mapError_eq_ok.mp hparse)]

/-- **Two readers.** What the inventory reads out of labels is what they are compared with. -/
theorem runtimeFromContainer_matches {container : DockerContainer} {resource : RuntimeResource}
    (h : runtimeFromContainer container = .ok resource) :
    resource.resourceId = container.id ∧
      labelsMatchResource (container.labels.getD Table.empty) resource = true := by
  unfold runtimeFromContainer at h
  split at h
  · cases h
  obtain ⟨managed, hmanaged, h⟩ := Result.bind_ok_iff.mp h
  split at h
  · cases h
  · next htrue =>
      obtain ⟨jobId, hjob, h⟩ := Result.bind_ok_iff.mp h
      obtain ⟨workerId, hworker, h⟩ := Result.bind_ok_iff.mp h
      obtain ⟨leaseId, hlease, h⟩ := Result.bind_ok_iff.mp h
      obtain ⟨kind, hkind, h⟩ := Result.bind_ok_iff.mp h
      split at h
      · cases h
      · next hvalid =>
          split at h
          · cases h
            refine ⟨rfl, ?_⟩
            have hmanaged' := requiredLabel_ok hmanaged
            rw [not_not.mp htrue] at hmanaged'
            simp only [labelsMatchResource, hmanaged', identLabel_ok hjob, identLabel_ok hworker,
              identLabel_ok hlease, requiredLabel_ok hkind, Option.any_some]
            simpa using hvalid
          · cases h

/-! ## The calls -/

/-- A request to the engine: the managed containers, one container, or its removal. -/
inductive Call
  | list
  | inspect (reference : String)
  | remove (reference : String)
  deriving DecidableEq

/-- What a request is answered with: nothing, or a status and a body that can be read. -/
inductive Reply (α : Type)
  | failed
  | status (code : Nat) (body : Option α)

/-- The same answer with a body that cannot be read. -/
def Reply.unread {α : Type} : Reply α → Reply α
  | .failed => .failed
  | .status code _ => .status code none

/-- The part of a body that the code reads. -/
abbrev Call.Body : Call → Type
  | .list => List DockerContainer
  | .inspect _ => Option Labels
  | .remove _ => Unit

abbrev Call.Out (x : Call) : Type := Reply x.Body

/-- `StatusCode::is_success`. -/
def isSuccess (code : Nat) : Bool := 200 ≤ code && code < 300

/-- `StatusCode::NOT_FOUND`. -/
def notFound : Nat := 404

abbrev Reaping (α : Type) := Routine Call Call.Out ReaperError α

/-- One request. -/
def send (x : Call) : Reaping x.Out := Routine.lift (Prog.perform x)

/-- `inspect_matches`. -/
def inspectMatches (resource : RuntimeResource) : Reaping (Option Bool) := do
  match ← send (.inspect resource.resourceId) with
  | .failed => .fail .request
  | .status code body =>
      if code = notFound then
        pure none
      else if isSuccess code = false then
        .fail (.engineStatus code)
      else
        match body with
        | none => .fail .request
        | some labels => pure (some (labelsMatchResource (labels.getD Table.empty) resource))

/-- What `inventory` makes of its answer. -/
def listed (reply : Call.list.Out) : Except ReaperError (List RuntimeResource) :=
  match reply with
  | .failed => .error .request
  | .status code body =>
      if isSuccess code = false then
        .error (.engineStatus code)
      else
        match body with
        | none => .error .request
        | some containers => containers.mapM runtimeFromContainer

/-- `inventory`. -/
def inventory : Reaping (List RuntimeResource) := do
  let reply ← send .list
  .ofExcept (listed reply)

/-- The removal at the end of `reap`. -/
def removeContainer (resource : RuntimeResource) : Reaping ReapOutcome := do
  match ← send (.remove resource.resourceId) with
  | .failed => .fail .request
  | .status code _ =>
      if isSuccess code then
        pure .reaped
      else if code = notFound then
        pure .alreadyAbsent
      else
        .fail (.engineStatus code)

/-- `reap`. -/
def reap (resource : RuntimeResource) : Reaping ReapOutcome := do
  if validResourceId resource.resourceId = false then
    .fail .invalidResourceId
  else
    match ← inspectMatches resource with
    | none => pure .alreadyAbsent
    | some false => .fail (.identityMismatch resource.resourceId)
    | some true => removeContainer resource

/-! ## The engine -/

structure Container where
  name : String
  created : Int
  labels : Option Labels

/-- The containers that are there, and every id there ever was. -/
structure Engine where
  containers : Table String Container
  used : List String

/-- The ids an engine gives: 64 hexadecimal digits. -/
def isEngineId (id : String) : Bool :=
  id.toList.length = 64 && id.toList.all isLowerHex

/-- A path of `url` loses the segments `.` and `..`, as `PathSegmentsMut::push` skips them. -/
def isDotSegment (segment : String) : Bool := segment = "." || segment = ".."

/-! ### Ids -/

theorem isEngineId_length {id : String} (h : isEngineId id = true) : id.toList.length = 64 := by
  unfold isEngineId at h
  exact of_decide_eq_true (Bool.and_eq_true_iff.mp h).1

/-- A digit of an id is a letter or a digit of ASCII. -/
theorem engineDigit {c : Char} (h : isLowerHex c = true) :
    c.isAlphanum = true ∧ c.toNat < 128 := by
  rcases isLowerHex_cases h with ⟨hdigit, _, _⟩ | ⟨_, _, hlow, hhigh⟩
  · exact ⟨Bool.or_eq_true_iff.mpr (Or.inr hdigit), by omega⟩
  · have hz : 'z'.val.toNat = 122 := rfl
    have hlower : c.isLower = true := Bool.and_eq_true_iff.mpr
      ⟨decide_eq_true (UInt32.le_iff_toNat_le.mpr hlow),
        decide_eq_true (UInt32.le_iff_toNat_le.mpr (by rw [hz, Char.toNat_val]; omega))⟩
    exact ⟨Bool.or_eq_true_iff.mpr (Or.inl (Bool.or_eq_true_iff.mpr (Or.inr hlower))), by omega⟩

theorem isEngineId_not_dot {id : String} (h : isEngineId id = true) : isDotSegment id = false := by
  have hlong := isEngineId_length h
  unfold isDotSegment
  rw [Bool.or_eq_false_iff, decide_eq_false_iff_not, decide_eq_false_iff_not]
  constructor
  · rintro rfl
    cases hlong
  · rintro rfl
    cases hlong

/-- The ids of the engine are accepted as resource ids. -/
theorem isEngineId_valid {id : String} (h : isEngineId id = true) : validResourceId id = true := by
  have hlong := isEngineId_length h
  have hdigits : ∀ c ∈ id.toList, c.isAlphanum = true ∧ c.toNat < 128 := by
    intro c hc
    unfold isEngineId at h
    exact engineDigit (List.all_eq_true.mp (Bool.and_eq_true_iff.mp h).2 c hc)
  have hsize : id.utf8ByteSize = 64 := by
    have hascii := Json.utf8ByteSize_ascii fun c hc => (hdigits c hc).2
    rw [String.ofList_toList] at hascii
    rw [hascii, hlong]
  have hne : id.isEmpty = false := by
    rw [String.isEmpty_eq_false_iff]
    rintro rfl
    cases hlong
  unfold validResourceId
  rw [hne, hsize]
  refine Bool.and_eq_true_iff.mpr ⟨by decide, List.all_eq_true.mpr fun c hc => ?_⟩
  rw [(hdigits c hc).1]
  rfl

namespace Engine

/-- The container a reference stands for: by id, by name, or by the beginning of one id. An error
is the status of the answer. -/
def resolve (s : Engine) (reference : String) : Except Nat (String × Container) :=
  match s.containers.get? reference with
  | some c => .ok (reference, c)
  | none =>
      match s.containers.rows.find? fun row => row.2.name = reference with
      | some row => .ok row
      | none =>
          match s.containers.rows.filter fun row =>
            reference.toList.isPrefixOf row.1.toList with
          | [] => .error notFound
          | [row] => .ok row
          | _ => .error 400

/-- Whether a container carries the label the inventory asks for. -/
def Managed (c : Container) : Prop :=
  (c.labels.getD Table.empty).get? managedLabel = some "true"

instance : DecidablePred Managed := fun _ => inferInstanceAs (Decidable (_ = _))

/-- What the inventory is answered with. -/
def listing (s : Engine) : List DockerContainer :=
  (s.containers.rows.filter fun row => Managed row.2).map fun row =>
    ⟨row.1, row.2.created, row.2.labels⟩

end Engine

/-- The answer and the engine after a request that is carried out. -/
def Call.carry (s : Engine) : (x : Call) → x.Out × Engine
  | .list => (.status 200 (some s.listing), s)
  | .inspect reference =>
      -- without its dot segment the path is the one of the inventory
      if isDotSegment reference then (.status 200 none, s)
      else
        match s.resolve reference with
        | .ok row => (.status 200 (some row.2.labels), s)
        | .error code => (.status code none, s)
  | .remove reference =>
      if isDotSegment reference then (.status notFound none, s)
      else
        match s.resolve reference with
        | .ok row => (.status 204 none, { s with containers := s.containers.erase row.1 })
        | .error code => (.status code none, s)

/-- How a request went: done, done with a body that cannot be read, refused with a status, or
without an answer. -/
inductive Fate
  | done
  | garbled
  | refused (code : Nat) (took : Bool)
  | lost (took : Bool)
  deriving DecidableEq

/-- A request under its fate, `none` when the engine does not answer so. -/
def Call.perform (s : Engine) (x : Call) : Fate → Option (x.Out × Engine)
  | .done => some (x.carry s)
  | .garbled => some ((x.carry s).1.unread, (x.carry s).2)
  | .refused code took =>
      if isSuccess code || code = notFound then none
      else some (.status code none, if took then (x.carry s).2 else s)
  | .lost took => some (.failed, if took then (x.carry s).2 else s)

/-- Moves of others: they create containers under new ids, rename and remove them. -/
inductive Other
  | create (id : String) (container : Container)
  | rename (id name : String)
  | remove (id : String)

def Engine.other (s : Engine) : Other → Option Engine
  | .create id container =>
      if isEngineId id ∧ id ∉ s.used then
        some ⟨s.containers.put id container, id :: s.used⟩
      else none
  | .rename id name =>
      (s.containers.get? id).map fun c =>
        { s with containers := s.containers.put id { c with name := name } }
  | .remove id => some { s with containers := s.containers.erase id }

/-- What a caller asks of the reaper. -/
inductive Task
  | inventory
  | reap (resource : RuntimeResource)
  deriving DecidableEq

/-- What it comes to. -/
inductive Came
  | listed (resources : List RuntimeResource)
  | reaped (outcome : ReapOutcome)
  deriving DecidableEq

def Task.prog : Task → Reaping Came
  | .inventory => do
      let resources ← Docker.inventory
      pure (.listed resources)
  | .reap resource => do
      let outcome ← Docker.reap resource
      pure (.reaped outcome)

/-- Any number of reapers over one engine. They reap any resource, whether it was listed or not. -/
def machine : Machine Engine Call Call.Out Task (Except ReaperError Came) Fate Other where
  perform := Call.perform
  prog := Task.prog
  enabled _ _ := true
  survives _ := false
  env := Engine.other
  crash s := s

end RunAnywhere.Docker
