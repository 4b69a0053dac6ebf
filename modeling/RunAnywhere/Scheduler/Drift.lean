import RunAnywhere.Logic.Result
import RunAnywhere.Logic.Upkeep
import RunAnywhere.Scheduler.Topology

/-!
# Drift

How a stream or a consumer on the server relates to the one that is wanted:

* **compatible** — the fields that may not change are as wanted; this is what
  `reconciledStreamConfig` and `consumerNeedsUpdate` check;
* **conforming** — the managed fields are as wanted as well, so nothing is asked for;
* **steps** — what provisioning does to a stream or a consumer. A stream that is brought in line
  keeps every field that is not managed, and one that is not compatible is left as it is
  (`StreamStep`); an update that was worked out from an earlier reading is still such a step
  (`StreamStep.update`).
-/

namespace RunAnywhere.Topology

open Logic

variable {ρ κ : Type}

/-! ## Streams -/

/-- The fields of a stream that may not change are as wanted. -/
structure Compatible (desired actual : StreamConfig ρ) : Prop where
  retention : desired.retention = actual.retention
  storage : desired.storage = actual.storage
  noAck : actual.noAck = false
  denyDelete : actual.denyDelete = false
  isSealed : actual.isSealed = false
  subjects : sorted desired.subjects = sorted actual.subjects

/-- The managed fields of a stream are as wanted; the duplicate window, when one is wanted. -/
structure Conforms (desired actual : StreamConfig ρ) : Prop where
  compatible : Compatible desired actual
  description : actual.description = desired.description
  maxBytes : actual.maxBytes = desired.maxBytes
  discard : actual.discard = desired.discard
  maxAge : actual.maxAge = desired.maxAge
  maxMessageSize : actual.maxMessageSize = desired.maxMessageSize
  numReplicas : actual.numReplicas = desired.numReplicas
  window : desired.duplicateWindow ≠ 0 → actual.duplicateWindow = desired.duplicateWindow

theorem incompatibleIf_ok_iff {α : Type} [DecidableEq α] {shown : α → Shown}
    {resource field : String} {expected actual : α} {u : Unit} :
    incompatibleIf shown resource field expected actual = .ok u ↔ expected = actual := by
  unfold incompatibleIf
  split
  · next heq => exact ⟨fun _ => heq, fun _ => rfl⟩
  · next hne =>
      constructor
      · intro h
        cases h
      · intro heq
        exact absurd heq hne

/-- What `reconciled_stream_config` accepts, and what it asks for. -/
theorem reconciledStreamConfig_ok_iff {actual desired : StreamConfig ρ} {resource : String}
    {out : Option (StreamConfig ρ)} :
    reconciledStreamConfig actual desired resource = .ok out ↔ Compatible desired actual ∧
      out = if actual.managedEqual (actual.managedBy desired) then none
        else some (actual.managedBy desired) := by
  simp only [reconciledStreamConfig, Result.bind_ok_iff, incompatibleIf_ok_iff]
  constructor
  · rintro ⟨_, h₁, _, h₂, _, h₃, _, h₄, _, h₅, _, h₆, hout⟩
    exact ⟨⟨h₁, h₂, h₃.symm, h₄.symm, h₅.symm, h₆⟩, (Except.ok.inj hout).symm⟩
  · rintro ⟨h, rfl⟩
    exact ⟨(), h.retention, (), h.storage, (), h.noAck.symm, (), h.denyDelete.symm, (),
      h.isSealed.symm, (), h.subjects, rfl⟩

/-- No update is asked for when the stream conforms. -/
theorem conforms_of_managedEqual {actual desired : StreamConfig ρ}
    (hc : Compatible desired actual)
    (h : actual.managedEqual (actual.managedBy desired) = true) : Conforms desired actual := by
  simp only [StreamConfig.managedEqual, Bool.and_eq_true, decide_eq_true_eq] at h
  obtain ⟨⟨⟨⟨⟨⟨h₁, h₂⟩, h₃⟩, h₄⟩, h₅⟩, h₆⟩, h₇⟩ := h
  exact ⟨hc, h₁, h₂, h₃, h₄, h₆, h₇, fun _ => h₅⟩

/-- **Stream steps.** A stream is left as it is, or it is brought in line: then it was
compatible, it keeps what is not managed, and it conforms. -/
def StreamStep (desired actual actual' : StreamConfig ρ) : Prop :=
  actual' = actual ∨
    (Compatible desired actual ∧ actual.managedBy actual' = actual' ∧ Conforms desired actual')

namespace StreamStep

variable {desired actual actual' actual'' : StreamConfig ρ}

theorem refl (actual : StreamConfig ρ) : StreamStep desired actual actual := Or.inl rfl

theorem trans (h : StreamStep desired actual actual') (h' : StreamStep desired actual' actual'') :
    StreamStep desired actual actual'' := by
  rcases h with rfl | ⟨hc, hkept, _⟩
  · exact h'
  · rcases h' with rfl | ⟨_, hkept', hconforms⟩
    · exact Or.inr ⟨hc, hkept, ‹_›⟩
    · refine Or.inr ⟨hc, ?_, hconforms⟩
      rw [← hkept', ← hkept]
      rfl

/-- The fields that are not managed stay. -/
theorem kept (h : StreamStep desired actual actual') : actual.managedBy actual' = actual' := by
  rcases h with rfl | ⟨_, hkept, _⟩
  · rfl
  · exact hkept

theorem compatible (h : StreamStep desired actual actual') (hc : Compatible desired actual) :
    Compatible desired actual' := by
  rcases h with rfl | ⟨_, _, hconforms⟩
  · exact hc
  · exact hconforms.compatible

theorem conforms (h : StreamStep desired actual actual') (hc : Conforms desired actual) :
    Conforms desired actual' := by
  rcases h with rfl | ⟨_, _, hconforms⟩
  · exact hc
  · exact hconforms

/-- A stream that conforms is not changed again, unless the server chooses its window. -/
theorem steady (h : StreamStep desired actual actual') (hc : Conforms desired actual)
    (hw : desired.duplicateWindow ≠ 0) : actual' = actual := by
  have hc' := h.conforms hc
  rw [← h.kept]
  unfold StreamConfig.managedBy
  rw [hc'.description, hc'.maxBytes, hc'.discard, hc'.maxAge, hc'.window hw, hc'.maxMessageSize,
    hc'.numReplicas, ← hc.description, ← hc.maxBytes, ← hc.discard, ← hc.maxAge, ← hc.window hw,
    ← hc.maxMessageSize, ← hc.numReplicas]

/-- A compatible stream that is brought in line conforms. -/
theorem conforms_managedBy {broker : Broker ρ} (hb : broker.Lawful)
    (hc : Compatible desired actual) : Conforms desired (broker (actual.managedBy desired)) := by
  rw [hb.keeps]
  exact ⟨⟨hc.retention, hc.storage, hc.noAck, hc.denyDelete, hc.isSealed, hc.subjects⟩, rfl, rfl,
    rfl, rfl, rfl, rfl, hb.window (actual.managedBy desired)⟩

/-- **Update.** An update that was worked out from an earlier reading still is a step. -/
theorem update {broker : Broker ρ} (hb : broker.Lawful) (h : StreamStep desired actual actual')
    (hc : Compatible desired actual) :
    StreamStep desired actual' (broker (actual.managedBy desired)) := by
  refine Or.inr ⟨h.compatible hc, ?_, conforms_managedBy hb hc⟩
  rw [hb.keeps, ← h.kept]
  rfl

end StreamStep

/-! ## Consumers -/

/-- The fields of a consumer that may not change are as wanted. -/
structure ConsumerCompatible (desired actual : ConsumerConfig κ) : Prop where
  durableName : desired.durableName = actual.durableName
  deliverSubject : actual.deliverSubject = none
  deliverGroup : actual.deliverGroup = none
  ackPolicy : desired.ackPolicy = actual.ackPolicy
  deliverPolicy : desired.deliverPolicy = actual.deliverPolicy
  headersOnly : actual.headersOnly = false
  filter : filterMatches actual desired = true

/-- The managed fields of a consumer are as wanted. -/
structure ConsumerConforms (desired actual : ConsumerConfig κ) : Prop where
  compatible : ConsumerCompatible desired actual
  description : actual.description = desired.description
  ackWait : actual.ackWait = desired.ackWait
  maxDeliver : actual.maxDeliver = desired.maxDeliver
  maxAckPending : actual.maxAckPending = desired.maxAckPending
  maxBatch : actual.maxBatch = desired.maxBatch
  numReplicas : actual.numReplicas = desired.numReplicas
  memoryStorage : actual.memoryStorage = desired.memoryStorage
  backoff : actual.backoff = []

/-- What `consumer_needs_update` accepts, and what holds when it asks for nothing. -/
theorem consumerNeedsUpdate_ok {actual desired : ConsumerConfig κ} {resource : String} {b : Bool}
    (h : consumerNeedsUpdate actual desired resource = .ok b) :
    ConsumerCompatible desired actual ∧ (b = false → ConsumerConforms desired actual) := by
  simp only [consumerNeedsUpdate, Result.bind_ok_iff, incompatibleIf_ok_iff] at h
  obtain ⟨_, h₁, _, h₂, _, h₃, _, h₄, _, h₅, _, h₆, h⟩ := h
  split at h
  · cases h
  · next hfilter =>
      have hc : ConsumerCompatible desired actual :=
        ⟨h₁, h₂.symm, h₃.symm, h₄, h₅, h₆.symm, by simpa using hfilter⟩
      refine ⟨hc, fun hb => ?_⟩
      subst hb
      simp only [pure, Except.pure, Except.ok.injEq, Bool.or_eq_false_iff,
        decide_eq_false_iff_not, not_not, Bool.not_eq_false'] at h
      obtain ⟨⟨⟨⟨⟨⟨⟨g₁, g₂⟩, g₃⟩, g₄⟩, g₅⟩, g₆⟩, g₇⟩, g₈⟩ := h
      exact ⟨hc, g₁, g₂, g₃, g₄, g₅, g₆, g₇, List.isEmpty_iff.mp g₈⟩

/-- A compatible consumer is accepted. -/
theorem consumerNeedsUpdate_compatible {actual desired : ConsumerConfig κ}
    (h : ConsumerCompatible desired actual) (resource : String) :
    ∃ b, consumerNeedsUpdate actual desired resource = .ok b := by
  have hfilter : ¬ filterMatches actual desired = false := by simp [h.filter]
  simp only [consumerNeedsUpdate, Result.bind_ok_iff, incompatibleIf_ok_iff, if_neg hfilter]
  exact ⟨_, (), h.durableName, (), h.deliverSubject.symm, (), h.deliverGroup.symm, (),
    h.ackPolicy, (), h.deliverPolicy, (), h.headersOnly.symm, rfl⟩

/-- **Consumer steps.** A consumer is left as it is, or a compatible one is replaced. -/
def ConsumerStep (desired actual actual' : ConsumerConfig κ) : Prop :=
  actual' = actual ∨
    (ConsumerCompatible desired actual ∧ actual' = desired ∧ ConsumerConforms desired actual')

namespace ConsumerStep

variable {desired actual actual' actual'' : ConsumerConfig κ}

theorem refl (actual : ConsumerConfig κ) : ConsumerStep desired actual actual := Or.inl rfl

theorem trans (h : ConsumerStep desired actual actual')
    (h' : ConsumerStep desired actual' actual'') : ConsumerStep desired actual actual'' := by
  rcases h with rfl | ⟨hc, rfl, hconforms⟩
  · exact h'
  · rcases h' with rfl | ⟨_, rfl, hconforms'⟩
    · exact Or.inr ⟨hc, rfl, hconforms⟩
    · exact Or.inr ⟨hc, rfl, hconforms'⟩

theorem compatible (h : ConsumerStep desired actual actual')
    (hc : ConsumerCompatible desired actual) : ConsumerCompatible desired actual' := by
  rcases h with rfl | ⟨_, _, hconforms⟩
  · exact hc
  · exact hconforms.compatible

theorem conforms (h : ConsumerStep desired actual actual')
    (hc : ConsumerConforms desired actual) : ConsumerConforms desired actual' := by
  rcases h with rfl | ⟨_, _, hconforms⟩
  · exact hc
  · exact hconforms

end ConsumerStep

/-! ## Upkeep -/

/-- How streams are kept up. -/
def streamUpkeep (ρ : Type) : Upkeep (StreamConfig ρ) where
  step := StreamStep
  good := Conforms
  refl _ := StreamStep.refl
  trans := StreamStep.trans
  kept := StreamStep.conforms

/-- How consumers are kept up. -/
def consumerUpkeep (κ : Type) : Upkeep (ConsumerConfig κ) where
  step := ConsumerStep
  good := ConsumerConforms
  refl _ := ConsumerStep.refl
  trans := ConsumerStep.trans
  kept := ConsumerStep.conforms

/-! ## What is wanted conforms -/

theorem StreamConfig.conforms_self {desired : StreamConfig ρ} (hno : desired.noAck = false)
    (hdeny : desired.denyDelete = false) (hsealed : desired.isSealed = false) {broker : Broker ρ}
    (hb : broker.Lawful) : Conforms desired (broker desired) := by
  rw [hb.keeps]
  exact ⟨⟨rfl, rfl, hno, hdeny, hsealed, rfl⟩, rfl, rfl, rfl, rfl, rfl, rfl, hb.window desired⟩

theorem ConsumerConfig.conforms_self {desired : ConsumerConfig κ}
    (hsubject : desired.deliverSubject = none) (hgroup : desired.deliverGroup = none)
    (hheaders : desired.headersOnly = false) (hfilters : desired.filterSubjects = [])
    (hbackoff : desired.backoff = []) : ConsumerConforms desired desired := by
  refine ⟨⟨rfl, hsubject, hgroup, rfl, rfl, hheaders, ?_⟩, rfl, rfl, rfl, rfl, rfl, rfl, rfl,
    hbackoff⟩
  unfold filterMatches
  split
  · next hempty => simp [hempty.1, hempty.2]
  · simp [hfilters]

end RunAnywhere.Topology
