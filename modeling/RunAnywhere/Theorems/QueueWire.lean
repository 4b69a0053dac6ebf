import RunAnywhere.Contracts.Wire
import RunAnywhere.Scheduler.Delivery

/-!
# The wire format of queued jobs

A queue payload has two forms, and a decoder that tries one after the other. The two forms share
four keys and differ in the fifth, and both refuse other keys, so that no object is of both:

* **forms** — `CurrentForm`, `LegacyForm`: the keys of the members and what each is read as;
* **readers** — each reader accepts its form and nothing else (`CurrentForm.fromJson_iff`,
  `LegacyForm.fromJson_iff`);
* **decoding** — `queue_wire_exact`.
-/

namespace RunAnywhere

open Logic

/-! ## Forms -/

/-- The members are the five current fields of `queued`. -/
structure CurrentForm (members : List (String × Json.Value)) (queued : JobQueued) : Prop where
  keys : Json.HasKeys members
    ["job_id", "project_id", "runtime_profile_id", "min_isolation", "timeout_seconds"]
  jobId : Json.Reads members "job_id" (Ident.fromJson _) queued.jobId
  projectId : Json.Reads members "project_id" (Ident.fromJson _) queued.projectId
  runtimeProfileId : Json.Reads members "runtime_profile_id" (Ident.fromJson _) queued.runtimeProfileId
  minIsolation : Json.Reads members "min_isolation" IsolationTier.fromJson queued.minIsolation
  timeoutSeconds : Json.Reads members "timeout_seconds" DurationSeconds.fromJson queued.timeoutSeconds

/-- The members are the five legacy fields of `queued`, with this profile. -/
structure LegacyForm (members : List (String × Json.Value)) (profile : RuntimeProfile)
    (queued : JobQueued) : Prop where
  keys : Json.HasKeys members
    ["job_id", "project_id", "runtime_profile", "min_isolation", "timeout_seconds"]
  jobId : Json.Reads members "job_id" (Ident.fromJson _) queued.jobId
  projectId : Json.Reads members "project_id" (Ident.fromJson _) queued.projectId
  runtimeProfile : Json.Reads members "runtime_profile" RuntimeProfile.fromJson profile
  runtimeProfileId : queued.runtimeProfileId = profile.id
  minIsolation : Json.Reads members "min_isolation" IsolationTier.fromJson queued.minIsolation
  timeoutSeconds : Json.Reads members "timeout_seconds" DurationSeconds.fromJson queued.timeoutSeconds

/-! ## Readers -/

theorem CurrentForm.fromJson_iff {members : List (String × Json.Value)} {queued : JobQueued}
    (hkeys : (members.map Prod.fst).Nodup) :
    CurrentJobQueuedWire.fromJson (.object members) = some queued ↔
      CurrentForm members queued := by
  simp only [CurrentJobQueuedWire.fromJson, Option.bind_eq_bind, Option.bind_eq_some_iff,
    Json.Value.fields_strict_iff hkeys, CurrentJobQueuedWire.fieldNames,
    Json.mapM_member_five]
  constructor
  · rintro ⟨_, ⟨hnames, v, w, x, y, z, hv, hw, hx, hy, hz, rfl⟩, hread⟩
    simp only [Option.bind_eq_some_iff, Option.pure_def, Option.some.injEq] at hread
    obtain ⟨j, hj, p, hp, r, hr, i, hi, t, ht, rfl⟩ := hread
    exact ⟨hnames, ⟨v, hv, hj⟩, ⟨w, hw, hp⟩, ⟨x, hx, hr⟩, ⟨y, hy, hi⟩, ⟨z, hz, ht⟩⟩
  · rintro ⟨hnames, ⟨v, hv, hj⟩, ⟨w, hw, hp⟩, ⟨x, hx, hr⟩, ⟨y, hy, hi⟩, ⟨z, hz, ht⟩⟩
    refine ⟨_, ⟨hnames, v, w, x, y, z, hv, hw, hx, hy, hz, rfl⟩, ?_⟩
    simp only [hj, hp, hr, hi, ht, Option.bind_some, Option.pure_def]

theorem LegacyForm.fromJson_iff {members : List (String × Json.Value)} {queued : JobQueued}
    (hkeys : (members.map Prod.fst).Nodup) :
    LegacyJobQueuedWire.fromJson (.object members) = some queued ↔
      ∃ profile, LegacyForm members profile queued := by
  simp only [LegacyJobQueuedWire.fromJson, Option.bind_eq_bind, Option.bind_eq_some_iff,
    Json.Value.fields_strict_iff hkeys, LegacyJobQueuedWire.fieldNames,
    Json.mapM_member_five]
  constructor
  · rintro ⟨_, ⟨hnames, v, w, x, y, z, hv, hw, hx, hy, hz, rfl⟩, hread⟩
    simp only [Option.bind_eq_some_iff, Option.pure_def, Option.some.injEq] at hread
    obtain ⟨j, hj, p, hp, profile, hr, i, hi, t, ht, rfl⟩ := hread
    exact ⟨profile, hnames, ⟨v, hv, hj⟩, ⟨w, hw, hp⟩, ⟨x, hx, hr⟩, rfl, ⟨y, hy, hi⟩, ⟨z, hz, ht⟩⟩
  · rintro ⟨profile, hnames, ⟨v, hv, hj⟩, ⟨w, hw, hp⟩, ⟨x, hx, hr⟩, hid, ⟨y, hy, hi⟩, ⟨z, hz, ht⟩⟩
    refine ⟨_, ⟨hnames, v, w, x, y, z, hv, hw, hx, hy, hz, rfl⟩, ?_⟩
    simp only [hj, hp, hr, hi, ht, ← hid, Option.bind_some, Option.pure_def]

/-- No object is of both forms. -/
theorem CurrentForm.not_legacy {members : List (String × Json.Value)} {profile : RuntimeProfile}
    {queued other : JobQueued} (h : CurrentForm members queued) :
    ¬ LegacyForm members profile other := by
  intro hl
  have hmem := (h.keys "runtime_profile_id").mpr (by decide)
  exact absurd ((hl.keys _).mp hmem) (by decide)

/-- The untagged union takes either form. -/
theorem JobQueued.fromJson_iff {members : List (String × Json.Value)} {queued : JobQueued}
    (hkeys : (members.map Prod.fst).Nodup) :
    JobQueued.fromJson (.object members) = some queued ↔
      CurrentForm members queued ∨ ∃ profile, LegacyForm members profile queued := by
  unfold JobQueued.fromJson
  rw [Option.or_eq_some_iff, CurrentForm.fromJson_iff hkeys, LegacyForm.fromJson_iff hkeys]
  constructor
  · rintro (hc | ⟨_, hl⟩)
    · exact Or.inl hc
    · exact Or.inr hl
  · rintro (hc | ⟨profile, hl⟩)
    · exact Or.inl hc
    · refine Or.inr ⟨?_, profile, hl⟩
      -- the current reader would have found the current form
      by_contra hne
      obtain ⟨other, hsome⟩ := Option.ne_none_iff_exists'.mp hne
      exact ((CurrentForm.fromJson_iff hkeys).mp hsome).not_legacy hl

/-- What is written is in the current form. -/
theorem JobQueued.fromJson_toJson (queued : JobQueued) :
    JobQueued.fromJson queued.toJson = some queued := by
  have hkeys : (["job_id", "project_id", "runtime_profile_id", "min_isolation",
      "timeout_seconds"] : List String).Nodup := by decide
  refine (JobQueued.fromJson_iff (by exact hkeys)).mpr (Or.inl ⟨fun _ => Iff.rfl, ?_, ?_, ?_, ?_, ?_⟩)
  · exact ⟨_, rfl, Ident.fromJson_toJson _⟩
  · exact ⟨_, rfl, Ident.fromJson_toJson _⟩
  · exact ⟨_, rfl, Ident.fromJson_toJson _⟩
  · exact ⟨_, rfl, IsolationTier.fromJson_wire _⟩
  · exact ⟨_, rfl, DurationSeconds.fromJson_toJson _⟩

/-! ## Decoding -/

theorem decodeQueueBytes_ok_iff {json : Json.Codec} {bytes : List UInt8} {value : Json.Value}
    (hsize : bytes.length ≤ maxQueuePayloadBytes) (hparse : json.parse bytes = some value)
    (queued : JobQueued) :
    decodeQueueBytes json bytes = .ok queued ↔ JobQueued.fromJson value = some queued := by
  unfold decodeQueueBytes
  rw [if_neg (by omega), hparse, Option.bind_some]
  cases JobQueued.fromJson value with
  | none => simp
  | some found => simp

theorem decodeQueueBytes_malformed_iff {json : Json.Codec} {bytes : List UInt8} {value : Json.Value}
    (hsize : bytes.length ≤ maxQueuePayloadBytes) (hparse : json.parse bytes = some value) :
    decodeQueueBytes json bytes = .error .malformed ↔ JobQueued.fromJson value = none := by
  unfold decodeQueueBytes
  rw [if_neg (by omega), hparse, Option.bind_some]
  cases JobQueued.fromJson value with
  | none => simp
  | some found => simp

/-- A payload of a job is not inconsistent with the snapshot of that job. -/
theorem classifyCanonicalDelivery_consistent (snapshot : JobSchedulingSnapshot) (now : Time)
    (reason : JobDeadLetterReason) :
    classifyCanonicalDelivery snapshot.queued snapshot now ≠ .deadLetter reason := by
  unfold classifyCanonicalDelivery
  split
  · simp
  split
  · simp
  rw [if_neg (by simp)]
  split
  · split <;> simp
  · split <;> simp

/-- **Queue payloads.** What is written is read back. Of the objects within the limit those of the
two forms are read, a legacy one as the payload that keeps the profile's identifier, which is
dispatched and written as the current one is. A longer text is too large. -/
theorem queue_wire_exact (json : Json.Codec) :
    (∀ queued : JobQueued, json.parse (json.print queued.toJson) = some queued.toJson →
      (json.print queued.toJson).length ≤ maxQueuePayloadBytes →
      decodeQueueBytes json (json.print queued.toJson) = .ok queued) ∧
    (∀ bytes members, bytes.length ≤ maxQueuePayloadBytes →
      json.parse bytes = some (.object members) → (members.map Prod.fst).Nodup →
      (∀ queued, decodeQueueBytes json bytes = .ok queued ↔
        CurrentForm members queued ∨ ∃ profile, LegacyForm members profile queued) ∧
      (decodeQueueBytes json bytes = .error .malformed ↔
        ¬ ∃ queued, CurrentForm members queued ∨ ∃ profile, LegacyForm members profile queued)) ∧
    (∀ members profile queued, LegacyForm members profile queued →
      queued.toJson = .object [("job_id", queued.jobId.toJson),
        ("project_id", queued.projectId.toJson), ("runtime_profile_id", profile.id.toJson),
        ("min_isolation", .string queued.minIsolation.wire),
        ("timeout_seconds", queued.timeoutSeconds.toJson)] ∧
      ∀ snapshot now reason, snapshot.queued = queued →
        classifyCanonicalDelivery queued snapshot now ≠ .deadLetter reason) ∧
    ∀ bytes, maxQueuePayloadBytes < bytes.length →
      decodeQueueBytes json bytes = .error .tooLarge := by
  refine ⟨fun queued hjson hsize => ?_, fun bytes members hsize hparse hkeys => ⟨fun queued => ?_, ?_⟩,
    fun members profile queued hl => ⟨?_, ?_⟩, fun bytes hlong => if_pos hlong⟩
  · exact (decodeQueueBytes_ok_iff hsize hjson queued).mpr queued.fromJson_toJson
  · rw [decodeQueueBytes_ok_iff hsize hparse, JobQueued.fromJson_iff hkeys]
  · rw [decodeQueueBytes_malformed_iff hsize hparse, Option.eq_none_iff_forall_not_mem,
      not_exists]
    exact forall_congr' fun queued => not_congr (JobQueued.fromJson_iff hkeys)
  · rw [← hl.runtimeProfileId]
    rfl
  · rintro snapshot now reason rfl
    exact classifyCanonicalDelivery_consistent snapshot now reason

namespace Sample

def firstQueued : JobQueued :=
  ⟨job, project, profile, .vmIsolated, ⟨900, by decide, by decide⟩⟩

/-- The text of the payload. -/
def queuedText : List UInt8 :=
  ("\x7b\"job_id\":\"job_a\",\"project_id\":\"proj_a\",\"runtime_profile_id\":\"rtp_a\"," ++
    "\"min_isolation\":\"vm_isolated\",\"timeout_seconds\":900\x7d").toUTF8.data.toList

/-- The profile with its identifier. -/
def fullProfile : RuntimeProfile :=
  ⟨profile, 34, "pixel", .x86_64, .x86_64, .redroid, "image", .vmIsolated⟩

/-- The members of the payload as it was written with the whole profile. -/
def legacyMembers : List (String × Json.Value) :=
  [("job_id", job.toJson), ("project_id", project.toJson),
    ("runtime_profile", fullProfile.toJson), ("min_isolation", .string "vm_isolated"),
    ("timeout_seconds", .int 900)]

/-- Their text. -/
def legacyText : List UInt8 :=
  ("\x7b\"job_id\":\"job_a\",\"project_id\":\"proj_a\",\"runtime_profile\":" ++
    "\x7b\"id\":\"rtp_a\",\"android_api\":34,\"device_profile\":\"pixel\",\"abi\":\"x86_64\"," ++
    "\"host_arch\":\"x86_64\",\"runtime_kind\":\"redroid\",\"image_ref\":\"image\"," ++
    "\"isolation_tier\":\"vm_isolated\"\x7d,\"min_isolation\":\"vm_isolated\"," ++
    "\"timeout_seconds\":900\x7d").toUTF8.data.toList

/-- A codec for the two texts. -/
def queueJson : Json.Codec where
  print _ := queuedText
  parse bytes := if bytes = queuedText then some firstQueued.toJson
    else if bytes = legacyText then some (.object legacyMembers) else none

end Sample

/-- Both texts are decoded, to the same payload. -/
theorem queued_text_decoded :
    decodeQueueBytes Sample.queueJson (Sample.queueJson.print Sample.firstQueued.toJson) =
      .ok Sample.firstQueued ∧
    decodeQueueBytes Sample.queueJson Sample.legacyText = .ok Sample.firstQueued := by
  obtain ⟨hcurrent, hforms, _⟩ := queue_wire_exact Sample.queueJson
  constructor
  · refine hcurrent Sample.firstQueued ?_ (by decide +kernel)
    simp only [Sample.queueJson, if_true]
  · have hkeys : (Sample.legacyMembers.map Prod.fst).Nodup := by decide +kernel
    have hother : Sample.legacyText ≠ Sample.queuedText := by decide +kernel
    have hparse : Sample.queueJson.parse Sample.legacyText =
        some (.object Sample.legacyMembers) := by
      simp only [Sample.queueJson, hother, if_true, if_false]
    have hread : LegacyJobQueuedWire.fromJson (.object Sample.legacyMembers) =
        some Sample.firstQueued := by decide +kernel
    exact ((hforms _ _ (by decide +kernel) hparse hkeys).1 _).mpr
      (Or.inr ((LegacyForm.fromJson_iff hkeys).mp hread))

end RunAnywhere
