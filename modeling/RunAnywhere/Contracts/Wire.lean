import RunAnywhere.Contracts.Worker
import RunAnywhere.Logic.JsonValue

/-!
# JSON forms

What `serde` derives for the contract types: the names of variants and fields, the readers of
identifiers, durations and runtime profiles, and the two forms of a queue payload
(`contracts/src/worker.rs`).

* **enumerations** — one string each, in snake case;
* **records** — objects; only the queue payload refuses unknown fields;
* **queue payloads** — written in the current form, read in it or in the legacy form, which
  carries a whole profile.
-/

namespace RunAnywhere

open Logic

/-! ## Scalars -/

def Ident.toJson {pre : String} (i : Ident pre) : Json.Value := .string i.val

def Ident.fromJson (pre : String) (value : Json.Value) : Option (Ident pre) := do
  let s ← value.text?
  (Ident.new pre s).toOption

def DurationSeconds.toJson (d : DurationSeconds) : Json.Value := .int d.seconds

/-- A `u64` that `DurationSeconds::new` accepts. -/
def DurationSeconds.fromJson (value : Json.Value) : Option DurationSeconds := do
  let n ← value.nat? (2 ^ 64 - 1)
  (DurationSeconds.new (.ofNat n)).toOption

@[simp] theorem Ident.fromJson_toJson {pre : String} (i : Ident pre) :
    Ident.fromJson pre i.toJson = some i := by
  show (Ident.new pre i.val).toOption = some i
  rw [Ident.new_val]
  rfl

@[simp] theorem DurationSeconds.fromJson_toJson (d : DurationSeconds) :
    DurationSeconds.fromJson d.toJson = some d := by
  have hfits : d.seconds ≤ 2 ^ 64 - 1 := by
    have := d.fits
    omega
  have hnat : (UInt64.ofNat d.seconds).toNat = d.seconds := UInt64.toNat_ofNat_of_lt' d.fits
  unfold DurationSeconds.fromJson DurationSeconds.toJson
  rw [Json.Value.nat?_int hfits]
  show (DurationSeconds.new (.ofNat d.seconds)).toOption = some d
  unfold DurationSeconds.new
  rw [dif_pos (hnat.symm ▸ d.positive)]
  cases d
  simp only [hnat, Except.toOption]

/-! ## Enumerations -/

def IsolationTier.wire : IsolationTier → String
  | .vmIsolated => "vm_isolated"
  | .sharedKernelPrivileged => "shared_kernel_privileged"

def RuntimeKind.wire : RuntimeKind → String
  | .androidEmulatorContainer => "android_emulator_container"
  | .redroid => "redroid"
  | .cuttlefish => "cuttlefish"
  | .browserNativeWasm => "browser_native_wasm"

def HostArch.wire : HostArch → String
  | .x86_64 => "x86_64"
  | .aarch64 => "aarch64"

def AndroidAbi.wire : AndroidAbi → String
  | .x86 => "x86"
  | .x86_64 => "x86_64"
  | .armeabiV7a => "armeabi_v7a"
  | .arm64V8a => "arm64_v8a"

def IsolationTier.fromJson : Json.Value → Option IsolationTier :=
  Json.Value.variant? [.vmIsolated, .sharedKernelPrivileged] IsolationTier.wire

def RuntimeKind.fromJson : Json.Value → Option RuntimeKind :=
  Json.Value.variant? [.androidEmulatorContainer, .redroid, .cuttlefish, .browserNativeWasm]
    RuntimeKind.wire

def HostArch.fromJson : Json.Value → Option HostArch :=
  Json.Value.variant? [.x86_64, .aarch64] HostArch.wire

def AndroidAbi.fromJson : Json.Value → Option AndroidAbi :=
  Json.Value.variant? [.x86, .x86_64, .armeabiV7a, .arm64V8a] AndroidAbi.wire

@[simp] theorem IsolationTier.fromJson_wire (tier : IsolationTier) :
    IsolationTier.fromJson (.string tier.wire) = some tier := by cases tier <;> decide

@[simp] theorem RuntimeKind.fromJson_wire (kind : RuntimeKind) :
    RuntimeKind.fromJson (.string kind.wire) = some kind := by cases kind <;> decide

@[simp] theorem HostArch.fromJson_wire (arch : HostArch) :
    HostArch.fromJson (.string arch.wire) = some arch := by cases arch <;> decide

@[simp] theorem AndroidAbi.fromJson_wire (abi : AndroidAbi) :
    AndroidAbi.fromJson (.string abi.wire) = some abi := by cases abi <;> decide

/-! ## Runtime profiles -/

def RuntimeProfile.fieldNames : List String :=
  ["id", "android_api", "device_profile", "abi", "host_arch", "runtime_kind", "image_ref",
    "isolation_tier"]

def RuntimeProfile.toJson (profile : RuntimeProfile) : Json.Value :=
  .object [("id", profile.id.toJson), ("android_api", .int profile.androidApi),
    ("device_profile", .string profile.deviceProfile), ("abi", .string profile.abi.wire),
    ("host_arch", .string profile.hostArch.wire),
    ("runtime_kind", .string profile.runtimeKind.wire), ("image_ref", .string profile.imageRef),
    ("isolation_tier", .string profile.isolationTier.wire)]

/-- Unknown fields are ignored; the Android API level is a `u16`. -/
def RuntimeProfile.fromJson (value : Json.Value) : Option RuntimeProfile := do
  match ← value.fields false RuntimeProfile.fieldNames with
  | [id, androidApi, deviceProfile, abi, hostArch, runtimeKind, imageRef, isolationTier] =>
      return {
        id := ← Ident.fromJson _ id
        androidApi := ← androidApi.nat? (2 ^ 16 - 1)
        deviceProfile := ← deviceProfile.text?
        abi := ← AndroidAbi.fromJson abi
        hostArch := ← HostArch.fromJson hostArch
        runtimeKind := ← RuntimeKind.fromJson runtimeKind
        imageRef := ← imageRef.text?
        isolationTier := ← IsolationTier.fromJson isolationTier }
  | _ => none

/-- A profile whose API level is a `u16` is read back. -/
theorem RuntimeProfile.fromJson_toJson {profile : RuntimeProfile}
    (h : profile.androidApi ≤ 2 ^ 16 - 1) :
    RuntimeProfile.fromJson profile.toJson = some profile := by
  have hfields : profile.toJson.fields false RuntimeProfile.fieldNames = some
      [profile.id.toJson, .int profile.androidApi, .string profile.deviceProfile,
        .string profile.abi.wire, .string profile.hostArch.wire,
        .string profile.runtimeKind.wire, .string profile.imageRef,
        .string profile.isolationTier.wire] := rfl
  unfold RuntimeProfile.fromJson
  rw [hfields]
  simp only [Option.bind_eq_bind, Option.bind_some, Ident.fromJson_toJson, Json.Value.nat?_int h,
    Json.Value.text?, AndroidAbi.fromJson_wire, HostArch.fromJson_wire, RuntimeKind.fromJson_wire,
    IsolationTier.fromJson_wire, Option.pure_def]

/-! ## Automation and artifacts -/

/-- Tagged by `type`. -/
def AutomationSpec.toJson : AutomationSpec → Json.Value
  | .builtInSmoke => .object [("type", .string "built_in_smoke")]
  | .appium scriptRef =>
      .object [("type", .string "appium"), ("script_ref", .string scriptRef.val)]

def ArtifactSelection.toJson (selection : ArtifactSelection) : Json.Value :=
  .object [("screenshots", .bool selection.screenshots), ("video", .bool selection.video),
    ("logcat", .bool selection.logcat), ("junit", .bool selection.junit)]

/-! ## Queue payloads -/

/-- `JobQueued`, serialized. -/
def JobQueued.toJson (queued : JobQueued) : Json.Value :=
  .object [("job_id", queued.jobId.toJson), ("project_id", queued.projectId.toJson),
    ("runtime_profile_id", queued.runtimeProfileId.toJson),
    ("min_isolation", .string queued.minIsolation.wire),
    ("timeout_seconds", queued.timeoutSeconds.toJson)]

def CurrentJobQueuedWire.fieldNames : List String :=
  ["job_id", "project_id", "runtime_profile_id", "min_isolation", "timeout_seconds"]

/-- `CurrentJobQueuedWire`, as the payload it is turned into. -/
def CurrentJobQueuedWire.fromJson (value : Json.Value) : Option JobQueued := do
  match ← value.fields true CurrentJobQueuedWire.fieldNames with
  | [jobId, projectId, runtimeProfileId, minIsolation, timeoutSeconds] =>
      return {
        jobId := ← Ident.fromJson _ jobId
        projectId := ← Ident.fromJson _ projectId
        runtimeProfileId := ← Ident.fromJson _ runtimeProfileId
        minIsolation := ← IsolationTier.fromJson minIsolation
        timeoutSeconds := ← DurationSeconds.fromJson timeoutSeconds }
  | _ => none

def LegacyJobQueuedWire.fieldNames : List String :=
  ["job_id", "project_id", "runtime_profile", "min_isolation", "timeout_seconds"]

/-- `LegacyJobQueuedWire`, as the payload it is turned into: of the profile only the identifier
is kept. -/
def LegacyJobQueuedWire.fromJson (value : Json.Value) : Option JobQueued := do
  match ← value.fields true LegacyJobQueuedWire.fieldNames with
  | [jobId, projectId, runtimeProfile, minIsolation, timeoutSeconds] =>
      return {
        jobId := ← Ident.fromJson _ jobId
        projectId := ← Ident.fromJson _ projectId
        runtimeProfileId := (← RuntimeProfile.fromJson runtimeProfile).id
        minIsolation := ← IsolationTier.fromJson minIsolation
        timeoutSeconds := ← DurationSeconds.fromJson timeoutSeconds }
  | _ => none

/-- `JobQueuedWire` is untagged: the first form that fits. -/
def JobQueued.fromJson (value : Json.Value) : Option JobQueued :=
  (CurrentJobQueuedWire.fromJson value).or (LegacyJobQueuedWire.fromJson value)

end RunAnywhere
