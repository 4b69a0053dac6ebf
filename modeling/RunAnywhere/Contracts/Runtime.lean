import RunAnywhere.Contracts.Primitives

/-!
# Runtime profiles

`contracts/src/runtime.rs`. A profile that `RuntimeProfile::validate` rejects
(a browser-native runtime) never leaves the repository, so the check is kept
with the rows that are read.
-/

namespace RunAnywhere

inductive RuntimeKind
  | androidEmulatorContainer | redroid | cuttlefish | browserNativeWasm
  deriving DecidableEq

inductive IsolationTier
  | vmIsolated | sharedKernelPrivileged
  deriving DecidableEq

/-- The `{:?}` rendering used in validation messages. -/
def IsolationTier.debug : IsolationTier → String
  | .vmIsolated => "VmIsolated"
  | .sharedKernelPrivileged => "SharedKernelPrivileged"

/-- Whether this runtime isolation tier satisfies a job's minimum tier. -/
def IsolationTier.satisfies (tier minimum : IsolationTier) : Bool :=
  match tier, minimum with
  | .vmIsolated, _ => true
  | .sharedKernelPrivileged, .sharedKernelPrivileged => true
  | .sharedKernelPrivileged, .vmIsolated => false

inductive HostArch
  | x86_64 | aarch64
  deriving DecidableEq

inductive AndroidAbi
  | x86 | x86_64 | armeabiV7a | arm64V8a
  deriving DecidableEq

structure RuntimeProfile where
  id : RuntimeProfileId
  androidApi : Nat
  deviceProfile : String
  abi : AndroidAbi
  hostArch : HostArch
  runtimeKind : RuntimeKind
  imageRef : String
  isolationTier : IsolationTier
  deriving DecidableEq

/-- `RuntimeProfile::validate`. -/
def RuntimeProfile.isValid (profile : RuntimeProfile) : Bool :=
  profile.runtimeKind != .browserNativeWasm

end RunAnywhere
