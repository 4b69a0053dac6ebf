import Mathlib.Logic.Basic

/-!
# Dates and durations of bounded range

Instants and durations as `chrono` has them: whole nanoseconds, each in a fixed range. The range of
a duration is much larger than the range of an instant, so a duration that can be built may lead out
of every calendar:

* **durations** — `TimeDelta` holds up to `i64::MAX` milliseconds (`TimeDelta.fromStd`,
  `TimeDelta.trySeconds`);
* **instants** — `DateTime` spans the years -262143 to 262142; `checkedAdd` and `checkedSub` are
  `none` outside, where the operators `+` and `-` panic.
-/

namespace Logic

namespace Chrono

/-- Nanoseconds in a second. -/
def second : Int := 1000000000

/-! ## Durations -/

/-- `i64::MAX` milliseconds. -/
def maxDelta : Int := 9223372036854775807 * 1000000

/-- The largest number of whole seconds in a duration. -/
def maxDeltaSeconds : Nat := 9223372036854775

/-- `TimeDelta`, in nanoseconds. -/
structure TimeDelta where
  nanos : Int
  bounded : -maxDelta ≤ nanos ∧ nanos ≤ maxDelta
  deriving DecidableEq

def TimeDelta.ofNanos (n : Int) : Option TimeDelta :=
  if h : -maxDelta ≤ n ∧ n ≤ maxDelta then some ⟨n, h⟩ else none

/-- `TimeDelta::from_std`. -/
def TimeDelta.fromStd (nanos : Nat) : Option TimeDelta := TimeDelta.ofNanos nanos

/-- `TimeDelta::try_seconds`; `TimeDelta::seconds` panics where it is `none`. -/
def TimeDelta.trySeconds (seconds : Int) : Option TimeDelta := TimeDelta.ofNanos (seconds * second)

theorem TimeDelta.ofNanos_eq_some_iff {n : Int} {d : TimeDelta} :
    TimeDelta.ofNanos n = some d ↔ d.nanos = n := by
  unfold ofNanos
  obtain ⟨nanos, hbounded⟩ := d
  constructor
  · intro h
    split at h
    · cases h
      rfl
    · cases h
  · intro h
    subst h
    exact dif_pos hbounded

theorem TimeDelta.isSome_ofNanos_iff {n : Int} :
    (TimeDelta.ofNanos n).isSome = true ↔ -maxDelta ≤ n ∧ n ≤ maxDelta := by
  unfold ofNanos
  by_cases h : -maxDelta ≤ n ∧ n ≤ maxDelta
  · rw [dif_pos h]
    exact iff_of_true rfl h
  · rw [dif_neg h]
    exact iff_of_false Bool.false_ne_true h

/-- **Whole seconds.** A duration of whole seconds is one up to `maxDeltaSeconds`. -/
theorem TimeDelta.isSome_fromStd_seconds_iff (s : Nat) :
    (TimeDelta.fromStd (s * 1000000000)).isSome = true ↔ s ≤ maxDeltaSeconds := by
  unfold fromStd
  rw [isSome_ofNanos_iff]
  unfold maxDelta maxDeltaSeconds
  constructor
  · rintro ⟨_, h⟩
    omega
  · intro h
    constructor
    · omega
    · omega

theorem TimeDelta.isSome_trySeconds_iff (s : Nat) :
    (TimeDelta.trySeconds s).isSome = true ↔ s ≤ maxDeltaSeconds := by
  rw [← TimeDelta.isSome_fromStd_seconds_iff]
  unfold trySeconds fromStd second
  rw [Int.natCast_mul]
  exact Iff.rfl

/-! ## Instants -/

/-- `DateTime::<Utc>::MIN_UTC`: the first second of the year -262143. -/
def minUtc : Int := -8334601228800 * 1000000000

/-- `DateTime::<Utc>::MAX_UTC`: the last nanosecond of the year 262142. -/
def maxUtc : Int := 8210266876800 * 1000000000 - 1

/-- `DateTime<Utc>`, in nanoseconds since the epoch. -/
structure DateTime where
  nanos : Int
  bounded : minUtc ≤ nanos ∧ nanos ≤ maxUtc
  deriving DecidableEq

def DateTime.ofNanos (n : Int) : Option DateTime :=
  if h : minUtc ≤ n ∧ n ≤ maxUtc then some ⟨n, h⟩ else none

/-- `checked_add_signed`. -/
def DateTime.checkedAdd (t : DateTime) (d : TimeDelta) : Option DateTime :=
  DateTime.ofNanos (t.nanos + d.nanos)

/-- `checked_sub_signed`. -/
def DateTime.checkedSub (t : DateTime) (d : TimeDelta) : Option DateTime :=
  DateTime.ofNanos (t.nanos - d.nanos)

theorem DateTime.ofNanos_eq_some_iff {n : Int} {t : DateTime} :
    DateTime.ofNanos n = some t ↔ t.nanos = n := by
  unfold ofNanos
  obtain ⟨nanos, hbounded⟩ := t
  constructor
  · intro h
    split at h
    · cases h
      rfl
    · cases h
  · intro h
    subst h
    exact dif_pos hbounded

theorem DateTime.isSome_ofNanos_iff {n : Int} :
    (DateTime.ofNanos n).isSome = true ↔ minUtc ≤ n ∧ n ≤ maxUtc := by
  unfold ofNanos
  by_cases h : minUtc ≤ n ∧ n ≤ maxUtc
  · rw [dif_pos h]
    exact iff_of_true rfl h
  · rw [dif_neg h]
    exact iff_of_false Bool.false_ne_true h

end Chrono

end Logic
