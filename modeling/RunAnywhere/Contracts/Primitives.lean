import Mathlib.Algebra.Group.Nat.Defs

/-!
# Wire primitives

The validated identifiers and durations of `contracts/src/primitives.rs`. An
identifier carries the proof that `validateIdentifier` accepted it, so the
CHECK constraints on identifier columns hold of every value that can be built.
Text predicates follow the Rust standard library (`char::is_whitespace`) and
PostgreSQL (`btrim`).
-/

namespace RunAnywhere

/-- Error returned when a validated wire primitive is malformed. -/
structure PrimitiveValidationError where
  message : String
  deriving DecidableEq

/-- Bytes an identifier suffix may hold: ASCII letters, digits, `_` and `-`. -/
def isIdentifierChar (c : Char) : Bool := c.isAlphanum || c == '_' || c == '-'

/-- What is left of `value` after `pre`, when it starts with it. -/
def stripPre : List Char → List Char → Option (List Char)
  | [], value => some value
  | _ :: _, [] => none
  | p :: ps, c :: cs => if p = c then stripPre ps cs else none

/-- `validate_identifier`. -/
def validateIdentifier (value pre : String) : Except PrimitiveValidationError Unit :=
  match stripPre pre.toList value.toList with
  | none => .error ⟨"identifier has an unexpected prefix"⟩
  | some suffix =>
      if suffix.isEmpty || !suffix.all isIdentifierChar then
        .error ⟨"identifier suffix must contain only ASCII letters, digits, underscores, or hyphens"⟩
      else .ok ()

/-- An identifier with prefix `pre`: the `identifier!` macro. -/
structure Ident (pre : String) where
  val : String
  valid : (validateIdentifier val pre).toBool = true
  deriving DecidableEq

/-- The macro's constructor `new`. -/
def Ident.new (pre value : String) : Except PrimitiveValidationError (Ident pre) :=
  match h : validateIdentifier value pre with
  | .ok _ => .ok ⟨value, by rw [h]; rfl⟩
  | .error e => .error e

abbrev ProjectId := Ident "proj_"
abbrev UploadId := Ident "upl_"
abbrev RuntimeProfileId := Ident "rtp_"
abbrev JobId := Ident "job_"
abbrev JobEventId := Ident "evt_"
abbrev ArtifactId := Ident "art_"
abbrev WorkerId := Ident "wrk_"
abbrev WebhookId := Ident "wh_"
abbrev LeaseId := Ident "lease_"

@[ext] theorem Ident.ext {pre : String} {a b : Ident pre} (h : a.val = b.val) : a = b := by
  cases a; cases b; cases h; rfl

/-- `new` accepts exactly the texts of identifiers. -/
theorem Ident.new_val {pre : String} (i : Ident pre) : Ident.new pre i.val = .ok i := by
  unfold Ident.new
  split
  · rfl
  · next e h =>
      have hv := i.valid
      rw [h] at hv
      cases hv

/-- An identifier that is accepted is the text it was made from. -/
theorem Ident.val_of_new {pre value : String} {i : Ident pre} (h : Ident.new pre value = .ok i) :
    i.val = value := by
  unfold Ident.new at h
  split at h
  · cases h
    rfl
  · cases h

theorem stripPre_some {pre value suffix : List Char} (h : stripPre pre value = some suffix) :
    value = pre ++ suffix := by
  induction pre generalizing value with
  | nil => simpa [stripPre] using h
  | cons p ps ih =>
      cases value with
      | nil => cases h
      | cons c cs =>
          simp only [stripPre] at h
          split at h
          · next hpc => rw [ih h, hpc]; rfl
          · cases h

theorem stripPre_append (pre value : List Char) : stripPre pre (pre ++ value) = some value := by
  induction pre with
  | nil => rfl
  | cons p ps ih => simp [stripPre, ih]

/-- An identifier is its prefix and a suffix of identifier characters. -/
theorem Ident.toList_eq {pre : String} (i : Ident pre) :
    ∃ suffix, i.val.toList = pre.toList ++ suffix ∧ ∀ c ∈ suffix, isIdentifierChar c = true := by
  have hv := i.valid
  unfold validateIdentifier at hv
  split at hv
  · cases hv
  · next suffix hs =>
      split at hv
      · cases hv
      · next hall =>
          simp only [Bool.or_eq_true, Bool.not_eq_true', not_or, Bool.not_eq_false] at hall
          exact ⟨suffix, stripPre_some hs, fun c hc => List.all_eq_true.mp hall.2 c hc⟩

/-- A lowercase hexadecimal digit. -/
def isLowerHex (c : Char) : Bool := c.isDigit || ('a' ≤ c && c ≤ 'f')

theorem isLowerHex_cases {c : Char} (h : isLowerHex c = true) :
    (c.isDigit = true ∧ 48 ≤ c.toNat ∧ c.toNat ≤ 57) ∨
      (c.isDigit = false ∧ ('a' ≤ c && c ≤ 'f') = true ∧ 97 ≤ c.toNat ∧ c.toNat ≤ 102) := by
  cases hdigit : c.isDigit with
  | true => exact Or.inl ⟨rfl, Char.isDigit_iff_toNat.mp hdigit⟩
  | false =>
      have hletter : ('a' ≤ c && c ≤ 'f') = true := by
        rcases Bool.or_eq_true_iff.mp h with hd | hl
        · rw [hdigit] at hd
          cases hd
        · exact hl
      obtain ⟨hlow, hhigh⟩ := Bool.and_eq_true_iff.mp hletter
      exact Or.inr ⟨rfl, hletter,
        UInt32.le_iff_toNat_le.mp (Char.le_def.mp (of_decide_eq_true hlow)),
        UInt32.le_iff_toNat_le.mp (Char.le_def.mp (of_decide_eq_true hhigh))⟩

/-- A canonical, lowercase hexadecimal SHA-256 digest. -/
structure Sha256 where
  val : String
  valid : (decide (val.utf8ByteSize = 64) &&
    val.toList.all fun c => c.isDigit || (decide ('a' ≤ c) && decide (c ≤ 'f'))) = true
  deriving DecidableEq

/-- A duration represented as a positive number of whole seconds, a `u64`. -/
structure DurationSeconds where
  seconds : Nat
  positive : 0 < seconds
  fits : seconds < 2 ^ 64
  deriving DecidableEq

/-- `DurationSeconds::new`. -/
def DurationSeconds.new (value : UInt64) : Except PrimitiveValidationError DurationSeconds :=
  if h : 0 < value.toNat then .ok ⟨value.toNat, h, value.toNat_lt⟩
  else .error ⟨"duration must be at least one second"⟩

/-! ## Text -/

/-- `char::is_whitespace`: the code points with the Unicode property White_Space. -/
def isWhiteSpace (c : Char) : Bool :=
  let n := c.toNat
  (9 ≤ n && n ≤ 13) || n == 0x20 || n == 0x85 || n == 0xA0 || n == 0x1680 ||
    (0x2000 ≤ n && n ≤ 0x200A) || n == 0x2028 || n == 0x2029 || n == 0x202F || n == 0x205F ||
    n == 0x3000

/-- `s.trim().is_empty()`. -/
def isBlank (s : String) : Bool := s.toList.all isWhiteSpace

/-- `btrim(s) = ''`: PostgreSQL trims spaces only. -/
def btrimEmpty (s : String) : Bool := s.toList.all (· == ' ')

/-- `u8::is_ascii_control`. -/
def isAsciiControl (c : Char) : Bool := c.toNat < 0x20 || c.toNat == 0x7F

theorem isIdentifierChar_range {c : Char} (h : isIdentifierChar c = true) :
    45 ≤ c.toNat ∧ c.toNat ≤ 122 := by
  unfold isIdentifierChar Char.isAlphanum Char.isAlpha Char.isUpper Char.isLower Char.isDigit at h
  simp only [Bool.or_eq_true, beq_iff_eq, decide_eq_true_eq, Bool.and_eq_true, ge_iff_le,
    UInt32.le_iff_toNat_le] at h
  show 45 ≤ c.val.toNat ∧ c.val.toNat ≤ 122
  rcases h with (((⟨hlow, hhigh⟩ | ⟨hlow, hhigh⟩) | ⟨hlow, hhigh⟩) | rfl) | rfl
  · exact ⟨Nat.le_trans (by decide) hlow, Nat.le_trans hhigh (by decide)⟩
  · exact ⟨Nat.le_trans (by decide) hlow, Nat.le_trans hhigh (by decide)⟩
  · exact ⟨Nat.le_trans (by decide) hlow, Nat.le_trans hhigh (by decide)⟩
  · decide
  · decide

/-- A character that may not stand in an identifier is another one. -/
theorem isIdentifierChar_ne {c d : Char} (h : isIdentifierChar c = true)
    (hd : isIdentifierChar d = false) : c ≠ d := by
  rintro rfl
  rw [hd] at h
  cases h

/-- No control character may stand in an identifier. -/
theorem isAsciiControl_of_identifier {c : Char} (h : isIdentifierChar c = true) :
    ¬ isAsciiControl c = true := by
  have hrange := isIdentifierChar_range h
  unfold isAsciiControl
  simp only [Bool.or_eq_true, beq_iff_eq, decide_eq_true_eq, not_or]
  omega

/-- `u8::is_ascii_whitespace`. -/
def isAsciiWhitespace (c : Char) : Bool :=
  c == ' ' || c == '\t' || c == '\n' || c == '\r' || c == Char.ofNat 12

/-- The class `[[:cntrl:]]` of PostgreSQL's regular expressions. -/
def isControl (c : Char) : Bool := c.toNat < 0x20 || (0x7F ≤ c.toNat && c.toNat ≤ 0x9F)

/-- A reference to a test script: non-empty, without control characters. -/
structure ScriptRef where
  val : String
  valid : (!val.toList.isEmpty && !val.toList.any isAsciiControl) = true
  deriving DecidableEq

/-- `valid_uri`. -/
def validUri (value : String) : Bool :=
  let scheme := value.toList.takeWhile (· != ':')
  value.toList.contains ':' && !scheme.isEmpty &&
    (scheme.all fun c => c.isAlphanum || c == '+' || c == '-' || c == '.') &&
    !value.toList.any fun c => isAsciiWhitespace c || isAsciiControl c

/-- An absolute URI without whitespace. -/
structure Uri where
  val : String
  valid : validUri val = true
  deriving DecidableEq

/-- `Uri::new`. -/
def Uri.new (value : String) : Except PrimitiveValidationError Uri :=
  if h : validUri value = true then .ok ⟨value, h⟩
  else .error ⟨"URI must have a scheme and contain no whitespace or control characters"⟩

end RunAnywhere
