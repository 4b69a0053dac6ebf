import Mathlib.Data.Nat.Notation
import Mathlib.Tactic.IntervalCases

/-!
# Base64

The URL-safe alphabet without padding: three bytes are four letters, and one or two bytes at
the end are two or three letters. What was encoded can be decoded (`decode_encode`). The standard
alphabet with padding is another spelling of the same letters (`encodeStandard_inj`).
-/

namespace Logic

namespace Base64

/-- The letter of a value below 64. -/
def letter (n : Nat) : Char :=
  if n < 26 then Char.ofNat (n + 65)
  else if n < 52 then Char.ofNat (n + 71)
  else if n < 62 then Char.ofNat (n - 4)
  else if n = 62 then '-' else '_'

/-- The value of a letter. -/
def value (c : Char) : Option Nat :=
  if 65 ≤ c.toNat ∧ c.toNat ≤ 90 then some (c.toNat - 65)
  else if 97 ≤ c.toNat ∧ c.toNat ≤ 122 then some (c.toNat - 71)
  else if 48 ≤ c.toNat ∧ c.toNat ≤ 57 then some (c.toNat + 4)
  else if c = '-' then some 62
  else if c = '_' then some 63
  else none

def encode : List UInt8 → List Char
  | [] => []
  | [a] => [letter (a.toNat / 4), letter (a.toNat % 4 * 16)]
  | [a, b] =>
      [letter (a.toNat / 4), letter (a.toNat % 4 * 16 + b.toNat / 16), letter (b.toNat % 16 * 4)]
  | a :: b :: c :: rest =>
      letter (a.toNat / 4) :: letter (a.toNat % 4 * 16 + b.toNat / 16) ::
        letter (b.toNat % 16 * 4 + c.toNat / 64) :: letter (c.toNat % 64) :: encode rest

/-- Left-over bits at the end have to be zero. -/
def decode : List Char → Option (List UInt8)
  | [] => some []
  | [_] => none
  | [w, x] => do
      let w ← value w
      let x ← value x
      if x % 16 = 0 then some [.ofNat (w * 4 + x / 16)] else none
  | [w, x, y] => do
      let w ← value w
      let x ← value x
      let y ← value y
      if y % 4 = 0 then some [.ofNat (w * 4 + x / 16), .ofNat (x % 16 * 16 + y / 4)] else none
  | w :: x :: y :: z :: rest => do
      let w ← value w
      let x ← value x
      let y ← value y
      let z ← value z
      let bytes ← decode rest
      some (.ofNat (w * 4 + x / 16) :: .ofNat (x % 16 * 16 + y / 4) :: .ofNat (y % 4 * 64 + z) ::
        bytes)

/-- A letter has its value. -/
theorem value_letter {n : Nat} (h : n < 64) : value (letter n) = some n := by
  interval_cases n <;> rfl

/-- A byte is put together from its bits. -/
theorem ofNat_eq (b : UInt8) {n : Nat} (h : n = b.toNat) : UInt8.ofNat n = b := by
  rw [h, UInt8.ofNat_toNat]

/-- **Round trip.** -/
theorem decode_encode (bytes : List UInt8) : decode (encode bytes) = some bytes := by
  induction bytes using encode.induct with
  | case1 => rfl
  | case2 a =>
      have ha := a.toNat_lt
      simp only [encode, decode, value_letter (show a.toNat / 4 < 64 by omega),
        value_letter (show a.toNat % 4 * 16 < 64 by omega), Option.bind_eq_bind, Option.bind_some]
      rw [if_pos (by omega), ofNat_eq a (by omega)]
  | case3 a b =>
      have ha := a.toNat_lt
      have hb := b.toNat_lt
      simp only [encode, decode, value_letter (show a.toNat / 4 < 64 by omega),
        value_letter (show a.toNat % 4 * 16 + b.toNat / 16 < 64 by omega),
        value_letter (show b.toNat % 16 * 4 < 64 by omega), Option.bind_eq_bind, Option.bind_some]
      rw [if_pos (by omega), ofNat_eq a (by omega), ofNat_eq b (by omega)]
  | case4 a b c rest ih =>
      have ha := a.toNat_lt
      have hb := b.toNat_lt
      have hc := c.toNat_lt
      simp only [encode, decode, value_letter (show a.toNat / 4 < 64 by omega),
        value_letter (show a.toNat % 4 * 16 + b.toNat / 16 < 64 by omega),
        value_letter (show b.toNat % 16 * 4 + c.toNat / 64 < 64 by omega),
        value_letter (show c.toNat % 64 < 64 by omega), ih, Option.bind_eq_bind, Option.bind_some]
      rw [ofNat_eq a (by omega), ofNat_eq b (by omega), ofNat_eq c (by omega)]

/-! ## Length -/

theorem letter_ascii (n : Nat) : (letter n).toNat < 128 := by
  by_cases h : n < 64
  · interval_cases n <;> decide
  · unfold letter
    rw [if_neg (by omega), if_neg (by omega), if_neg (by omega), if_neg (by omega)]
    decide

theorem letter_visible (n : Nat) : 33 ≤ (letter n).toNat ∧ (letter n).toNat ≤ 126 := by
  by_cases h : n < 64
  · interval_cases n <;> decide
  · unfold letter
    rw [if_neg (by omega), if_neg (by omega), if_neg (by omega), if_neg (by omega)]
    decide

/-- Nothing but letters. -/
theorem mem_encode (bytes : List UInt8) : ∀ c ∈ encode bytes, ∃ n, c = letter n := by
  induction bytes using encode.induct with
  | case1 => simp [encode]
  | case2 a => simp [encode]
  | case3 a b => simp [encode]
  | case4 a b c rest ih =>
      simp only [encode, List.mem_cons]
      rintro d (rfl | rfl | rfl | rfl | hd)
      · exact ⟨_, rfl⟩
      · exact ⟨_, rfl⟩
      · exact ⟨_, rfl⟩
      · exact ⟨_, rfl⟩
      · exact ih d hd

theorem encode_ascii (bytes : List UInt8) : ∀ c ∈ encode bytes, c.toNat < 128 := by
  induction bytes using encode.induct with
  | case1 => simp [encode]
  | case2 a => simp [encode, letter_ascii]
  | case3 a b => simp [encode, letter_ascii]
  | case4 a b c rest ih =>
      simp only [encode, List.mem_cons]
      rintro d (rfl | rfl | rfl | rfl | hd)
      · exact letter_ascii _
      · exact letter_ascii _
      · exact letter_ascii _
      · exact letter_ascii _
      · exact ih d hd

/-- Four letters for three bytes, and no padding. -/
theorem length_encode (bytes : List UInt8) :
    (encode bytes).length = (4 * bytes.length + 2) / 3 := by
  induction bytes using encode.induct with
  | case1 => rfl
  | case2 a => simp only [encode, List.length_cons, List.length_nil]
  | case3 a b => simp only [encode, List.length_cons, List.length_nil]
  | case4 a b c rest ih =>
      simp only [encode, List.length_cons, ih]
      omega

/-! ## The standard alphabet -/

/-- A letter in the standard alphabet. -/
def standardLetter (c : Char) : Char := if c = '-' then '+' else if c = '_' then '/' else c

/-- The standard alphabet, padded to whole groups of four. -/
def encodeStandard (bytes : List UInt8) : List Char :=
  (encode bytes).map standardLetter ++ List.replicate ((4 - (encode bytes).length % 4) % 4) '='

/-- The letter of a letter in the standard alphabet. -/
def urlLetter (c : Char) : Char := if c = '+' then '-' else if c = '/' then '_' else c

theorem letter_standard (n : Nat) :
    urlLetter (standardLetter (letter n)) = letter n ∧ standardLetter (letter n) ≠ '=' := by
  by_cases h : n < 64
  · interval_cases n <;> decide
  · unfold letter
    rw [if_neg (by omega), if_neg (by omega), if_neg (by omega), if_neg (by omega)]
    decide

/-- **Standard.** What was encoded in the standard alphabet is determined. -/
theorem encodeStandard_inj {a b : List UInt8} (h : encodeStandard a = encodeStandard b) :
    a = b := by
  have hletters : ∀ bytes, ((encodeStandard bytes).filter (· ≠ '=')).map urlLetter =
      encode bytes := by
    intro bytes
    have hkeeps : ((encode bytes).map standardLetter).filter (· ≠ '=') =
        (encode bytes).map standardLetter := by
      refine List.filter_eq_self.mpr fun c hc => ?_
      obtain ⟨d, hd, rfl⟩ := List.mem_map.mp hc
      obtain ⟨n, rfl⟩ := mem_encode bytes d hd
      exact decide_eq_true (letter_standard n).2
    have hdrops : (List.replicate ((4 - (encode bytes).length % 4) % 4) '=').filter (· ≠ '=') =
        [] := by
      refine List.filter_eq_nil_iff.mpr fun c hc => ?_
      rw [List.eq_of_mem_replicate hc]
      decide
    rw [encodeStandard, List.filter_append, hkeeps, hdrops, List.append_nil, List.map_map]
    refine (List.map_congr_left fun c hc => ?_).trans (List.map_id _)
    obtain ⟨n, rfl⟩ := mem_encode bytes c hc
    exact (letter_standard n).1
  have hencoded : encode a = encode b := by rw [← hletters a, h, hletters b]
  have hdecoded := congrArg decode hencoded
  rw [decode_encode, decode_encode] at hdecoded
  exact Option.some.inj hdecoded

end Base64

end Logic
