import RunAnywhere.Logic.Base64
import RunAnywhere.Logic.Json
import RunAnywhere.Repository.Cursors

/-!
# A codec

A codec that writes cursors as the crates do: JSON without white space, URL-safe base64 without
padding, and instants as RFC 3339 texts. The texts of instants are those of the first day of the
epoch at whole seconds; every other instant has its number instead. It reads back what it writes
(`textCodec_lawful`).
-/

namespace RunAnywhere

open Logic

namespace CursorText

/-! ## Routes and keys -/

/-- `{"route":…,"key":{…}}`. -/
def routeText (route : String) (members : List (String × String)) : List Char :=
  "\x7b\"route\":".toList ++ (Json.quote route.toList ++ (",\"key\":\x7b".toList ++
    (Json.members (members.map fun m => (m.1.toList, m.2.toList)) ++ "\x7d".toList)))

def readRoute (text : List Char) : Option RouteCursor := do
  let text ← stripPre "\x7b\"route\":".toList text
  let (route, text) ← Json.readString text
  let text ← stripPre ",\"key\":\x7b".toList text
  let (members, text) ← Json.readMembers (text.length + 1) text
  if text = "\x7d".toList then
    some ⟨String.ofList route,
      .object (members.map fun m => (String.ofList m.1, some (String.ofList m.2)))⟩
  else none

theorem readRoute_routeText (route : String) (members : List (String × String)) :
    readRoute (routeText route members) = some ⟨route, .ofTexts members⟩ := by
  have hlen := Json.length_le_members (members.map fun m => (m.1.toList, m.2.toList))
  unfold readRoute routeText
  rw [stripPre_append, Option.bind_eq_bind, Option.bind_some, Json.readString_quote,
    Option.bind_eq_bind, Option.bind_some]
  simp only [stripPre_append, Option.bind_eq_bind, Option.bind_some]
  rw [Json.readMembers_members _ (by rw [List.length_append]; omega), Option.bind_some]
  simp [Value.ofTexts, List.map_map, Function.comp_def]

/-- A member that is a text. -/
def memberText (m : String × Option String) : Option (String × String) :=
  m.2.map fun value => (m.1, value)

/-- A route cursor as text; a key that is no object of texts is not written. -/
def text : RouteCursor → Option (List Char)
  | ⟨route, .object members⟩ =>
      (members.mapM memberText).map (routeText route)
  | _ => none

theorem text_ofTexts (route : String) (members : List (String × String)) :
    text ⟨route, .ofTexts members⟩ = some (routeText route members) := by
  have hall : (members.map fun m => (m.1, some m.2)).mapM memberText = some members := by
    induction members with
    | nil => rfl
    | cons m members ih =>
        rw [List.map_cons, List.mapM_cons, ih]
        rfl
  unfold text Value.ofTexts
  simp only [hall, Option.map_some]

/-! ## Bytes -/

def toBytes (s : List Char) : List UInt8 := (String.ofList s).toByteArray.data.toList

def ofBytes (bytes : List UInt8) : Option (List Char) :=
  (String.fromUTF8? ⟨bytes.toArray⟩).map String.toList

theorem ofBytes_toBytes (s : List Char) : ofBytes (toBytes s) = some s := by
  have hvalid := (String.ofList s).isValidUTF8
  unfold ofBytes toBytes String.fromUTF8?
  rw [dif_pos hvalid]
  show some (String.toList (String.ofList s)) = some s
  rw [String.toList_ofList]

/-! ## Instants -/

def digit (n : Nat) : Char := Char.ofNat (n % 10 + 48)

def ofDigit (c : Char) : Nat := c.toNat - 48

/-- Two digits. -/
def pair (n : Nat) : List Char := [digit (n / 10), digit n]

/-- `1970-01-01T…Z` on the first day. -/
def timeText (t : Int) : List Char :=
  if 0 ≤ t ∧ t < 86400000000 ∧ t % 1000000 = 0 then
    let s := (t / 1000000).toNat
    "1970-01-01T".toList ++ pair (s / 3600) ++ ':' :: pair (s / 60 % 60) ++ ':' :: pair (s % 60) ++
      ['Z']
  else if 0 ≤ t then '+' :: Nat.toDigits 10 t.toNat
  else '-' :: Nat.toDigits 10 t.natAbs

def readTime : List Char → Option Int
  | '+' :: digits => some (Nat.ofDigitChars 10 digits 0)
  | '-' :: digits => some (-Nat.ofDigitChars 10 digits 0)
  | text =>
      match stripPre "1970-01-01T".toList text with
      | some [h, h', ':', m, m', ':', s, s', 'Z'] =>
          some (1000000 * ((ofDigit h * 10 + ofDigit h') * 3600 +
            (ofDigit m * 10 + ofDigit m') * 60 + (ofDigit s * 10 + ofDigit s') : Nat))
      | _ => none

theorem ofDigit_digit (n : Nat) : ofDigit (digit n) = n % 10 := by
  have hlt : n % 10 < 10 := Nat.mod_lt n (by decide)
  unfold ofDigit digit
  generalize n % 10 = d at hlt
  interval_cases d <;> rfl

theorem readTime_timeText (t : Int) : readTime (timeText t) = some t := by
  unfold timeText
  split
  · next h =>
      obtain ⟨hpos, hday, hwhole⟩ := h
      show some _ = some t
      simp only [ofDigit_digit]
      refine congrArg some ?_
      omega
  · split
    · next hpos =>
        show some (Int.ofNat (Nat.ofDigitChars 10 (Nat.toDigits 10 t.toNat) 0)) = some t
        rw [Nat.ofDigitChars_ten_toDigits]
        congr 1
        exact Int.toNat_of_nonneg hpos
    · next hneg =>
        show some (-(Nat.ofDigitChars 10 (Nat.toDigits 10 t.natAbs) 0 : Int)) = some t
        rw [Nat.ofDigitChars_ten_toDigits]
        refine congrArg some ?_
        omega

end CursorText

/-- The codec. -/
def textCodec : CursorCodec where
  toVec cursor := match CursorText.text cursor with
    | some text => .ok (CursorText.toBytes text)
    | none => .error "key must be an object of texts"
  fromSlice bytes := match (CursorText.ofBytes bytes).bind CursorText.readRoute with
    | some cursor => .ok cursor
    | none => .error "expected a route cursor"
  encode64 bytes := String.ofList (Base64.encode bytes)
  decode64 text := match Base64.decode text.toList with
    | some bytes => .ok bytes
    | none => .error "Invalid input"
  formatTime t := String.ofList (CursorText.timeText t)
  parseTime text := CursorText.readTime text.toList
  mismatch _ _ := "invalid key"

/-- **A lawful codec.** -/
theorem textCodec_lawful : textCodec.Lawful := by
  constructor
  · intro route members hnodup
    clear hnodup
    refine ⟨CursorText.toBytes (CursorText.routeText route members),
      members.map fun m => (m.1, some m.2), ?_, ?_, fun name => ?_⟩
    · simp only [textCodec, CursorText.text_ofTexts]
    · simp only [textCodec, CursorText.ofBytes_toBytes, Option.bind_some,
        CursorText.readRoute_routeText]
      rfl
    · induction members with
      | nil => rfl
      | cons m members ih =>
          rw [List.map_cons, List.lookup_cons, List.lookup_cons]
          cases name == m.1 with
          | true => rfl
          | false => exact ih
  · intro bytes
    simp only [textCodec, String.toList_ofList, Base64.decode_encode]
  · intro t
    simp only [textCodec, String.toList_ofList, CursorText.readTime_timeText]

/-! ## Length -/

theorem digit_plain {c : Char} (h : c.isDigit = true) : Json.Plain c := by
  have hrange : 48 ≤ c.toNat ∧ c.toNat ≤ 57 := by
    simp only [Char.isDigit, Bool.and_eq_true, decide_eq_true_eq, ge_iff_le,
      UInt32.le_iff_toNat_le] at h
    exact h
  refine ⟨by omega, by omega, ?_, ?_⟩
  · rintro rfl
    exact absurd hrange.1 (by decide)
  · rintro rfl
    exact absurd hrange.2 (by decide)

theorem isDigit_digit (n : Nat) : (CursorText.digit n).isDigit = true := by
  have hlt : n % 10 < 10 := Nat.mod_lt n (by decide)
  unfold CursorText.digit
  generalize n % 10 = d at hlt
  interval_cases d <;> rfl

theorem timeText_plain (t : Int) : ∀ c ∈ CursorText.timeText t, Json.Plain c := by
  have hpair : ∀ n, ∀ c ∈ CursorText.pair n, Json.Plain c := by
    intro n c hc
    rcases List.mem_cons.mp hc with rfl | hc
    · exact digit_plain (isDigit_digit _)
    · rw [List.mem_singleton.mp hc]
      exact digit_plain (isDigit_digit _)
  have hdigits : ∀ n, ∀ c ∈ Nat.toDigits 10 n, Json.Plain c := fun n c hc =>
    digit_plain (Nat.isDigit_of_mem_toDigits (by decide) (Nat.le_refl 10) hc)
  have hdate : PlainText "1970-01-01T" := by decide
  intro c hc
  unfold CursorText.timeText at hc
  split at hc
  · simp only [List.mem_append, List.mem_cons, List.not_mem_nil, or_false] at hc
    rcases hc with (((hday | hhours) | rfl | hminutes) | rfl | hseconds) | rfl
    · exact hdate c hday
    · exact hpair _ c hhours
    · decide
    · exact hpair _ c hminutes
    · decide
    · exact hpair _ c hseconds
    · decide
  · split at hc
    · rcases List.mem_cons.mp hc with rfl | hc
      · decide
      · exact hdigits _ c hc
    · rcases List.mem_cons.mp hc with rfl | hc
      · decide
      · exact hdigits _ c hc

/-- A plain text has a byte for each character. -/
theorem PlainText.bytes {s : String} (h : PlainText s) : s.toList.length = s.utf8ByteSize := by
  rw [← Json.utf8ByteSize_ascii fun c hc => (h c hc).2.1, String.ofList_toList]

theorem length_routeText {route : String} {members : List (String × String)}
    (hne : members ≠ []) (hroute : PlainText route)
    (hplain : ∀ m ∈ members, PlainText m.1 ∧ PlainText m.2) :
    (CursorText.toBytes (CursorText.routeText route members)).length = jsonBytes route members := by
  have hall : ∀ m ∈ members.map fun m => (m.1.toList, m.2.toList),
      (∀ c ∈ m.1, Json.Plain c) ∧ ∀ c ∈ m.2, Json.Plain c := by
    intro m hm
    obtain ⟨m', hm', rfl⟩ := List.mem_map.mp hm
    exact hplain m' hm'
  have hascii : ∀ c ∈ CursorText.routeText route members, c.toNat < 128 := by
    have hhead : ∀ c ∈ "\x7b\"route\":".toList, c.toNat < 128 := by
      simpa only [List.all_eq_true, decide_eq_true_eq] using
        (by decide : ("\x7b\"route\":".toList.all fun c => decide (c.toNat < 128)) = true)
    have hkey : ∀ c ∈ ",\"key\":\x7b".toList, c.toNat < 128 := by
      simpa only [List.all_eq_true, decide_eq_true_eq] using
        (by decide : (",\"key\":\x7b".toList.all fun c => decide (c.toNat < 128)) = true)
    intro c hc
    unfold CursorText.routeText at hc
    simp only [List.mem_append] at hc
    rcases hc with hc | hc | hc | hc | hc
    · exact hhead c hc
    · exact Json.quote_ascii hroute c hc
    · exact hkey c hc
    · exact Json.members_ascii hall c hc
    · rw [List.mem_singleton.mp hc]
      decide
  have hbytes : (CursorText.toBytes (CursorText.routeText route members)).length =
      (String.ofList (CursorText.routeText route members)).utf8ByteSize := rfl
  have hsum : ((members.map fun m => (m.1.toList, m.2.toList)).map fun m =>
      m.1.length + m.2.length + 6).sum =
        (members.map fun m => m.1.utf8ByteSize + m.2.utf8ByteSize + 6).sum := by
    rw [List.map_map]
    congr 1
    apply List.map_congr_left
    intro m hm
    show m.1.toList.length + m.2.toList.length + 6 = _
    rw [(hplain m hm).1.bytes, (hplain m hm).2.bytes]
  rw [hbytes, Json.utf8ByteSize_ascii hascii]
  unfold CursorText.routeText jsonBytes
  rw [List.length_append, List.length_append, List.length_append, List.length_append,
    Json.quote_plain hroute, Json.length_members hall (by simpa using hne), hsum,
    List.length_cons, List.length_append, hroute.bytes]
  show 9 + (route.utf8ByteSize + 1 + 1 + (8 + (_ + 1))) = _
  omega

/-- **A compact codec.** -/
theorem textCodec_compact : textCodec.Compact := by
  constructor
  · intro route members bytes hne hroute hplain hbytes
    simp only [textCodec, CursorText.text_ofTexts, Except.ok.injEq] at hbytes
    rw [← hbytes]
    exact length_routeText hne hroute hplain
  · intro bytes
    show (String.ofList (Base64.encode bytes)).utf8ByteSize = _
    rw [Json.utf8ByteSize_ascii (Base64.encode_ascii bytes), Base64.length_encode]
  · intro t c hc
    rw [show textCodec.formatTime t = String.ofList (CursorText.timeText t) from rfl,
      String.toList_ofList] at hc
    exact timeText_plain t c hc

end RunAnywhere
