import Mathlib.Data.List.Basic
import Mathlib.Tactic.IntervalCases

/-!
# JSON text

String literals and flat objects of texts, written without white space: what a writer quotes, a
reader reads back and goes on behind it (`readString_quote`, `readMembers_members`).
-/

namespace Logic

namespace Json

/-- The characters that have a short escape, and its letter. -/
def escapes : List (Char × Char) :=
  [('"', '"'), ('\\', '\\'), ('\x08', 'b'), ('\x0c', 'f'), ('\n', 'n'), ('\r', 'r'), ('\t', 't')]

def hex (n : Nat) : Char := if n < 10 then Char.ofNat (n + 48) else Char.ofNat (n + 87)

def unhex (c : Char) : Nat := if c.toNat < 58 then c.toNat - 48 else c.toNat - 87

/-- A character of a string literal; other control characters take the long escape. -/
def escape (c : Char) : List Char :=
  match escapes.lookup c with
  | some letter => ['\\', letter]
  | none =>
      if c.toNat < 32 then ['\\', 'u', '0', '0', hex (c.toNat / 16), hex (c.toNat % 16)] else [c]

/-- A string literal. -/
def quote (s : List Char) : List Char := '"' :: (s.flatMap escape ++ ['"'])

/-- The string up to the closing quote, and the text behind it. -/
def readBody : List Char → Option (List Char × List Char)
  | [] => none
  | '"' :: rest => some ([], rest)
  | '\\' :: 'u' :: '0' :: '0' :: h :: l :: rest =>
      (readBody rest).map fun r => (Char.ofNat (unhex h * 16 + unhex l) :: r.1, r.2)
  | '\\' :: letter :: rest =>
      match escapes.find? fun e => e.2 = letter with
      | some e => (readBody rest).map fun r => (e.1 :: r.1, r.2)
      | none => none
  | c :: rest => (readBody rest).map fun r => (c :: r.1, r.2)

/-- A string literal, and the text behind it. -/
def readString : List Char → Option (List Char × List Char)
  | '"' :: rest => readBody rest
  | _ => none

/-- A text without its first character, which has to be `c`. -/
def expect (c : Char) : List Char → Option (List Char)
  | [] => none
  | d :: rest => if d = c then some rest else none

/-- The members of an object and its closing brace. -/
def members : List (List Char × List Char) → List Char
  | [] => ['}']
  | [(name, text)] => quote name ++ ':' :: (quote text ++ ['}'])
  | (name, text) :: rest => quote name ++ ':' :: (quote text ++ ',' :: members rest)

/-- At most `n` members up to the closing brace, and the text behind it. -/
def readMembers : Nat → List Char → Option (List (List Char × List Char) × List Char)
  | 0, _ => none
  | _, '}' :: rest => some ([], rest)
  | n + 1, text => do
      let (name, text) ← readString text
      let text ← expect ':' text
      let (value, text) ← readString text
      match text with
      | ',' :: text => (readMembers n text).map fun r => ((name, value) :: r.1, r.2)
      | '}' :: text => some ([(name, value)], text)
      | _ => none

/-- Every member takes a character. -/
theorem length_le_members (ms : List (List Char × List Char)) :
    ms.length ≤ (members ms).length := by
  induction ms with
  | nil => exact Nat.zero_le _
  | cons m ms ih =>
      cases ms with
      | nil => simp [members, quote]
      | cons m' ms =>
          simp only [members, quote, List.length_cons, List.length_append] at ih ⊢
          omega

/-! ## Round trips -/

theorem readBody_plain {c : Char} (hquote : c ≠ '"') (hslash : c ≠ '\\') (rest : List Char) :
    readBody (c :: rest) = (readBody rest).map fun r => (c :: r.1, r.2) := by
  rw [readBody.eq_def]
  split <;> simp_all

theorem unhex_hex {n : Nat} (h : n < 16) : unhex (hex n) = n := by
  interval_cases n <;> rfl

/-- A reader undoes the escape of one character. -/
theorem readBody_escape (c : Char) (rest : List Char) :
    readBody (escape c ++ rest) = (readBody rest).map fun r => (c :: r.1, r.2) := by
  unfold escape
  cases hlookup : escapes.lookup c with
  | some letter =>
      obtain ⟨front, back, heq, _⟩ := List.lookup_eq_some_iff.mp hlookup
      have hmem : (c, letter) ∈ escapes := by
        rw [heq]
        exact List.mem_append_right _ List.mem_cons_self
      simp only [escapes, List.mem_cons, Prod.mk.injEq, List.not_mem_nil, or_false] at hmem
      rcases hmem with ⟨rfl, rfl⟩ | ⟨rfl, rfl⟩ | ⟨rfl, rfl⟩ | ⟨rfl, rfl⟩ | ⟨rfl, rfl⟩ |
        ⟨rfl, rfl⟩ | ⟨rfl, rfl⟩ <;> rfl
  | none =>
      show readBody ((if c.toNat < 32 then _ else _) ++ rest) = _
      split
      · next hlow =>
          show (readBody rest).map _ = _
          rw [unhex_hex (by omega), unhex_hex (by omega), Nat.div_add_mod']
          rw [Char.ofNat_toNat]
      · refine readBody_plain ?_ ?_ rest
        · rintro rfl
          cases hlookup
        · rintro rfl
          cases hlookup

/-- **Strings.** A reader reads back what was quoted. -/
theorem readString_quote (s rest : List Char) :
    readString (quote s ++ rest) = some (s, rest) := by
  show readBody (s.flatMap escape ++ ['"'] ++ rest) = some (s, rest)
  induction s with
  | nil => rfl
  | cons c s ih =>
      rw [List.flatMap_cons, List.append_assoc, List.append_assoc, readBody_escape,
        ← List.append_assoc, ih]
      rfl

/-- **Objects.** A reader reads back the members. -/
theorem readMembers_members {n : Nat} {ms : List (List Char × List Char)} (rest : List Char)
    (h : ms.length < n) : readMembers n (members ms ++ rest) = some (ms, rest) := by
  induction n generalizing ms with
  | zero => omega
  | succ n ih =>
      cases ms with
      | nil => rfl
      | cons m ms =>
          obtain ⟨name, text⟩ := m
          have hread (tail : List Char) :
              readMembers (n + 1) (quote name ++ ':' :: (quote text ++ tail)) = match tail with
              | ',' :: tail => (readMembers n tail).map fun r => ((name, text) :: r.1, r.2)
              | '}' :: tail => some ([(name, text)], tail)
              | _ => none := by
            have hname := readString_quote name (':' :: (quote text ++ tail))
            have htext := readString_quote text tail
            show (readString (quote name ++ ':' :: (quote text ++ tail))).bind _ = _
            rw [hname]
            show (readString (quote text ++ tail)).bind _ = _
            rw [htext]
            rfl
          cases ms with
          | nil =>
              have hlast := hread ('}' :: rest)
              simpa [members, List.append_assoc] using hlast
          | cons m ms =>
              have hmore := hread (',' :: (members (m :: ms) ++ rest))
              rw [show members ((name, text) :: m :: ms) ++ rest =
                quote name ++ ':' :: (quote text ++ ',' :: (members (m :: ms) ++ rest)) by
                simp [members, List.append_assoc], hmore]
              show (readMembers n (members (m :: ms) ++ rest)).map _ = _
              rw [ih (Nat.lt_of_succ_lt_succ h)]
              rfl

/-! ## Length -/

/-- A character that is written as it is, in one byte. -/
def Plain (c : Char) : Prop := 32 ≤ c.toNat ∧ c.toNat < 128 ∧ c ≠ '"' ∧ c ≠ '\\'

instance (c : Char) : Decidable (Plain c) :=
  inferInstanceAs (Decidable (32 ≤ c.toNat ∧ c.toNat < 128 ∧ c ≠ '"' ∧ c ≠ '\\'))

theorem escape_plain {c : Char} (h : Plain c) : escape c = [c] := by
  obtain ⟨hlow, _, hquote, hslash⟩ := h
  have hlookup : escapes.lookup c = none := by
    apply List.lookup_eq_none_iff.mpr
    intro e he
    simp only [escapes, List.mem_cons, List.not_mem_nil, or_false] at he
    apply bne_iff_ne.mpr
    rcases he with rfl | rfl | rfl | rfl | rfl | rfl | rfl
    · exact hquote
    · exact hslash
    all_goals
      rintro rfl
      exact absurd hlow (by decide)
  unfold escape
  rw [hlookup]
  exact if_neg (by omega)

/-- A plain text is quoted as it is. -/
theorem quote_plain {s : List Char} (h : ∀ c ∈ s, Plain c) : quote s = '"' :: (s ++ ['"']) := by
  have hbody : s.flatMap escape = s := by
    induction s with
    | nil => rfl
    | cons c s ih =>
        rw [List.flatMap_cons, escape_plain (h c List.mem_cons_self),
          ih fun d hd => h d (List.mem_cons_of_mem c hd)]
        rfl
  unfold quote
  rw [hbody]

/-- **Members.** Their names and texts, and six characters each, of which the last has one for the
closing brace in place of a comma. -/
theorem length_members {ms : List (List Char × List Char)}
    (h : ∀ m ∈ ms, (∀ c ∈ m.1, Plain c) ∧ ∀ c ∈ m.2, Plain c) (hne : ms ≠ []) :
    (members ms).length = (ms.map fun m => m.1.length + m.2.length + 6).sum := by
  induction ms with
  | nil => exact absurd rfl hne
  | cons m ms ih =>
      obtain ⟨hname, htext⟩ := h m List.mem_cons_self
      cases ms with
      | nil =>
          simp only [members, quote_plain hname, quote_plain htext, List.length_cons,
            List.length_append, List.length_nil, List.map_cons, List.map_nil, List.sum_cons,
            List.sum_nil]
          omega
      | cons m' ms =>
          have hrest := ih (fun x hx => h x (List.mem_cons_of_mem m hx)) (List.cons_ne_nil _ _)
          rw [List.map_cons, List.sum_cons, ← hrest]
          simp only [members, quote_plain hname, quote_plain htext, List.length_cons,
            List.length_append, List.length_nil]
          omega

theorem quote_ascii {s : List Char} (h : ∀ c ∈ s, Plain c) : ∀ c ∈ quote s, c.toNat < 128 := by
  rw [quote_plain h]
  intro c hc
  rcases List.mem_cons.mp hc with rfl | hc
  · decide
  · rcases List.mem_append.mp hc with hin | hend
    · exact (h c hin).2.1
    · rw [List.mem_singleton.mp hend]
      decide

/-- The characters of an object are ASCII where its names and texts are plain. -/
theorem members_ascii {ms : List (List Char × List Char)}
    (h : ∀ m ∈ ms, (∀ c ∈ m.1, Plain c) ∧ ∀ c ∈ m.2, Plain c) :
    ∀ c ∈ members ms, c.toNat < 128 := by
  have hbrace : ∀ c ∈ ['}'], c.toNat < 128 := by
    intro c hc
    rw [List.mem_singleton.mp hc]
    decide
  induction ms with
  | nil => exact hbrace
  | cons m ms ih =>
      obtain ⟨hname, htext⟩ := h m List.mem_cons_self
      have hrest := ih fun x hx => h x (List.mem_cons_of_mem m hx)
      have hfirst : ∀ tail : List Char, (∀ c ∈ tail, c.toNat < 128) →
          ∀ c ∈ quote m.1 ++ ':' :: (quote m.2 ++ tail), c.toNat < 128 := by
        intro tail htail c hc
        rcases List.mem_append.mp hc with hin | hc
        · exact quote_ascii hname c hin
        · rcases List.mem_cons.mp hc with rfl | hc
          · decide
          · rcases List.mem_append.mp hc with hin | hin
            · exact quote_ascii htext c hin
            · exact htail c hin
      cases ms with
      | nil => exact hfirst ['}'] hbrace
      | cons m' ms =>
          apply hfirst
          intro c hc
          rcases List.mem_cons.mp hc with rfl | hc
          · decide
          · exact hrest c hc

/-- The bytes of an ASCII text. -/
theorem utf8ByteSize_ascii {l : List Char} (h : ∀ c ∈ l, c.toNat < 128) :
    (String.ofList l).utf8ByteSize = l.length := by
  induction l with
  | nil => rfl
  | cons c l ih =>
      have hc : c.utf8Size = 1 := by
        rw [Char.utf8Size_eq_one_iff]
        exact Nat.le_of_lt_succ (h c List.mem_cons_self)
      have hcons : String.ofList (c :: l) = String.singleton c ++ String.ofList l := by
        apply String.toList_injective
        simp
      rw [hcons, String.utf8ByteSize_append, String.utf8ByteSize_singleton, hc,
        ih fun d hd => h d (List.mem_cons_of_mem c hd), List.length_cons]
      omega

end Json

end Logic
