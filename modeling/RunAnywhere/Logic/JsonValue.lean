import Mathlib.Data.List.Nodup
import Mathlib.Data.List.Perm.Basic

/-!
# JSON values and their readers

The values a text stands for, and readers in the manner of derived deserializers:

* **records** — the values of named fields, of an object in any order or of an array by position;
  a strict reader takes no other names (`fields_strict_iff`);
* **variants** — an enumeration by the names of its variants, as a string or as an object with one
  member, which is null;
* **texts** — a printer and a parser, which are parameters.
-/

namespace Logic

namespace Json

/-- A JSON value; an object lists its members as they are written. -/
inductive Value
  | null
  | bool (b : Bool)
  /-- a number written as an integer -/
  | int (n : Int)
  /-- a number with a fraction or an exponent -/
  | float (text : String)
  | string (s : String)
  | array (items : List Value)
  | object (members : List (String × Value))

/-- The member of a name. -/
def member (members : List (String × Value)) (name : String) : Option Value := members.lookup name

/-! ## Readers -/

def Value.text? : Value → Option String
  | .string s => some s
  | _ => none

/-- An unsigned integer up to `max`. -/
def Value.nat? (max : Nat) : Value → Option Nat
  | .int n => if 0 ≤ n ∧ n ≤ max then some n.toNat else none
  | _ => none

/-- The variant of a name. -/
def Value.variant? {α : Type} (variants : List α) (name : α → String) : Value → Option α
  | .string s => variants.find? fun x => name x = s
  | .object [(s, .null)] => variants.find? fun x => name x = s
  | _ => none

/-- The values of the named fields. A named field stands once; a strict reader refuses others. -/
def Value.fields (strict : Bool) (names : List String) : Value → Option (List Value)
  | .object members =>
      let keys := members.map Prod.fst
      if (names.all fun name => decide (keys.count name = 1)) &&
          (!strict || keys.all fun key => names.contains key) then
        names.mapM (member members)
      else none
  | .array items => if items.length = names.length then some items else none
  | _ => none

/-- A printer and a parser of texts. -/
structure Codec where
  print : Value → List UInt8
  parse : List UInt8 → Option Value

/-! ## What they read -/

/-- A member of this name that is read as `x`. -/
def Reads {α : Type} (members : List (String × Value)) (name : String) (read : Value → Option α)
    (x : α) : Prop :=
  ∃ value, member members name = some value ∧ read value = some x

/-- The names of the members, in any order. -/
def HasKeys (members : List (String × Value)) (names : List String) : Prop :=
  ∀ key, key ∈ members.map Prod.fst ↔ key ∈ names

theorem Value.nat?_int {max n : Nat} (h : n ≤ max) : (Value.int n).nat? max = some n := by
  have hle : (0 : Int) ≤ n ∧ (n : Int) ≤ max := ⟨Int.natCast_nonneg n, Int.ofNat_le.mpr h⟩
  show (if (0 : Int) ≤ n ∧ (n : Int) ≤ max then some (n : Int).toNat else none) = some n
  rw [if_pos hle, Int.toNat_natCast]

/-- The names of the members of an object with these names, in any order. -/
theorem count_eq_one_iff {keys names : List String} (hkeys : keys.Nodup) :
    (∀ name ∈ names, keys.count name = 1) ↔ ∀ name ∈ names, name ∈ keys :=
  forall₂_congr fun _ _ =>
    ⟨fun h => List.count_pos_iff.mp (by omega), fun h => List.count_eq_one_of_mem hkeys h⟩

/-- The five values of five names. -/
theorem mapM_member_five {members : List (String × Value)} {a b c d e : String}
    {values : List Value} :
    [a, b, c, d, e].mapM (member members) = some values ↔
      ∃ v w x y z, member members a = some v ∧ member members b = some w ∧
        member members c = some x ∧ member members d = some y ∧ member members e = some z ∧
        values = [v, w, x, y, z] := by
  simp only [List.mapM_cons, List.mapM_nil, Option.bind_eq_bind, Option.pure_def,
    Option.bind_eq_some_iff, Option.some.injEq]
  constructor
  · rintro ⟨v, hv, _, ⟨w, hw, _, ⟨x, hx, _, ⟨y, hy, _, ⟨z, hz, _, rfl, rfl⟩, rfl⟩, rfl⟩, rfl⟩, rfl⟩
    exact ⟨v, w, x, y, z, hv, hw, hx, hy, hz, rfl⟩
  · rintro ⟨v, w, x, y, z, hv, hw, hx, hy, hz, rfl⟩
    exact ⟨v, hv, _, ⟨w, hw, _, ⟨x, hx, _, ⟨y, hy, _, ⟨z, hz, _, rfl, rfl⟩, rfl⟩, rfl⟩, rfl⟩, rfl⟩

/-- **Records.** A strict reader reads an object without repeated keys if and only if its keys are
the names. -/
theorem Value.fields_strict_iff {names : List String} {members : List (String × Value)}
    (hkeys : (members.map Prod.fst).Nodup) (values : List Value) :
    (Value.object members).fields true names = some values ↔
      HasKeys members names ∧ names.mapM (member members) = some values := by
  have hchecks : ((names.all fun name => decide ((members.map Prod.fst).count name = 1)) &&
      (!true || (members.map Prod.fst).all fun key => names.contains key)) = true ↔
      HasKeys members names := by
    rw [Bool.and_eq_true, List.all_eq_true]
    simp only [decide_eq_true_eq, Bool.not_true, Bool.false_or, List.all_eq_true,
      List.contains_iff_mem]
    rw [count_eq_one_iff hkeys]
    exact ⟨fun h key => ⟨h.2 key, h.1 key⟩, fun h => ⟨fun n => (h n).mpr, fun n => (h n).mp⟩⟩
  show (if _ then _ else _) = some values ↔ _
  by_cases h : ((names.all fun name => decide ((members.map Prod.fst).count name = 1)) &&
      (!true || (members.map Prod.fst).all fun key => names.contains key)) = true
  · rw [if_pos h]
    exact ⟨fun hvalues => ⟨hchecks.mp h, hvalues⟩, fun hvalues => hvalues.2⟩
  · rw [if_neg h]
    exact ⟨fun hnone => (nomatch hnone), fun hboth => absurd (hchecks.mpr hboth.1) h⟩

end Json

end Logic
