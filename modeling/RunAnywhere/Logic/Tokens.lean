import Mathlib.Data.List.Basic

/-!
# Token patterns

A name is a list of tokens. A pattern is one too, in which two tokens are wildcards: `one`
stands for any token, and `many`, as the last token, for one token or more. `Matches` is the
meaning of a pattern, and `Matches.literal` the rule that tells two patterns apart.
-/

namespace Logic

/-- The two tokens with a meaning of their own. -/
structure Wildcards (τ : Type*) where
  one : τ
  many : τ

namespace Wildcards

variable {τ : Type*} (w : Wildcards τ)

/-- A token that stands for itself. -/
def Literal (t : τ) : Prop := t ≠ w.one ∧ t ≠ w.many

instance [DecidableEq τ] (t : τ) : Decidable (w.Literal t) :=
  inferInstanceAs (Decidable (_ ∧ _))

/-- The names a pattern stands for. -/
inductive Matches : List τ → List τ → Prop
  | done : Matches [] []
  | many {t ts} : Matches [w.many] (t :: ts)
  | one {t ps ts} : Matches ps ts → Matches (w.one :: ps) (t :: ts)
  | same {t ps ts} : w.Literal t → Matches ps ts → Matches (t :: ps) (t :: ts)

variable {w}

/-- **Literals.** A name has the literal tokens of its pattern, where the pattern has them. -/
theorem Matches.literal {p s : List τ} (h : w.Matches p s) {i : Nat} {t : τ}
    (ht : w.Literal t) (hp : p[i]? = some t) : s[i]? = some t := by
  induction h generalizing i with
  | done => cases hp
  | many =>
      cases i with
      | zero => exact absurd (Option.some.inj hp).symm ht.2
      | succ i => cases hp
  | one _ ih =>
      cases i with
      | zero => exact absurd (Option.some.inj hp).symm ht.1
      | succ i => exact ih hp
  | same _ _ ih =>
      cases i with
      | zero => exact hp
      | succ i => exact ih hp

end Wildcards

end Logic
