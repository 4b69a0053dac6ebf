import Mathlib.Logic.Basic

/-!
# Transactions

A transaction reads and rewrites a store and either commits with a value or
fails with an error; a failed transaction has no effect on the store (`exec`).
Sequencing is the monad; the `commits` lemmas invert a committed transaction
into the facts its steps established.
-/

namespace Logic

/-- A transaction over stores `σ` that may fail with `ε`. -/
def Tx (ε σ α : Type) : Type := σ → Except ε (α × σ)

namespace Tx

variable {ε σ α β : Type}

instance : Monad (Tx ε σ) where
  pure a := fun s => .ok (a, s)
  bind x f := fun s =>
    match x s with
    | .ok (a, s') => f a s'
    | .error e => .error e

/-- Fail; the caller rolls back. -/
def fail (e : ε) : Tx ε σ α := fun _ => .error e

/-- Read the store. -/
def read (f : σ → α) : Tx ε σ α := fun s => .ok (f s, s)

/-- Rewrite the store. -/
def write (f : σ → σ) : Tx ε σ Unit := fun s => .ok ((), f s)

/-- Fail unless `c` holds. -/
def require (c : Bool) (e : ε) : Tx ε σ Unit := if c then pure () else fail e

/-- The value of an option, or fail. -/
def okOr (o : Option α) (e : ε) : Tx ε σ α :=
  match o with
  | some a => pure a
  | none => fail e

/-- The value of a result, or fail with its error. -/
def ofExcept (r : Except ε α) : Tx ε σ α :=
  match r with
  | .ok a => pure a
  | .error e => fail e

/-- Run a transaction against a store: commit its effect, or roll back. -/
def exec (x : Tx ε σ α) (s : σ) : Except ε α × σ :=
  match x s with
  | .ok (a, s') => (.ok a, s')
  | .error e => (.error e, s)

/-- `x` commits from `s` with value `a` and store `s'`. -/
def Commits (x : Tx ε σ α) (s : σ) (a : α) (s' : σ) : Prop := x s = .ok (a, s')

/-! ## What a committed transaction did -/

@[simp] theorem pure_commits {s s' : σ} {a b : α} :
    (pure a : Tx ε σ α).Commits s b s' ↔ a = b ∧ s = s' := by
  constructor
  · intro h; cases h; exact ⟨rfl, rfl⟩
  · rintro ⟨rfl, rfl⟩; rfl

@[simp] theorem fail_commits {s s' : σ} {b : α} {e : ε} :
    ¬ (fail e : Tx ε σ α).Commits s b s' := by
  intro h; cases h

@[simp] theorem read_commits {s s' : σ} {f : σ → α} {b : α} :
    (read f : Tx ε σ α).Commits s b s' ↔ f s = b ∧ s = s' := by
  constructor
  · intro h; cases h; exact ⟨rfl, rfl⟩
  · rintro ⟨rfl, rfl⟩; rfl

@[simp] theorem write_commits {s s' : σ} {f : σ → σ} {u : Unit} :
    (write f : Tx ε σ Unit).Commits s u s' ↔ f s = s' := by
  constructor
  · intro h; cases h; rfl
  · rintro rfl; rfl

/-- **Sequencing.** The first part commits, and the rest commits from there. -/
theorem bind_commits {x : Tx ε σ α} {f : α → Tx ε σ β} {s s' : σ} {b : β} :
    (x >>= f).Commits s b s' ↔ ∃ a s₁, x.Commits s a s₁ ∧ (f a).Commits s₁ b s' := by
  constructor
  · intro h
    unfold Commits at h
    change (match x s with
      | .ok (a, s') => f a s'
      | .error e => .error e) = _ at h
    cases hx : x s with
    | error e => rw [hx] at h; cases h
    | ok p => rw [hx] at h; exact ⟨p.1, p.2, hx, h⟩
  · rintro ⟨a, s₁, hx, hf⟩
    unfold Commits at hx hf ⊢
    change (match x s with
      | .ok (a, s') => f a s'
      | .error e => .error e) = _
    rw [hx]; exact hf

@[simp] theorem require_commits {c : Bool} {e : ε} {s s' : σ} {u : Unit} :
    (require c e : Tx ε σ Unit).Commits s u s' ↔ c = true ∧ s = s' := by
  cases c <;> simp [require]

@[simp] theorem okOr_commits {o : Option α} {e : ε} {s s' : σ} {a : α} :
    (okOr o e : Tx ε σ α).Commits s a s' ↔ o = some a ∧ s = s' := by
  cases o <;> simp [okOr]

@[simp] theorem ofExcept_commits {r : Except ε α} {s s' : σ} {a : α} :
    (ofExcept r : Tx ε σ α).Commits s a s' ↔ r = .ok a ∧ s = s' := by
  cases r <;> simp [ofExcept]

/-- Translating the error keeps the value. -/
@[simp] theorem mapError_eq_ok {ε' : Type} {f : ε → ε'} {r : Except ε α} {a : α} :
    r.mapError f = .ok a ↔ r = .ok a := by
  cases r with
  | ok b =>
      show (Except.ok b : Except ε' α) = .ok a ↔ _
      rw [Except.ok.injEq, Except.ok.injEq]
  | error e =>
      constructor
      · intro h; cases h
      · intro h; cases h

/-! ## Evaluation -/

theorem bind_of_commits {x : Tx ε σ α} {f : α → Tx ε σ β} {s s₁ : σ} {a : α}
    (h : x.Commits s a s₁) : (x >>= f) s = f a s₁ := by
  change (match x s with
    | .ok (a, s') => f a s'
    | .error e => .error e) = _
  rw [h]

theorem bind_of_error {x : Tx ε σ α} {f : α → Tx ε σ β} {s : σ} {e : ε}
    (h : x s = .error e) : (x >>= f) s = .error e := by
  change (match x s with
    | .ok (a, s') => f a s'
    | .error e => .error e) = _
  rw [h]

/-- A condition that holds is passed. -/
theorem bind_require {c : Bool} {e : ε} {f : Unit → Tx ε σ β} {s : σ} (h : c = true) :
    (require c e >>= f) s = f () s :=
  bind_of_commits (require_commits.mpr ⟨h, rfl⟩)

/-- A missing value fails. -/
theorem okOr_none_apply (e : ε) (s : σ) : (okOr none e : Tx ε σ α) s = .error e := rfl

/-- A condition that does not hold fails. -/
theorem require_false_apply (e : ε) (s : σ) : (require false e : Tx ε σ Unit) s = .error e := rfl

theorem bind_assoc' {γ : Type} (x : Tx ε σ α) (f : α → Tx ε σ β) (g : β → Tx ε σ γ) :
    (x >>= f) >>= g = x >>= fun a => f a >>= g := by
  funext s
  cases hx : x s with
  | error e => rw [bind_of_error (bind_of_error hx), bind_of_error hx]
  | ok p =>
      have hc : x.Commits s p.1 p.2 := hx
      rw [bind_of_commits hc]
      cases hf : f p.1 p.2 with
      | error e =>
          have hxf : (x >>= f) s = .error e := (bind_of_commits hc).trans hf
          rw [bind_of_error hxf, bind_of_error hf]
      | ok q =>
          have hcf : (f p.1).Commits p.2 q.1 q.2 := hf
          have hxf : (x >>= f).Commits s q.1 q.2 := (bind_of_commits hc).trans hf
          rw [bind_of_commits hxf, bind_of_commits hcf]

/-- Sequencing is associative and `pure` is its unit. -/
instance : LawfulMonad (Tx ε σ) :=
  LawfulMonad.mk' (Tx ε σ)
    (fun x => by
      funext s
      cases hx : x s with
      | error e => exact bind_of_error hx
      | ok p => exact bind_of_commits (show x.Commits s p.1 p.2 from hx))
    (fun _ _ => rfl) bind_assoc'

/-- Transactions that agree on a store run alike from it. -/
theorem exec_congr {x y : Tx ε σ α} {s : σ} (h : x s = y s) : x.exec s = y.exec s := by
  unfold exec; rw [h]

/-- Continuations that agree wherever the first part commits give the same result. -/
theorem bind_congr {x : Tx ε σ α} {f g : α → Tx ε σ β} {s : σ}
    (h : ∀ a s', x.Commits s a s' → f a s' = g a s') : (x >>= f) s = (x >>= g) s := by
  cases hx : x s with
  | error e => rw [bind_of_error hx, bind_of_error hx]
  | ok p =>
      have hc : x.Commits s p.1 p.2 := hx
      rw [bind_of_commits hc, bind_of_commits hc]
      exact h _ _ hc

/-- First parts that agree on a store give the same result there. -/
theorem bind_congr_left {x y : Tx ε σ α} {f : α → Tx ε σ β} {s : σ} (h : x s = y s) :
    (x >>= f) s = (y >>= f) s := by
  cases hy : y s with
  | error e => rw [bind_of_error hy, bind_of_error (h.trans hy)]
  | ok p =>
      have hc : y.Commits s p.1 p.2 := hy
      rw [bind_of_commits hc, bind_of_commits (h.trans hc)]

/-- **Atomicity.** Running a transaction either commits it or changes nothing. -/
theorem exec_cases (x : Tx ε σ α) (s : σ) :
    (∃ a s', x.Commits s a s' ∧ x.exec s = (.ok a, s')) ∨
      ∃ e, x s = .error e ∧ x.exec s = (.error e, s) := by
  unfold exec Commits
  cases hx : x s with
  | ok p => exact Or.inl ⟨p.1, p.2, rfl, rfl⟩
  | error e => exact Or.inr ⟨e, rfl, rfl⟩

theorem Commits.exec_eq {x : Tx ε σ α} {s s' : σ} {a : α} (h : x.Commits s a s') :
    x.exec s = (.ok a, s') := by
  unfold exec; rw [h]

theorem exec_of_error {x : Tx ε σ α} {s : σ} {e : ε} (h : x s = .error e) :
    x.exec s = (.error e, s) := by
  unfold exec; rw [h]

theorem exec_error_iff {x : Tx ε σ α} {s : σ} {e : ε} :
    x.exec s = (.error e, s) ↔ x s = .error e := by
  refine ⟨fun h => ?_, exec_of_error⟩
  rcases exec_cases x s with ⟨a, s', _, he⟩ | ⟨e', hx, he⟩
  · rw [he] at h; cases h
  · rw [he] at h; cases h; exact hx

theorem commits_of_exec {x : Tx ε σ α} {s s' : σ} {a : α} (h : x.exec s = (.ok a, s')) :
    x.Commits s a s' := by
  rcases exec_cases x s with ⟨b, t, hc, he⟩ | ⟨e, _, he⟩
  · rw [he] at h; cases h; exact hc
  · rw [he] at h; cases h

/-- A committed value and store are determined. -/
theorem Commits.unique {x : Tx ε σ α} {s s₁ s₂ : σ} {a b : α} (h : x.Commits s a s₁)
    (k : x.Commits s b s₂) : a = b ∧ s₁ = s₂ := by
  unfold Commits at h k
  rw [h] at k
  cases k
  exact ⟨rfl, rfl⟩

/-! ## Failures -/

/-- The transaction never fails with `e`. -/
def Avoids (x : Tx ε σ α) (e : ε) : Prop := ∀ s, x s ≠ .error e

theorem avoids_pure (a : α) (e : ε) : (pure a : Tx ε σ α).Avoids e := by
  intro s h
  cases h

theorem avoids_read (f : σ → α) (e : ε) : (read f : Tx ε σ α).Avoids e := by
  intro s h
  cases h

theorem avoids_require {c : Bool} {e e' : ε} (h : e' ≠ e) :
    (require c e' : Tx ε σ Unit).Avoids e := by
  intro s hs
  cases c with
  | true => cases hs
  | false => exact h (Except.error.inj hs)

theorem avoids_okOr {o : Option α} {e e' : ε} (h : e' ≠ e) :
    (okOr o e' : Tx ε σ α).Avoids e := by
  intro s hs
  cases o with
  | some a => cases hs
  | none => exact h (Except.error.inj hs)

theorem Avoids.bind {x : Tx ε σ α} {f : α → Tx ε σ β} {e : ε} (hx : x.Avoids e)
    (hf : ∀ a, (f a).Avoids e) : (x >>= f).Avoids e := by
  intro s hs
  cases h : x s with
  | error e' =>
      rw [bind_of_error h] at hs
      obtain rfl := Except.error.inj hs
      exact hx s h
  | ok p =>
      rw [bind_of_commits (show x.Commits s p.1 p.2 from h)] at hs
      exact hf p.1 p.2 hs

/-- From store `s` the transaction fails with errors in `E` only. -/
def FailsIn (x : Tx ε σ α) (s : σ) (E : ε → Prop) : Prop := ∀ e, x s = .error e → E e

section FailsIn

variable {s : σ} {E : ε → Prop}

theorem failsIn_pure (a : α) : (pure a : Tx ε σ α).FailsIn s E := fun _ h => nomatch h

theorem failsIn_require {c : Bool} {e : ε} (h : c = false → E e) :
    (require c e : Tx ε σ Unit).FailsIn s E := by
  intro e' hs
  cases c with
  | true => cases hs
  | false =>
      obtain rfl := Except.error.inj hs
      exact h rfl

theorem failsIn_okOr {o : Option α} {e : ε} (h : o = none → E e) :
    (okOr o e : Tx ε σ α).FailsIn s E := by
  intro e' hs
  cases o with
  | some a => cases hs
  | none =>
      obtain rfl := Except.error.inj hs
      exact h rfl

/-- **Sequencing.** -/
theorem FailsIn.bind {x : Tx ε σ α} {f : α → Tx ε σ β} (hx : x.FailsIn s E)
    (hf : ∀ a s', x.Commits s a s' → (f a).FailsIn s' E) : (x >>= f).FailsIn s E := by
  intro e hs
  cases h : x s with
  | error e' =>
      rw [bind_of_error h] at hs
      obtain rfl := Except.error.inj hs
      exact hx e' h
  | ok p =>
      have hc : x.Commits s p.1 p.2 := h
      rw [bind_of_commits hc] at hs
      exact hf p.1 p.2 hc e hs

end FailsIn

end Tx

end Logic
