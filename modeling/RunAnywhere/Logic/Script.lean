import RunAnywhere.Logic.Tx

/-!
# Scripts

A script runs transactions one after the other over a store. It may halt with an error at any
point, and what was committed before stays: a script does not roll back.

* **running** — `bind_ok`, `bind_error` run a script step by step;
* **transactions** — `ofTx` runs a transaction over a part of the store; `ofTx_ok`, `ofTx_error`;
* **reading** — `okOr` and `check` do not write;
* **two runs** — `Alike`: the same answer from two stores, and no write in either.
-/

namespace Logic

/-- A script over stores `σ` that may halt with `ε`. -/
def Script (ε σ α : Type) : Type := σ → Except ε α × σ

namespace Script

variable {ε σ α β : Type}

instance : Monad (Script ε σ) where
  pure a := fun s => (.ok a, s)
  bind x f := fun s =>
    match x s with
    | (.ok a, s') => f a s'
    | (.error e, s') => (.error e, s')

/-- Halt. -/
def halt (e : ε) : Script ε σ α := fun s => (.error e, s)

/-- The value of a result, or halt with its error. -/
def check (r : Except ε α) : Script ε σ α := fun s => (r, s)

/-- The value of an option, or halt. -/
def okOr (o : Option α) (e : ε) : Script ε σ α := fun s => (o.elim (.error e) .ok, s)

/-- Run a transaction over a part of the store: commit, or halt where it fails. -/
def ofTx {δ τ : Type} (view : σ → τ) (put : σ → τ → σ) (error : δ → ε) (x : Tx δ τ α) :
    Script ε σ α := fun s =>
  match x (view s) with
  | .ok (a, t) => (.ok a, put s t)
  | .error e => (.error (error e), s)

/-! ## Running -/

section Running

variable {x : Script ε σ α} {f : α → Script ε σ β} {s s' : σ} {a : α} {e : ε}

@[simp] theorem pure_run (a : α) (s : σ) : (pure a : Script ε σ α) s = (.ok a, s) := rfl

@[simp] theorem halt_run (e : ε) (s : σ) : (halt e : Script ε σ α) s = (.error e, s) := rfl

/-- **Sequencing.** The rest runs from where the first part ended. -/
theorem bind_ok (h : x s = (.ok a, s')) : (x >>= f) s = f a s' := by
  show (match x s with
    | (.ok a, s') => f a s'
    | (.error e, s') => (.error e, s')) = f a s'
  rw [h]

/-- **Halting.** A script halts where its first part does. -/
theorem bind_error (h : x s = (.error e, s')) : (x >>= f) s = (.error e, s') := by
  show (match x s with
    | (.ok a, s') => f a s'
    | (.error e, s') => (.error e, s')) = (.error e, s')
  rw [h]

theorem okOr_some_bind (a : α) (e : ε) (s : σ) : (okOr (some a) e >>= f) s = f a s := rfl

theorem okOr_none_bind (e : ε) (s : σ) : (okOr none e >>= f) s = (.error e, s) := rfl

variable {δ τ : Type} {view : σ → τ} {put : σ → τ → σ} {error : δ → ε} {y : Tx δ τ α}

theorem ofTx_ok {t : τ} (h : y.Commits (view s) a t) :
    (ofTx view put error y) s = (.ok a, put s t) := by
  unfold ofTx
  rw [h]

theorem ofTx_error {d : δ} (h : y (view s) = .error d) :
    (ofTx view put error y) s = (.error (error d), s) := by
  unfold ofTx
  rw [h]

/-- **Inversion.** A script ends well where both its parts do. -/
theorem bind_eq_ok {b : β} : (x >>= f) s = (.ok b, s') ↔
    ∃ a s₁, x s = (.ok a, s₁) ∧ f a s₁ = (.ok b, s') := by
  constructor
  · intro h
    cases hx : x s with
    | mk r s₁ =>
        cases r with
        | error e =>
            rw [bind_error hx] at h
            cases h
        | ok a =>
            rw [bind_ok hx] at h
            exact ⟨a, s₁, rfl, h⟩
  · rintro ⟨a, s₁, hx, hf⟩
    rw [bind_ok hx, hf]

theorem check_eq_ok {r : Except ε α} : check r s = (.ok a, s') ↔ r = .ok a ∧ s = s' := by
  unfold check
  rw [Prod.mk.injEq]

theorem ofTx_eq_ok : (ofTx view put error y) s = (.ok a, s') ↔
    ∃ t, y.Commits (view s) a t ∧ s' = put s t := by
  constructor
  · intro h
    cases hy : y (view s) with
    | error e =>
        rw [ofTx_error hy] at h
        cases h
    | ok out =>
        obtain ⟨b, t⟩ := out
        rw [ofTx_ok hy] at h
        cases h
        exact ⟨t, hy, rfl⟩
  · rintro ⟨t, hy, rfl⟩
    exact ofTx_ok hy

end Running

/-! ## Two runs -/

/-- From two stores, the same answer and no write. -/
def Alike (x : Script ε σ α) (s s' : σ) : Prop := ∃ r, x s = (r, s) ∧ x s' = (r, s')

section Alike

variable {x : Script ε σ α} {f : α → Script ε σ β} {s s' : σ}

theorem alike_pure (a : α) : (pure a : Script ε σ α).Alike s s' := ⟨.ok a, rfl, rfl⟩

theorem alike_check (r : Except ε α) : (check r : Script ε σ α).Alike s s' := ⟨r, rfl, rfl⟩

/-- **Alike one after the other.** The rest need only be alike for an answer that the first part
can give. -/
theorem Alike.bind (h : x.Alike s s') (hf : ∀ a, x s = (.ok a, s) → (f a).Alike s s') :
    (x >>= f).Alike s s' := by
  obtain ⟨r, hx, hx'⟩ := h
  cases r with
  | error e => exact ⟨.error e, bind_error hx, bind_error hx'⟩
  | ok a =>
      obtain ⟨r, hr, hr'⟩ := hf a hx
      refine ⟨r, ?_, ?_⟩
      · rw [bind_ok hx, hr]
      · rw [bind_ok hx', hr']

/-- Where both first parts halt alike, nothing is asked of the rest. -/
theorem alike_of_halt {e : ε} (h : x s = (.error e, s)) (h' : x s' = (.error e, s')) :
    (x >>= f).Alike s s' := ⟨.error e, bind_error h, bind_error h'⟩

end Alike

end Script

end Logic
