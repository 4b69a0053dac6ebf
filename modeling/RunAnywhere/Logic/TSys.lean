import Mathlib.Logic.Relation

/-!
# Labelled transition systems

Reachability, finite runs and the induction rules every development over a step
relation needs:

* **invariants** — `TSys.Inductive.invariant` turns "holds initially and is
  preserved by a step from a reachable state" into "holds in every reachable
  state";
* **runs** — `TSys.Run` records the labels; `Run.preserves` transports a property
  that every step keeps, `Run.leaves` finds the step that loses one;
* **projections** — `TSys.Proj.reachable` maps the runs of a concrete system to
  runs of a more abstract one, so an invariant proved abstractly is inherited.
-/

namespace Logic

/-- A labelled transition system over states `σ` and labels `ℓ`. -/
structure TSys (σ : Type*) (ℓ : Type*) where
  init : σ → Prop
  step : σ → ℓ → σ → Prop

namespace TSys

variable {σ ℓ : Type*} (T : TSys σ ℓ)

/-- States some finite sequence of steps leads to. -/
inductive Reachable : σ → Prop
  | init {s} : T.init s → Reachable s
  | step {s l s'} : Reachable s → T.step s l s' → Reachable s'

/-- `P` holds in every reachable state. -/
def Invariant (P : σ → Prop) : Prop := ∀ s, T.Reachable s → P s

/-- `P` holds initially and survives each step taken from a reachable state. -/
structure Inductive (P : σ → Prop) : Prop where
  init : ∀ s, T.init s → P s
  step : ∀ s l s', T.Reachable s → P s → T.step s l s' → P s'

/-- **Invariant rule.** An inductive property is an invariant. -/
theorem Inductive.invariant {T : TSys σ ℓ} {P : σ → Prop} (h : T.Inductive P) :
    T.Invariant P := by
  intro s hs
  induction hs with
  | init hi => exact h.init _ hi
  | step hr hstep ih => exact h.step _ _ _ hr ih hstep

/-- Finite runs with their labels, oldest first. -/
inductive Run : σ → List ℓ → σ → Prop
  | nil (s) : Run s [] s
  | snoc {s ls s' l s''} : Run s ls s' → T.step s' l s'' → Run s (ls ++ [l]) s''

variable {T}

/-- A run that starts in a reachable state stays reachable. -/
theorem Reachable.run {s s' : σ} {ls : List ℓ} (hs : T.Reachable s) (hr : T.Run s ls s') :
    T.Reachable s' := by
  induction hr with
  | nil => exact hs
  | snoc _ hstep ih => exact .step ih hstep

/-- One step is a run. -/
theorem Run.single {s s' : σ} {l : ℓ} (h : T.step s l s') : T.Run s [l] s' :=
  .snoc (.nil s) h

/-- Runs compose. -/
theorem Run.append {s s' s'' : σ} {ls ms : List ℓ} (h : T.Run s ls s')
    (k : T.Run s' ms s'') : T.Run s (ls ++ ms) s'' := by
  induction k with
  | nil => simpa using h
  | snoc _ hstep ih => simpa [List.append_assoc] using Run.snoc ih hstep

/-- A run taken apart. -/
theorem Run.of_append {s s' : σ} {ls ms : List ℓ} (h : T.Run s (ls ++ ms) s') :
    ∃ m, T.Run s ls m ∧ T.Run m ms s' := by
  generalize hl : ls ++ ms = l at h
  induction h generalizing ms with
  | nil =>
      obtain ⟨rfl, rfl⟩ := List.append_eq_nil_iff.mp hl
      exact ⟨_, .nil _, .nil _⟩
  | snoc hrun hstep ih =>
      rcases List.eq_nil_or_concat ms with rfl | ⟨rest, last, rfl⟩
      · rw [List.append_nil] at hl
        subst hl
        exact ⟨_, .snoc hrun hstep, .nil _⟩
      · rw [List.concat_eq_append, ← List.append_assoc] at hl
        obtain ⟨rfl, hlast⟩ := List.append_inj' hl rfl
        cases hlast
        obtain ⟨m, hfirst, hrest⟩ := ih rfl
        rw [List.concat_eq_append]
        exact ⟨m, hfirst, .snoc hrest hstep⟩

theorem Run.of_nil {s s' : σ} (h : T.Run s [] s') : s' = s := by
  generalize hl : ([] : List ℓ) = ls at h
  cases h with
  | nil => rfl
  | snoc => simp at hl

/-- The first step of a run. -/
theorem Run.of_cons {s s' : σ} {l : ℓ} {ls : List ℓ} (h : T.Run s (l :: ls) s') :
    ∃ m, T.step s l m ∧ T.Run m ls s' := by
  generalize hl : l :: ls = labels at h
  induction h generalizing ls with
  | nil => cases hl
  | @snoc before a last b hrun hstep ih =>
      cases before with
      | nil =>
          cases hl
          cases hrun.of_nil
          exact ⟨b, hstep, .nil b⟩
      | cons first rest =>
          obtain ⟨rfl, rfl⟩ := List.cons_eq_cons.mp hl
          obtain ⟨m, hfirst, hrest⟩ := ih rfl
          exact ⟨m, hfirst, .snoc hrest hstep⟩

/-- **Run rule.** What every step from a reachable state keeps, a run keeps. -/
theorem Run.preserves {P : σ → Prop}
    (hstep : ∀ s l s', T.Reachable s → P s → T.step s l s' → P s')
    {s s' : σ} {ls : List ℓ} (hr : T.Run s ls s') (hs : T.Reachable s) (hP : P s) : P s' := by
  induction hr with
  | nil => exact hP
  | snoc hrun hlast ih => exact hstep _ _ _ (hs.run hrun) ih hlast

/-- A run is a run of every system that has its steps. -/
theorem Run.mono {U : TSys σ ℓ} (h : ∀ s l s', T.step s l s' → U.step s l s') {s s' : σ}
    {ls : List ℓ} (hr : T.Run s ls s') : U.Run s ls s' := by
  induction hr with
  | nil => exact .nil _
  | snoc _ hlast ih => exact .snoc ih (h _ _ _ hlast)

/-- Reachable states are reachable in every system that has the steps and the initial
states. -/
theorem Reachable.mono {U : TSys σ ℓ} (hinit : ∀ s, T.init s → U.init s)
    (hstep : ∀ s l s', T.step s l s' → U.step s l s') {s : σ} (hs : T.Reachable s) :
    U.Reachable s := by
  induction hs with
  | init hi => exact .init (hinit _ hi)
  | step _ hlast ih => exact .step ih (hstep _ _ _ hlast)

/-- **First exit.** A run that loses `P` has a step that loses it, and `P` held
until then. -/
theorem Run.leaves {P : σ → Prop} {s s' : σ} {ls : List ℓ} (hr : T.Run s ls s') (hP : P s)
    (hn : ¬ P s') : ∃ pre l post s₁ s₂, ls = pre ++ l :: post ∧ T.Run s pre s₁ ∧ P s₁ ∧
      T.step s₁ l s₂ ∧ ¬ P s₂ ∧ T.Run s₂ post s' := by
  induction hr with
  | nil => exact absurd hP hn
  | @snoc ls s₁ l s₂ hrun hlast ih =>
      by_cases h₁ : P s₁
      · exact ⟨ls, l, [], s₁, s₂, rfl, hrun, h₁, hlast, hn, .nil _⟩
      · obtain ⟨pre, l', post, a, b, rfl, hpre, ha, hstep, hb, hpost⟩ := ih h₁
        refine ⟨pre, l', post ++ [l], a, b, by simp, hpre, ha, hstep, hb, ?_⟩
        exact .snoc hpost hlast

/-- `f` maps each step of `T` to a run of `U` and initial states to initial
states. -/
structure Proj {τ m : Type*} (T : TSys σ ℓ) (U : TSys τ m) (f : σ → τ) : Prop where
  init : ∀ s, T.init s → U.init (f s)
  step : ∀ s l s', T.Reachable s → T.step s l s' → ∃ ms, U.Run (f s) ms (f s')

/-- The image of a reachable state is reachable. -/
theorem Proj.reachable {τ m : Type*} {U : TSys τ m} {f : σ → τ} (h : Proj T U f) {s : σ}
    (hs : T.Reachable s) : U.Reachable (f s) := by
  induction hs with
  | init hi => exact .init (h.init _ hi)
  | step hr hstep ih =>
      obtain ⟨ms, hrun⟩ := h.step _ _ _ hr hstep
      exact ih.run hrun

/-- The image of a run is a run. -/
theorem Proj.run {τ m : Type*} {U : TSys τ m} {f : σ → τ} (h : Proj T U f) {s s' : σ}
    {ls : List ℓ} (hs : T.Reachable s) (hrun : T.Run s ls s') : ∃ ms, U.Run (f s) ms (f s') := by
  induction hrun with
  | nil => exact ⟨[], .nil _⟩
  | snoc hrun hstep ih =>
      obtain ⟨ms, hfirst⟩ := ih
      obtain ⟨ms', hlast⟩ := h.step _ _ _ (hs.run hrun) hstep
      exact ⟨ms ++ ms', hfirst.append hlast⟩

/-- An invariant of the abstract system holds of the image. -/
theorem Proj.invariant {τ m : Type*} {U : TSys τ m} {f : σ → τ} (h : Proj T U f)
    {P : τ → Prop} (hP : U.Invariant P) : T.Invariant (fun s => P (f s)) :=
  fun _ hs => hP _ (h.reachable hs)

/-! ## Observations -/

/-- States seen one after the other in a run, with any steps between them. -/
structure Observed (T : TSys σ ℓ) (obs : Nat → σ) : Prop where
  start : T.Reachable (obs 0)
  next : ∀ k, ∃ ls, T.Run (obs k) ls (obs (k + 1))

theorem Observed.run {obs : Nat → σ} (h : T.Observed obs) {i k : Nat} (hle : i ≤ k) :
    ∃ ls, T.Run (obs i) ls (obs k) := by
  induction hle with
  | refl => exact ⟨[], .nil _⟩
  | step _ ih =>
      obtain ⟨ls, hrun⟩ := ih
      obtain ⟨ms, hnext⟩ := h.next _
      exact ⟨ls ++ ms, hrun.append hnext⟩

theorem Observed.reachable {obs : Nat → σ} (h : T.Observed obs) (k : Nat) :
    T.Reachable (obs k) := by
  obtain ⟨ls, hrun⟩ := h.run (Nat.zero_le k)
  exact h.start.run hrun

end TSys

end Logic
