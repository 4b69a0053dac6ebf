import RunAnywhere.Logic.Table

/-!
# Rows that are kept up

A table where some rows are wanted, and programs that create a wanted row or bring it in line:

* **policy** — `Upkeep` says how a row may move towards the wanted one, and when it is good. A
  good row stays good;
* **tables** — along `Upkeep.Along` the wanted rows are created good or move by steps, and none
  is deleted, so what is ready stays ready (`Upkeep.Along.ready`).
-/

namespace Logic

variable {κ α : Type*} [DecidableEq κ]

/-- How a row moves towards the wanted one, and when it is good. -/
structure Upkeep (α : Type*) where
  step : α → α → α → Prop
  good : α → α → Prop
  refl : ∀ d a, step d a a
  trans : ∀ {d a b c}, step d a b → step d b c → step d a c
  kept : ∀ {d a b}, step d a b → good d a → good d b

namespace Upkeep

variable {U : Upkeep α} {wanted : List (κ × α)} {t t' t'' : Table κ α}

variable (U) in
/-- What happens to a row that may be missing. -/
def Moves (d : α) : Option α → Option α → Prop
  | none, none => True
  | none, some b => U.good d b
  | some a, some b => U.step d a b
  | some _, none => False

theorem Moves.refl (d : α) (a : Option α) : U.Moves d a a := by
  cases a with
  | none => exact trivial
  | some a => exact U.refl d a

theorem Moves.trans {d : α} {a b c : Option α} (h : U.Moves d a b) (h' : U.Moves d b c) :
    U.Moves d a c := by
  cases a with
  | none =>
      cases c with
      | none => exact trivial
      | some c =>
          cases b with
          | none => exact h'
          | some b => exact U.kept h' h
  | some a =>
      cases b with
      | none => exact h.elim
      | some b =>
          cases c with
          | none => exact h'.elim
          | some c => exact U.trans h h'

variable (U) in
/-- The wanted rows are created good or move by steps. -/
def Along (wanted : List (κ × α)) (t t' : Table κ α) : Prop :=
  ∀ k d, (k, d) ∈ wanted → U.Moves d (t.get? k) (t'.get? k)

theorem Along.refl (wanted : List (κ × α)) (t : Table κ α) : U.Along wanted t t :=
  fun _ d _ => Moves.refl d _

theorem Along.trans (h : U.Along wanted t t') (h' : U.Along wanted t' t'') :
    U.Along wanted t t'' :=
  fun k d hd => (h k d hd).trans (h' k d hd)

/-- A wanted row is written. -/
theorem Along.put (hnodup : (wanted.map Prod.fst).Nodup) {k : κ} {d a : α} (hd : (k, d) ∈ wanted)
    (h : U.Moves d (t.get? k) (some a)) : U.Along wanted t (t.put k a) := by
  intro k' d' hd'
  by_cases hk : k' = k
  · subst hk
    cases List.inj_on_of_nodup_map hnodup hd hd' rfl
    rw [Table.get?_put_self]
    exact h
  · rw [Table.get?_put_of_ne _ _ hk]
    exact Moves.refl d' _

/-- Another row is written. -/
theorem Along.put_other {k : κ} (hk : k ∉ wanted.map Prod.fst) (a : α) :
    U.Along wanted t (t.put k a) := by
  intro k' d' hd'
  have hne : k' ≠ k := by
    intro heq
    subst heq
    exact hk (List.mem_map_of_mem hd')
  rw [Table.get?_put_of_ne _ _ hne]
  exact Moves.refl d' _

/-- A row that is there moves by steps. -/
theorem Along.step (h : U.Along wanted t t') {k : κ} {d a : α} (hd : (k, d) ∈ wanted)
    (ha : t.get? k = some a) : ∃ b, t'.get? k = some b ∧ U.step d a b := by
  have hmoves := h k d hd
  rw [ha] at hmoves
  cases hb : t'.get? k with
  | none =>
      rw [hb] at hmoves
      exact hmoves.elim
  | some b =>
      rw [hb] at hmoves
      exact ⟨b, rfl, hmoves⟩

/-- A row that is there later was there, or was created good and stayed so. -/
theorem Along.source (h : U.Along wanted t t') {k : κ} {d b : α} (hd : (k, d) ∈ wanted)
    (hb : t'.get? k = some b) : (∃ a, t.get? k = some a ∧ U.step d a b) ∨ U.good d b := by
  have hmoves := h k d hd
  rw [hb] at hmoves
  cases ha : t.get? k with
  | none =>
      rw [ha] at hmoves
      exact Or.inr hmoves
  | some a =>
      rw [ha] at hmoves
      exact Or.inl ⟨a, rfl, hmoves⟩

/-- A good row is under the key. -/
def Ready (U : Upkeep α) (k : κ) (d : α) (t : Table κ α) : Prop :=
  ∃ a, t.get? k = some a ∧ U.good d a

theorem Along.ready (h : U.Along wanted t t') {k : κ} {d : α} (hd : (k, d) ∈ wanted)
    (hr : U.Ready k d t) : U.Ready k d t' := by
  obtain ⟨a, ha, hgood⟩ := hr
  obtain ⟨b, hb, hstep⟩ := h.step hd ha
  exact ⟨b, hb, U.kept hstep hgood⟩

end Upkeep

end Logic
