import Mathlib.Data.List.Basic

/-!
# Results

`Except` as a result type: what a sequence, or a list of readings (`collect` into a result), that
succeeds has gone through, and where one that fails has failed.
-/

namespace Logic

namespace Result

variable {ε α β γ : Type}

theorem mapError_ok (f : ε → β) (a : α) : (Except.ok a : Except ε α).mapError f = .ok a := rfl

theorem bind_ok_iff {x : Except ε α} {f : α → Except ε β} {b : β} :
    (x >>= f) = .ok b ↔ ∃ a, x = .ok a ∧ f a = .ok b := by
  cases x with
  | ok a =>
      constructor
      · intro h
        exact ⟨a, rfl, h⟩
      · rintro ⟨_, ha, hf⟩
        cases ha
        exact hf
  | error e =>
      constructor
      · intro h
        cases h
      · rintro ⟨_, ha, _⟩
        cases ha

/-! ## Lists of readings -/

variable {f : α → Except ε β} {as : List α} {bs : List β}

/-- The readings of a list that is read, one by one. -/
theorem mapM_cons_ok {a : α} (h : (a :: as).mapM f = .ok bs) :
    ∃ b rest, f a = .ok b ∧ as.mapM f = .ok rest ∧ bs = b :: rest := by
  rw [List.mapM_cons] at h
  obtain ⟨b, hb, h⟩ := bind_ok_iff.mp h
  obtain ⟨rest, hrest, h⟩ := bind_ok_iff.mp h
  cases h
  exact ⟨b, rest, hb, hrest, rfl⟩

/-- Everything in the result was read. -/
theorem mapM_mem (h : as.mapM f = .ok bs) {b : β} (hb : b ∈ bs) : ∃ a ∈ as, f a = .ok b := by
  induction as generalizing bs with
  | nil =>
      cases h
      cases hb
  | cons a as ih =>
      obtain ⟨b₀, rest, hread, hrest, rfl⟩ := mapM_cons_ok h
      rcases List.mem_cons.mp hb with rfl | htail
      · exact ⟨a, List.mem_cons_self, hread⟩
      · obtain ⟨a', ha', hread'⟩ := ih hrest htail
        exact ⟨a', List.mem_cons_of_mem _ ha', hread'⟩

/-- What a reading keeps, in order. -/
theorem mapM_map {g : β → γ} {k : α → γ} (hkeeps : ∀ a b, f a = .ok b → g b = k a)
    (h : as.mapM f = .ok bs) : bs.map g = as.map k := by
  induction as generalizing bs with
  | nil =>
      cases h
      rfl
  | cons a as ih =>
      obtain ⟨b, rest, hread, hrest, rfl⟩ := mapM_cons_ok h
      rw [List.map_cons, List.map_cons, hkeeps a b hread, ih hrest]

/-- A list that cannot be read has an element that cannot. -/
theorem mapM_error {e : ε} (h : as.mapM f = .error e) : ∃ a ∈ as, f a = .error e := by
  induction as with
  | nil => cases h
  | cons a as ih =>
      rw [List.mapM_cons] at h
      cases hread : f a with
      | error e' =>
          rw [hread] at h
          cases h
          exact ⟨a, List.mem_cons_self, hread⟩
      | ok b =>
          rw [hread] at h
          cases hrest : as.mapM f with
          | error e' =>
              rw [hrest] at h
              cases h
              obtain ⟨a', ha', hfail⟩ := ih hrest
              exact ⟨a', List.mem_cons_of_mem _ ha', hfail⟩
          | ok rest =>
              rw [hrest] at h
              cases h

end Result

end Logic
