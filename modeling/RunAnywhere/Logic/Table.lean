import Mathlib.Data.List.Nodup
import Mathlib.Data.List.Perm.Subperm
import Mathlib.Tactic.ByContra

/-!
# Keyed tables

A table is a list of keyed rows with each key at most once: the primary key is
part of the type. `put` inserts or replaces one row, `mapRows` rewrites all of
them, `count` counts the rows a predicate selects. Reads after writes are the
`get?_…` lemmas; `count_put_…` says how one write moves a count.
-/

namespace Logic

/-- Rows in insertion order, at most one for each key. -/
structure Table (κ ρ : Type*) where
  rows : List (κ × ρ)
  nodup : (rows.map Prod.fst).Nodup

namespace Table

variable {κ ρ : Type*} [DecidableEq κ]

instance [DecidableEq ρ] : DecidableEq (Table κ ρ) := fun t u =>
  decidable_of_iff (t.rows = u.rows) (by cases t; cases u; simp)

/-- The table without rows. -/
def empty : Table κ ρ := ⟨[], by simp⟩

/-- The row stored under `k`. -/
def get? (t : Table κ ρ) (k : κ) : Option ρ := t.rows.lookup k

/-- The keys that have a row. -/
def keys (t : Table κ ρ) : List κ := t.rows.map Prod.fst

/-- `k`'s row in a list of keyed rows is replaced, or added at the end. -/
def putRows (k : κ) (r : ρ) : List (κ × ρ) → List (κ × ρ)
  | [] => [(k, r)]
  | (k', r') :: rest => if k' = k then (k, r) :: rest else (k', r') :: putRows k r rest

theorem keys_putRows (k : κ) (r : ρ) (l : List (κ × ρ)) :
    (putRows k r l).map Prod.fst =
      if k ∈ l.map Prod.fst then l.map Prod.fst else l.map Prod.fst ++ [k] := by
  induction l with
  | nil => simp [putRows]
  | cons hd tl ih =>
      obtain ⟨k', r'⟩ := hd
      by_cases hk : k' = k
      · subst hk; simp [putRows]
      · have hk' : ¬ k = k' := fun h => hk h.symm
        simp only [putRows, hk, if_false, List.map_cons, ih, List.mem_cons, hk', false_or]
        split <;> simp

/-- Insert or replace the row under `k`. -/
def put (t : Table κ ρ) (k : κ) (r : ρ) : Table κ ρ :=
  ⟨putRows k r t.rows, by
    rw [keys_putRows]
    split
    · exact t.nodup
    · next h => exact List.nodup_append.mpr ⟨t.nodup, by simp, by
        intro a ha b hb hab
        simp only [List.mem_singleton] at hb
        exact h (hb ▸ hab ▸ ha)⟩⟩

/-- Drop the row under `k`. -/
def erase (t : Table κ ρ) (k : κ) : Table κ ρ :=
  ⟨t.rows.filter fun p => p.1 ≠ k, t.nodup.sublist (List.filter_sublist.map _)⟩

/-- Rewrite every row. -/
def mapRows (f : κ → ρ → ρ) (t : Table κ ρ) : Table κ ρ :=
  ⟨t.rows.map fun p => (p.1, f p.1 p.2), by
    have h : (t.rows.map fun p => (p.1, f p.1 p.2)).map Prod.fst = t.rows.map Prod.fst := by
      simp [Function.comp_def]
    rw [h]; exact t.nodup⟩

/-- The number of rows `p` selects. -/
def count (t : Table κ ρ) (p : κ → ρ → Bool) : Nat := t.rows.countP fun x => p x.1 x.2

/-! ## Reads after writes -/

@[simp] theorem get?_empty (k : κ) : (empty : Table κ ρ).get? k = none := rfl

private theorem lookup_putRows (k : κ) (r : ρ) (k' : κ) (l : List (κ × ρ)) :
    (putRows k r l).lookup k' = if k' = k then some r else l.lookup k' := by
  induction l with
  | nil =>
      by_cases h : k' = k
      · subst h; simp [putRows]
      · have hb : (k' == k) = false := beq_eq_false_iff_ne.mpr h
        simp [putRows, List.lookup_cons, h, hb]
  | cons hd tl ih =>
      obtain ⟨k₀, r₀⟩ := hd
      by_cases hk : k₀ = k
      · subst hk
        by_cases h : k' = k₀
        · subst h; simp [putRows]
        · have hb : (k' == k₀) = false := beq_eq_false_iff_ne.mpr h
          simp [putRows, List.lookup_cons, hb, h]
      · by_cases h₀ : k' = k₀
        · subst h₀; simp [putRows, hk]
        · have hb : (k' == k₀) = false := beq_eq_false_iff_ne.mpr h₀
          simp [putRows, hk, List.lookup_cons, hb, ih]

/-- Reading after a write. -/
theorem get?_put (t : Table κ ρ) (k : κ) (r : ρ) (k' : κ) :
    (t.put k r).get? k' = if k' = k then some r else t.get? k' :=
  lookup_putRows k r k' t.rows

@[simp] theorem get?_put_self (t : Table κ ρ) (k : κ) (r : ρ) : (t.put k r).get? k = some r := by
  simp [get?_put]

theorem get?_put_of_ne (t : Table κ ρ) {k k' : κ} (r : ρ) (h : k' ≠ k) :
    (t.put k r).get? k' = t.get? k' := by
  simp [get?_put, h]

theorem get?_mapRows (f : κ → ρ → ρ) (t : Table κ ρ) (k : κ) :
    (t.mapRows f).get? k = (t.get? k).map (f k) := by
  unfold get? mapRows
  simp only
  induction t.rows with
  | nil => rfl
  | cons hd tl ih =>
      obtain ⟨k₀, r₀⟩ := hd
      by_cases h : k = k₀
      · subst h; simp
      · have hb : (k == k₀) = false := beq_eq_false_iff_ne.mpr h
        simp [List.lookup_cons, hb, ih]

/-- Membership is lookup. -/
theorem mem_rows_iff (t : Table κ ρ) (k : κ) (r : ρ) : (k, r) ∈ t.rows ↔ t.get? k = some r := by
  unfold get?
  have hn := t.nodup
  generalize t.rows = l at hn
  induction l with
  | nil => simp
  | cons hd tl ih =>
      obtain ⟨k₀, r₀⟩ := hd
      simp only [List.map_cons, List.nodup_cons] at hn
      by_cases h : k = k₀
      · subst h
        have hnot : (k, r) ∉ tl := fun hm => hn.1 (List.mem_map.mpr ⟨_, hm, rfl⟩)
        simp [hnot, eq_comm]
      · have hb : (k == k₀) = false := beq_eq_false_iff_ne.mpr h
        simp [List.lookup_cons, hb, h, ih hn.2]

/-- A row left by `erase` was there before. -/
theorem get?_of_get?_erase {t : Table κ ρ} {k k' : κ} {r : ρ} (h : (t.erase k).get? k' = some r) :
    t.get? k' = some r :=
  (mem_rows_iff t k' r).mp (List.mem_of_mem_filter ((mem_rows_iff (t.erase k) k' r).mpr h))

/-- Reading after a deletion. -/
theorem get?_erase (t : Table κ ρ) (k k' : κ) :
    (t.erase k).get? k' = if k' = k then none else t.get? k' := by
  split
  · next h =>
      subst h
      cases hrow : (t.erase k').get? k' with
      | none => rfl
      | some r =>
          have hmem := (mem_rows_iff _ k' r).mpr hrow
          simp [erase] at hmem
  · next h =>
      apply Option.ext
      intro r
      rw [← mem_rows_iff, ← mem_rows_iff]
      simp [erase, h]

/-- **Apart.** The rows are the row under `k` and the others. -/
theorem rows_perm_erase {t : Table κ ρ} {k : κ} {r : ρ} (h : t.get? k = some r) :
    t.rows.Perm ((k, r) :: (t.erase k).rows) := by
  have hmem := (mem_rows_iff t k r).mpr h
  have hnodup : t.rows.Nodup := List.Nodup.of_map _ t.nodup
  have hother : ((k, r) :: (t.erase k).rows).Nodup := by
    refine List.nodup_cons.mpr ⟨fun hk => ?_, hnodup.sublist List.filter_sublist⟩
    simp [erase] at hk
  refine (List.perm_ext_iff_of_nodup hnodup hother).mpr fun ⟨k', r'⟩ => ?_
  rw [List.mem_cons, mem_rows_iff, mem_rows_iff, get?_erase]
  by_cases hk : k' = k
  · subst hk
    simp [h, eq_comm]
  · simp [hk]

theorem erase_put (t : Table κ ρ) (k : κ) (r : ρ) : ((t.put k r).erase k).rows = (t.erase k).rows := by
  show (putRows k r t.rows).filter _ = t.rows.filter _
  induction t.rows with
  | nil => simp [putRows]
  | cons hd tl ih =>
      obtain ⟨k₀, r₀⟩ := hd
      by_cases hk : k₀ = k
      · simp [putRows, hk]
      · simp only [putRows, hk, if_false, List.filter_cons, ih]

/-- A key without a row has nothing to drop. -/
theorem erase_rows_of_none {t : Table κ ρ} {k : κ} (h : t.get? k = none) :
    (t.erase k).rows = t.rows := by
  refine List.filter_eq_self.mpr fun ⟨k', r⟩ hmem => ?_
  have hrow := (mem_rows_iff t k' r).mp hmem
  refine decide_eq_true fun hk => ?_
  have hk' : k' = k := hk
  rw [hk', h] at hrow
  cases hrow

/-- A key has a row exactly when it is listed. -/
theorem mem_keys_iff (t : Table κ ρ) (k : κ) : k ∈ t.keys ↔ (t.get? k).isSome := by
  constructor
  · intro h
    obtain ⟨⟨k', r⟩, hm, rfl⟩ := List.mem_map.mp h
    rw [(mem_rows_iff t k' r).mp hm]; rfl
  · intro h
    obtain ⟨r, hr⟩ := Option.isSome_iff_exists.mp h
    exact List.mem_map.mpr ⟨(k, r), (mem_rows_iff t k r).mpr hr, rfl⟩

/-! ## Counting -/

omit [DecidableEq κ] in
@[simp] theorem count_empty (p : κ → ρ → Bool) : (empty : Table κ ρ).count p = 0 := rfl

private theorem countP_putRows (k : κ) (r : ρ) (p : κ → ρ → Bool) (l : List (κ × ρ)) :
    (putRows k r l).countP (fun x => p x.1 x.2) + ((l.lookup k).any (p k)).toNat =
      l.countP (fun x => p x.1 x.2) + (p k r).toNat := by
  induction l with
  | nil => cases h : p k r <;> simp [putRows, h]
  | cons hd tl ih =>
      obtain ⟨k₀, r₀⟩ := hd
      by_cases hk : k₀ = k
      · subst hk
        cases h : p k₀ r <;> cases h₀ : p k₀ r₀ <;>
          simp [putRows, h, h₀]
      · have hb : (k == k₀) = false := beq_eq_false_iff_ne.mpr fun h => hk h.symm
        simp only [putRows, hk, if_false, List.countP_cons, List.lookup_cons, hb]
        omega

/-- **Count after a write.** The written row counts instead of the old one. -/
theorem count_put (t : Table κ ρ) (k : κ) (r : ρ) (p : κ → ρ → Bool) :
    (t.put k r).count p + ((t.get? k).any (p k)).toNat = t.count p + (p k r).toNat :=
  countP_putRows k r p t.rows

/-- A row that counts makes the count positive. -/
theorem count_pos (t : Table κ ρ) {k : κ} {r : ρ} {p : κ → ρ → Bool}
    (hold : t.get? k = some r) (hp : p k r = true) : 0 < t.count p :=
  List.countP_pos_iff.mpr ⟨(k, r), (mem_rows_iff t k r).mpr hold, hp⟩

/-! ## Comparing counts of two tables -/

/-- The keys whose rows `p` selects. -/
def selected (t : Table κ ρ) (p : κ → ρ → Bool) : List κ :=
  (t.rows.filter fun x => p x.1 x.2).map Prod.fst

omit [DecidableEq κ] in
theorem count_eq_length_selected (t : Table κ ρ) (p : κ → ρ → Bool) :
    t.count p = (t.selected p).length := by
  simp [count, selected, List.countP_eq_length_filter]

omit [DecidableEq κ] in
theorem nodup_selected (t : Table κ ρ) (p : κ → ρ → Bool) : (t.selected p).Nodup :=
  t.nodup.sublist (List.filter_sublist.map _)

theorem mem_selected_iff (t : Table κ ρ) (p : κ → ρ → Bool) (k : κ) :
    k ∈ t.selected p ↔ (t.get? k).any (p k) = true := by
  constructor
  · intro h
    obtain ⟨⟨k', r⟩, hmem, rfl⟩ := List.mem_map.mp h
    obtain ⟨hrow, hp⟩ := List.mem_filter.mp hmem
    rw [(mem_rows_iff t k' r).mp hrow]
    exact hp
  · intro h
    obtain ⟨r, hr, hp⟩ := Option.any_eq_true _ _ |>.mp h
    exact List.mem_map.mpr ⟨(k, r), List.mem_filter.mpr ⟨(mem_rows_iff t k r).mpr hr, hp⟩, rfl⟩

/-- **Comparison.** A table that selects, away from `k₀`, only keys another one selects
counts at most one more. -/
theorem count_le_succ {t u : Table κ ρ} {p : κ → ρ → Bool} (k₀ : κ)
    (h : ∀ k, k ≠ k₀ → (u.get? k).any (p k) = true → (t.get? k).any (p k) = true) :
    u.count p ≤ t.count p + 1 := by
  rw [count_eq_length_selected, count_eq_length_selected]
  have hsub : u.selected p ⊆ k₀ :: t.selected p := by
    intro k hk
    by_cases hne : k = k₀
    · rw [hne]
      exact List.mem_cons_self
    · exact List.mem_cons_of_mem _
        ((mem_selected_iff t p k).mpr (h k hne ((mem_selected_iff u p k).mp hk)))
  simpa using (List.subperm_of_subset (nodup_selected u p) hsub).length_le

/-- A table that selects only keys another one selects counts at most as many. -/
theorem count_le {t u : Table κ ρ} {p : κ → ρ → Bool}
    (h : ∀ k, (u.get? k).any (p k) = true → (t.get? k).any (p k) = true) :
    u.count p ≤ t.count p := by
  rw [count_eq_length_selected, count_eq_length_selected]
  have hsub : u.selected p ⊆ t.selected p := fun k hk =>
    (mem_selected_iff t p k).mpr (h k ((mem_selected_iff u p k).mp hk))
  exact (List.subperm_of_subset (nodup_selected u p) hsub).length_le

/-- **Listed keys.** The rows `p` selects among the listed keys are as many as the list is long
exactly when the list repeats no key and `p` selects each. -/
theorem count_listed_iff (t : Table κ ρ) (p : κ → ρ → Bool) (ks : List κ) :
    t.count (fun k r => p k r && ks.contains k) = ks.length ↔
      ks.Nodup ∧ ∀ k ∈ ks, (t.get? k).any (p k) = true := by
  have hmem : ∀ k, k ∈ t.selected (fun k r => p k r && ks.contains k) ↔
      (t.get? k).any (p k) = true ∧ k ∈ ks := by
    intro k
    rw [mem_selected_iff]
    cases t.get? k with
    | none => simp
    | some r => simp
  have hnodup := nodup_selected t fun k r => p k r && ks.contains k
  rw [count_eq_length_selected]
  have hsub : t.selected (fun k r => p k r && ks.contains k) ⊆ ks :=
    fun k hk => ((hmem k).mp hk).2
  constructor
  · intro hlength
    have hperm := (List.subperm_of_subset hnodup hsub).perm_of_length_le (Nat.le_of_eq hlength.symm)
    refine ⟨hperm.nodup_iff.mp hnodup, fun k hk => ?_⟩
    exact ((hmem k).mp (hperm.mem_iff.mpr hk)).1
  · rintro ⟨hks, hall⟩
    refine Nat.le_antisymm (List.subperm_of_subset hnodup hsub).length_le ?_
    exact (List.subperm_of_subset hks fun k hk => (hmem k).mpr ⟨hall k hk, hk⟩).length_le

/-! ## Tables with a row constraint -/

/-- A table whose rows all satisfy `P`: a row that violates it cannot be stored. -/
abbrev Checked (κ : Type*) {ρ : Type*} (P : ρ → Prop) := Table κ { r : ρ // P r }

variable {P : ρ → Prop}

/-- The row under `k`, without its proof. -/
def row? (t : Checked κ P) (k : κ) : Option ρ := (t.get? k).map Subtype.val

/-- Rows read from the table satisfy its constraint. -/
theorem row?_holds {t : Checked κ P} {k : κ} {r : ρ} (h : row? t k = some r) : P r := by
  unfold row? at h
  cases hg : t.get? k with
  | none => rw [hg] at h; cases h
  | some x =>
      rw [hg] at h
      cases h
      exact x.2

@[simp] theorem row?_empty (k : κ) : row? (empty : Checked κ P) k = none := rfl

/-- Reading after a checked write. -/
theorem row?_put (t : Checked κ P) (k : κ) (r : ρ) (h : P r) (k' : κ) :
    row? (t.put k ⟨r, h⟩) k' = if k' = k then some r else row? t k' := by
  unfold row?
  rw [get?_put]
  split <;> rfl

@[simp] theorem row?_put_self (t : Checked κ P) (k : κ) (r : ρ) (h : P r) :
    row? (t.put k ⟨r, h⟩) k = some r := by
  simp [row?_put]

theorem row?_put_of_ne (t : Checked κ P) {k k' : κ} (r : ρ) (h : P r) (hne : k' ≠ k) :
    row? (t.put k ⟨r, h⟩) k' = row? t k' := by
  simp [row?_put, hne]

/-- A listed row is the row of its key. -/
theorem row?_of_mem {t : Checked κ P} {p : κ × {r // P r}} (h : p ∈ t.rows) :
    row? t p.1 = some p.2.val := by
  unfold row?
  rw [(mem_rows_iff t p.1 p.2).mp h]
  rfl

/-- The rows with their values are the rows read. -/
theorem mem_values_iff {t : Checked κ P} {k : κ} {r : ρ} :
    (k, r) ∈ t.rows.map (fun x => (x.1, x.2.val)) ↔ row? t k = some r := by
  rw [List.mem_map]
  constructor
  · rintro ⟨x, hmem, heq⟩
    cases heq
    exact row?_of_mem hmem
  · intro hrow
    obtain ⟨x, hget, rfl⟩ := Option.map_eq_some_iff.mp hrow
    exact ⟨(k, x), (mem_rows_iff _ _ _).mpr hget, rfl⟩

omit [DecidableEq κ] in
theorem nodup_values (t : Checked κ P) :
    ((t.rows.map fun x => (x.1, x.2.val)).map Prod.fst).Nodup := by
  rw [List.map_map]
  exact t.nodup

/-- The number of rows `p` selects, by their values. -/
def countRows (t : Checked κ P) (p : κ → ρ → Bool) : Nat := t.count fun k r => p k r.val

/-- Count after a checked write. -/
theorem countRows_put (t : Checked κ P) (k : κ) (r : ρ) (h : P r) (p : κ → ρ → Bool) :
    countRows (t.put k ⟨r, h⟩) p + ((row? t k).any (p k)).toNat =
      countRows t p + (p k r).toNat := by
  have hc := count_put t k ⟨r, h⟩ fun k r => p k r.val
  have hrow : (row? t k).any (p k) = (t.get? k).any fun r => p k r.val := by
    unfold row?; cases t.get? k <;> rfl
  rw [hrow]
  exact hc

/-- Replacing a row by one the predicate treats alike leaves the count. -/
theorem countRows_put_eq (t : Checked κ P) {k : κ} {r r' : ρ} {h : P r'} {p : κ → ρ → Bool}
    (hold : row? t k = some r) (hp : p k r' = p k r) :
    countRows (t.put k ⟨r', h⟩) p = countRows t p := by
  have hc := countRows_put t k r' h p
  rw [hold, hp] at hc
  simpa using hc

theorem any_row? (t : Checked κ P) (p : κ → ρ → Bool) (k : κ) :
    (t.get? k).any (fun r => p k r.val) = (row? t k).any (p k) := by
  unfold row?
  cases t.get? k <;> rfl

theorem countRows_le {t u : Checked κ P} {p : κ → ρ → Bool}
    (h : ∀ k, (row? u k).any (p k) = true → (row? t k).any (p k) = true) :
    countRows u p ≤ countRows t p :=
  count_le fun k hk => by
    rw [any_row?] at hk ⊢
    exact h k hk

theorem countRows_le_succ {t u : Checked κ P} {p : κ → ρ → Bool} (k₀ : κ)
    (h : ∀ k, k ≠ k₀ → (row? u k).any (p k) = true → (row? t k).any (p k) = true) :
    countRows u p ≤ countRows t p + 1 :=
  count_le_succ k₀ fun k hne hk => by
    rw [any_row?] at hk ⊢
    exact h k hne hk

theorem countRows_pos (t : Checked κ P) {k : κ} {r : ρ} {p : κ → ρ → Bool}
    (hold : row? t k = some r) (hp : p k r = true) : 0 < countRows t p := by
  unfold row? at hold
  cases hg : t.get? k with
  | none => rw [hg] at hold; cases hold
  | some x =>
      rw [hg] at hold
      cases hold
      exact count_pos t hg hp

end Table

end Logic
