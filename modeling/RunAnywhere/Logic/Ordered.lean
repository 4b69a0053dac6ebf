import Mathlib.Data.List.Sort
import Mathlib.Data.Prod.Lex

/-!
# The first rows of an order

`ORDER BY key LIMIT n` over rows with keys of their own: which rows it returns
(`mem_take_insertionSort`) depends on how many rows have a smaller key (`ahead`), not on how
the list they come in is arranged.
-/

namespace Logic

variable {α κ : Type*} [LinearOrder κ] {key : α → κ} {r : α → α → Prop} [DecidableRel r]
  {l : List α} {x : α} {n : Nat}

/-- How many rows have a key smaller than `k`. -/
def ahead (key : α → κ) (l : List α) (k : κ) : Nat := l.countP fun y => decide (key y < k)

theorem ahead_perm {l' : List α} (h : l.Perm l') (k : κ) : ahead key l k = ahead key l' k :=
  h.countP_eq _

/-- The sorted list of rows with keys of their own is strictly sorted. -/
theorem insertionSort_strict (hr : ∀ a b, r a b ↔ key a ≤ key b) (hkeys : (l.map key).Nodup) :
    (l.insertionSort r).Pairwise fun a b => key a < key b := by
  have htotal : Std.Total r := ⟨fun a b => by
    rw [hr, hr]
    exact le_total _ _⟩
  have htrans : IsTrans α r := ⟨fun a b c hab hbc => by
    rw [hr] at hab hbc ⊢
    exact hab.trans hbc⟩
  have hsorted := List.pairwise_insertionSort r l
  have hdistinct : (l.insertionSort r).Pairwise fun a b => key a ≠ key b :=
    List.pairwise_map.mp (((List.perm_insertionSort r l).map key).nodup_iff.mpr hkeys)
  exact (hsorted.and hdistinct).imp fun h => lt_of_le_of_ne ((hr _ _).mp h.1) h.2

theorem ahead_cons_self {a : α} {rest : List α} (h : ∀ y ∈ rest, key a < key y) :
    ahead key (a :: rest) (key a) = 0 := by
  refine List.countP_eq_zero.mpr fun y hy => ?_
  rcases List.mem_cons.mp hy with rfl | hy
  · simp
  · simpa using (h y hy).le

/-- The head is ahead of the rows of the tail. -/
theorem ahead_cons_of_mem {a : α} {rest : List α} (h : ∀ y ∈ rest, key a < key y)
    (hx : x ∈ rest) : ahead key (a :: rest) (key x) = ahead key rest (key x) + 1 := by
  unfold ahead
  rw [List.countP_cons_of_pos (by simpa using h x hx)]

/-- A row of a strictly sorted list is at the place its key gives it. -/
theorem getElem?_sorted (hsorted : l.Pairwise fun a b => key a < key b) :
    l[n]? = some x ↔ x ∈ l ∧ ahead key l (key x) = n := by
  induction l generalizing n with
  | nil => simp
  | cons a rest ih =>
      obtain ⟨hfirst, hrest⟩ := List.pairwise_cons.mp hsorted
      by_cases hx : x ∈ rest
      · have hcount := ahead_cons_of_mem hfirst hx
        have hne : a ≠ x := fun h => lt_irrefl (key a) (h ▸ hfirst x hx)
        rw [hcount]
        cases n with
        | zero => simp [hne]
        | succ n => simp [ih hrest, hx]
      · have hself := ahead_cons_self hfirst
        cases n with
        | zero =>
            simp only [List.getElem?_cons_zero, Option.some.injEq, List.mem_cons]
            constructor
            · rintro rfl
              exact ⟨.inl rfl, hself⟩
            · rintro ⟨rfl | hmem, _⟩
              · rfl
              · exact absurd hmem hx
        | succ n =>
            rw [List.getElem?_cons_succ, ih hrest, List.mem_cons]
            constructor
            · rintro ⟨hmem, _⟩
              exact absurd hmem hx
            · rintro ⟨rfl | hmem, hplace⟩
              · omega
              · exact absurd hmem hx

/-- A row of a strictly sorted list is among its first when its place is. -/
theorem mem_take_sorted (hsorted : l.Pairwise fun a b => key a < key b) :
    x ∈ l.take n ↔ x ∈ l ∧ ahead key l (key x) < n := by
  rw [List.mem_take_iff_getElem]
  constructor
  · rintro ⟨i, hi, hx⟩
    have hget : l[i]? = some x := List.getElem?_eq_some_iff.mpr ⟨by omega, hx⟩
    obtain ⟨hmem, hplace⟩ := (getElem?_sorted hsorted).mp hget
    exact ⟨hmem, by omega⟩
  · rintro ⟨hmem, hplace⟩
    have hget := (getElem?_sorted hsorted).mpr ⟨hmem, rfl⟩
    obtain ⟨hlt, hx⟩ := List.getElem?_eq_some_iff.mp hget
    exact ⟨_, by omega, hx⟩

/-- **The first rows.** A row is among the first `n` when fewer than `n` rows are ahead. -/
theorem mem_take_insertionSort (hr : ∀ a b, r a b ↔ key a ≤ key b) (hkeys : (l.map key).Nodup) :
    x ∈ (l.insertionSort r).take n ↔ x ∈ l ∧ ahead key l (key x) < n := by
  rw [mem_take_sorted (insertionSort_strict hr hkeys), List.mem_insertionSort,
    ahead_perm (List.perm_insertionSort r l)]

end Logic
