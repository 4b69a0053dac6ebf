import Mathlib.Data.Finset.Card
import RunAnywhere.Logic.Ordered

/-!
# Keyset pagination

A page holds the first rows beyond a cursor in the order of their keys; one row too many is
fetched to learn whether there are more, and the key of the last row is the next cursor. The
table may change between two pages:

* **one page** — what it returns, and when there is more (`page_eq`, `page_more`);
* **the pages** — read one after the other from changing rows they return strictly increasing
  keys, each row that stays, and an end once the keys are confined to a finite list
  (`pages_sorted`, `pages_complete`, `pages_end`).
-/

namespace Logic

namespace Keyset

variable {R K : Type*} [LinearOrder K] (key : R → K) (limit : Nat)

/-- The rows beyond a cursor, in the order of their keys. -/
def ordered (cursor : Option K) (rows : List R) : List R :=
  (rows.filter fun r => cursor.all fun c => decide (c < key r)).insertionSort fun a b =>
    key a ≤ key b

/-- One page: the rows it returns, and whether there are more. One row too many is fetched
and dropped. -/
def page (cursor : Option K) (rows : List R) : List R × Bool :=
  let fetched := (ordered key cursor rows).take (limit + 1)
  if limit < fetched.length then (fetched.dropLast, true) else (fetched, false)

/-- At most `n` pages from `cursor`, read from `reads i`, `reads (i + 1)` and so on. -/
def pages (reads : Nat → List R) : Nat → Nat → Option K → List (List R × Bool)
  | 0, _, _ => []
  | n + 1, i, cursor =>
      let p := page key limit cursor (reads i)
      match p.2, p.1.getLast? with
      | true, some last => p :: pages reads n (i + 1) (some (key last))
      | _, _ => [p]

/-! ## One page -/

section Page

variable {key limit} {cursor : Option K} {rows : List R} {r x : R}

theorem mem_ordered : r ∈ ordered key cursor rows ↔ r ∈ rows ∧ ∀ c ∈ cursor, c < key r := by
  unfold ordered
  rw [List.mem_insertionSort, List.mem_filter]
  cases cursor <;> simp

variable (cursor) in
theorem ordered_sorted (h : (rows.map key).Nodup) :
    (ordered key cursor rows).Pairwise fun a b => key a < key b :=
  insertionSort_strict (fun _ _ => Iff.rfl) (h.sublist (List.filter_sublist.map _))

theorem page_eq : page key limit cursor rows = ((ordered key cursor rows).take limit,
    decide (limit < (ordered key cursor rows).length)) := by
  unfold page
  by_cases h : limit < (ordered key cursor rows).length
  · have hlen : ((ordered key cursor rows).take (limit + 1)).length = limit + 1 := by
      rw [List.length_take]
      omega
    have hdrop : ((ordered key cursor rows).take (limit + 1)).dropLast =
        (ordered key cursor rows).take limit := by
      rw [List.dropLast_eq_take, hlen, List.take_take]
      congr 1
      omega
    simp only [hlen, hdrop, h, decide_true]
    simp
  · have hall : (ordered key cursor rows).length ≤ limit := Nat.le_of_not_lt h
    rw [List.take_of_length_le (Nat.le_succ_of_le hall), List.take_of_length_le hall]
    simp [h]

/-- A row of a page is a row beyond the cursor. -/
theorem mem_page (h : r ∈ (page key limit cursor rows).1) :
    r ∈ rows ∧ ∀ c ∈ cursor, c < key r := by
  rw [page_eq] at h
  exact mem_ordered.mp (List.mem_of_mem_take h)

variable (limit cursor) in
theorem page_sorted (h : (rows.map key).Nodup) :
    (page key limit cursor rows).1.Pairwise fun a b => key a < key b := by
  rw [page_eq]
  exact (ordered_sorted cursor h).sublist (List.take_sublist _ _)

variable (limit) in
/-- A row beyond the cursor is on the page, or there is more and it is beyond the page. -/
theorem page_cases (h : (rows.map key).Nodup) (hr : r ∈ rows) (hc : ∀ c ∈ cursor, c < key r) :
    r ∈ (page key limit cursor rows).1 ∨ ((page key limit cursor rows).2 = true ∧
      ∀ x ∈ (page key limit cursor rows).1, key x < key r) := by
  have hmem := mem_ordered.mpr ⟨hr, hc⟩
  have hsorted := ordered_sorted cursor h
  rw [page_eq]
  rw [← List.take_append_drop limit (ordered key cursor rows)] at hmem hsorted
  rcases List.mem_append.mp hmem with htake | hdrop
  · exact Or.inl htake
  · refine Or.inr ⟨decide_eq_true ?_, fun x hx => ?_⟩
    swap
    · exact (List.pairwise_append.mp hsorted).2.2 x hx r hdrop
    have hpos := List.length_pos_of_mem hdrop
    rw [List.length_drop] at hpos
    omega

/-- **More.** There is more exactly when a row is beyond the cursor and the page. -/
theorem page_more (h : (rows.map key).Nodup) : (page key limit cursor rows).2 = true ↔
    ∃ r ∈ rows, (∀ c ∈ cursor, c < key r) ∧
      ∀ x ∈ (page key limit cursor rows).1, key x < key r := by
  constructor
  · intro hmore
    have hsorted := ordered_sorted cursor h
    rw [page_eq] at hmore ⊢
    have hlt := of_decide_eq_true hmore
    have hdrop : (ordered key cursor rows)[limit] ∈ (ordered key cursor rows).drop limit := by
      rw [List.drop_eq_getElem_cons hlt]
      exact List.mem_cons_self
    obtain ⟨hr, hc⟩ := mem_ordered.mp (List.mem_of_mem_drop hdrop)
    rw [← List.take_append_drop limit (ordered key cursor rows)] at hsorted
    exact ⟨_, hr, hc, fun x hx => (List.pairwise_append.mp hsorted).2.2 x hx _ hdrop⟩
  · rintro ⟨r, hr, hc, hbeyond⟩
    rcases page_cases limit h hr hc with hin | ⟨hmore, _⟩
    · exact absurd (hbeyond r hin) (lt_irrefl _)
    · exact hmore

/-- A page with more after it is full. -/
theorem page_full (h : (page key limit cursor rows).2 = true) :
    (page key limit cursor rows).1.length = limit := by
  rw [page_eq] at h ⊢
  have hlt := of_decide_eq_true h
  show ((ordered key cursor rows).take limit).length = limit
  rw [List.length_take]
  omega

/-- The rows of a page do not come after its last row. -/
theorem page_last (h : (rows.map key).Nodup) {last : R}
    (hlast : (page key limit cursor rows).1.getLast? = some last)
    (hx : x ∈ (page key limit cursor rows).1) : key x ≤ key last := by
  have hsorted := page_sorted limit cursor h
  obtain ⟨front, hfront⟩ := List.getLast?_eq_some_iff.mp hlast
  rw [hfront] at hsorted hx
  rcases List.mem_append.mp hx with hin | hend
  · exact ((List.pairwise_append.mp hsorted).2.2 x hin last List.mem_cons_self).le
  · rw [List.mem_singleton.mp hend]

variable (key limit cursor rows) in
/-- A row at the end of a page with more after it: one row fewer than the page holds lies between
the cursor and it, and another row beyond it. -/
structure Closes (r : R) : Prop where
  mem : r ∈ rows
  beyond : ∀ c ∈ cursor, c < key r
  place : ahead key (rows.filter fun x => cursor.all fun c => decide (c < key x)) (key r) + 1 =
    limit
  more : ∃ x ∈ rows, key r < key x

/-- **The end of a page.** -/
theorem closes_iff (h : (rows.map key).Nodup) (hlimit : 0 < limit) :
    Closes key limit cursor rows r ↔ (page key limit cursor rows).2 = true ∧
      (page key limit cursor rows).1.getLast? = some r := by
  have hsorted := ordered_sorted cursor h
  have hperm : ahead key (ordered key cursor rows) (key r) =
      ahead key (rows.filter fun x => cursor.all fun c => decide (c < key x)) (key r) :=
    ahead_perm (List.perm_insertionSort _ _) _
  rw [page_eq]
  simp only [decide_eq_true_eq, List.getLast?_take, if_neg (Nat.ne_of_gt hlimit)]
  constructor
  · rintro ⟨hmem, hbeyond, hplace, x, hx, hlt⟩
    rw [← hperm] at hplace
    have hget : (ordered key cursor rows)[limit - 1]? = some r :=
      (getElem?_sorted hsorted).mpr ⟨mem_ordered.mpr ⟨hmem, hbeyond⟩, by omega⟩
    refine ⟨?_, by rw [hget, Option.some_or]⟩
    -- `x` is fetched behind `r`
    obtain ⟨n, hn, rfl⟩ := List.getElem_of_mem
      (mem_ordered.mpr ⟨hx, fun c hc => (hbeyond c hc).trans hlt⟩)
    obtain ⟨hk, rfl⟩ := List.getElem?_eq_some_iff.mp hget
    by_contra hshort
    rcases Nat.lt_or_ge n (limit - 1) with hbefore | hafter
    · exact lt_asymm hlt (List.pairwise_iff_getElem.mp hsorted _ _ hn hk hbefore)
    · obtain rfl : n = limit - 1 := by omega
      exact lt_irrefl _ hlt
  · rintro ⟨hlong, hlast⟩
    have hk : limit - 1 < (ordered key cursor rows).length := by omega
    rw [List.getElem?_eq_getElem hk, Option.some_or, Option.some.injEq] at hlast
    obtain ⟨hmem, hplace⟩ := (getElem?_sorted hsorted).mp (List.getElem?_eq_some_iff.mpr ⟨hk, hlast⟩)
    obtain ⟨hr, hbeyond⟩ := mem_ordered.mp hmem
    refine ⟨hr, hbeyond, by omega, (ordered key cursor rows)[limit], ?_, ?_⟩
    · exact (mem_ordered.mp (List.getElem_mem hlong)).1
    · rw [← hlast]
      exact List.pairwise_iff_getElem.mp hsorted _ _ hk hlong (by omega)

end Page

/-! ## The pages -/

section Pages

variable {key limit} {reads : Nat → List R} {n i : Nat} {cursor : Option K}

/-- The rows of the pages. -/
def returned (pages : List (List R × Bool)) : List R := pages.flatMap Prod.fst

variable (key limit reads n i cursor) in
theorem pages_succ (hlimit : 0 < limit) :
    (pages key limit reads (n + 1) i cursor = [page key limit cursor (reads i)] ∧
      (page key limit cursor (reads i)).2 = false) ∨
    ∃ last, (page key limit cursor (reads i)).1.getLast? = some last ∧
      (page key limit cursor (reads i)).2 = true ∧
      pages key limit reads (n + 1) i cursor =
        page key limit cursor (reads i) :: pages key limit reads n (i + 1) (some (key last)) := by
  cases hmore : (page key limit cursor (reads i)).2 with
  | false =>
      refine Or.inl ⟨?_, rfl⟩
      simp only [pages, hmore]
  | true =>
      cases hlast : (page key limit cursor (reads i)).1.getLast? with
      | none =>
          have hfull := page_full hmore
          rw [List.getLast?_eq_none_iff.mp hlast] at hfull
          simp at hfull
          omega
      | some last =>
          refine Or.inr ⟨last, rfl, rfl, ?_⟩
          simp only [pages, hmore, hlast]

/-- A page with more after it is full. -/
theorem pages_full {p : List R × Bool} (hp : p ∈ pages key limit reads n i cursor)
    (hmore : p.2 = true) : p.1.length = limit := by
  induction n generalizing i cursor with
  | zero => cases hp
  | succ n ih =>
      unfold pages at hp
      simp only at hp
      split at hp
      · rcases List.mem_cons.mp hp with rfl | hrest
        · exact page_full hmore
        · exact ih hrest
      · obtain rfl := List.mem_singleton.mp hp
        exact page_full hmore

variable (hkeys : ∀ i, ((reads i).map key).Nodup) (hlimit : 0 < limit)
include hlimit

/-- The rows of every page are beyond the first cursor. -/
theorem pages_beyond {r : R} (hr : r ∈ returned (pages key limit reads n i cursor)) :
    ∀ c ∈ cursor, c < key r := by
  induction n generalizing i cursor with
  | zero => cases hr
  | succ n ih =>
      rcases pages_succ key limit reads n i cursor hlimit with ⟨heq, _⟩ | ⟨last, hlast, _, heq⟩
      · rw [heq] at hr
        simp only [returned, List.flatMap_cons, List.flatMap_nil, List.append_nil] at hr
        exact (mem_page hr).2
      · rw [heq] at hr
        rcases List.mem_append.mp hr with hfirst | hrest
        · exact (mem_page hfirst).2
        · intro c hc
          have hin := (mem_page (List.mem_of_getLast? hlast)).2 c hc
          exact hin.trans (ih hrest _ rfl)

/-- Page `k` shows rows of the read it was made at. -/
theorem pages_read {k : Nat} {p : List R × Bool}
    (hp : (pages key limit reads n i cursor)[k]? = some p) : ∀ r ∈ p.1, r ∈ reads (i + k) := by
  induction n generalizing i cursor k with
  | zero => cases hp
  | succ n ih =>
      rcases pages_succ key limit reads n i cursor hlimit with ⟨heq, _⟩ | ⟨last, _, _, heq⟩
      · rw [heq] at hp
        cases k with
        | zero =>
            obtain rfl := Option.some.inj hp
            exact fun r hr => (mem_page hr).1
        | succ k => cases hp
      · rw [heq] at hp
        cases k with
        | zero =>
            obtain rfl := Option.some.inj hp
            exact fun r hr => (mem_page hr).1
        | succ k =>
            have hread := ih hp
            rwa [Nat.add_assoc, Nat.add_comm 1 k] at hread

include hkeys

variable (n i cursor) in
/-- **Order.** The keys increase, from row to row and from page to page. -/
theorem pages_sorted : (returned (pages key limit reads n i cursor)).Pairwise
    fun a b => key a < key b := by
  induction n generalizing i cursor with
  | zero => exact .nil
  | succ n ih =>
      rcases pages_succ key limit reads n i cursor hlimit with ⟨heq, _⟩ | ⟨last, hlast, _, heq⟩
      · rw [heq]
        simp only [returned, List.flatMap_cons, List.flatMap_nil, List.append_nil]
        exact page_sorted _ _ (hkeys i)
      · rw [heq]
        refine List.pairwise_append.mpr ⟨page_sorted _ _ (hkeys i), ih _ _, fun a ha b hb => ?_⟩
        exact (page_last (hkeys i) hlast ha).trans_lt (pages_beyond hlimit hb _ rfl)

/-- A page says that there is more exactly when its read has a row beyond every row returned
so far. -/
theorem pages_more {k : Nat} {p : List R × Bool}
    (hp : (pages key limit reads n i cursor)[k]? = some p) : p.2 = true ↔
    ∃ r ∈ reads (i + k), (∀ c ∈ cursor, c < key r) ∧
      ∀ x ∈ returned ((pages key limit reads n i cursor).take (k + 1)), key x < key r := by
  induction n generalizing i cursor k with
  | zero => cases hp
  | succ n ih =>
      have hfirst : (page key limit cursor (reads i)).2 = true ↔ ∃ r ∈ reads i,
          (∀ c ∈ cursor, c < key r) ∧
          ∀ x ∈ returned [page key limit cursor (reads i)], key x < key r := by
        simp only [returned, List.flatMap_cons, List.flatMap_nil, List.append_nil]
        exact page_more (hkeys i)
      rcases pages_succ key limit reads n i cursor hlimit with ⟨heq, _⟩ | ⟨last, hlast, _, heq⟩
      · rw [heq] at hp ⊢
        cases k with
        | zero =>
            obtain rfl := Option.some.inj hp
            exact hfirst
        | succ k => cases hp
      · rw [heq] at hp ⊢
        cases k with
        | zero =>
            obtain rfl := Option.some.inj hp
            exact hfirst
        | succ k =>
            have hrest := ih hp
            rw [Nat.add_assoc, Nat.add_comm 1 k] at hrest
            refine hrest.trans (exists_congr fun r => and_congr_right fun _ => ?_)
            have hin := List.mem_of_getLast? hlast
            simp only [returned, List.take_succ_cons, List.flatMap_cons, List.mem_append]
            constructor
            · rintro ⟨hlate, hbeyond⟩
              have hr : key last < key r := hlate _ rfl
              refine ⟨fun c hc => ((mem_page hin).2 c hc).trans hr, ?_⟩
              rintro x (hx | hx)
              · exact (page_last (hkeys i) hlast hx).trans_lt hr
              · exact hbeyond x hx
            · rintro ⟨_, hbeyond⟩
              refine ⟨fun c hc => ?_, fun x hx => hbeyond x (Or.inr hx)⟩
              obtain rfl := Option.some.inj hc
              exact hbeyond last (Or.inl hin)

/-- **Completeness.** Pages that came to an end returned every key that all their reads had. -/
theorem pages_complete (hend : ∃ p ∈ pages key limit reads n i cursor, p.2 = false) {c : K}
    (hc : ∀ d ∈ cursor, d < c) (hall : ∀ k < (pages key limit reads n i cursor).length,
      ∃ r ∈ reads (i + k), key r = c) :
    ∃ r ∈ returned (pages key limit reads n i cursor), key r = c := by
  induction n generalizing i cursor with
  | zero =>
      obtain ⟨p, hp, _⟩ := hend
      cases hp
  | succ n ih =>
      rcases pages_succ key limit reads n i cursor hlimit with
        ⟨heq, hlast⟩ | ⟨last, hlast, hmore, heq⟩
      · rw [heq] at hall ⊢
        obtain ⟨r, hr, rfl⟩ := hall 0 (by simp)
        rcases page_cases limit (hkeys i) hr hc with hin | ⟨hmore, _⟩
        · exact ⟨r, by simpa [returned] using hin, rfl⟩
        · rw [hlast] at hmore
          cases hmore
      · rw [heq] at hall hend ⊢
        obtain ⟨r, hr, rfl⟩ := hall 0 (by simp)
        rcases page_cases limit (hkeys i) hr hc with hin | ⟨_, hbeyond⟩
        · exact ⟨r, List.mem_append_left _ hin, rfl⟩
        · have hend' : ∃ p ∈ pages key limit reads n (i + 1) (some (key last)), p.2 = false := by
            obtain ⟨p, hp, hfalse⟩ := hend
            rcases List.mem_cons.mp hp with rfl | hrest
            · rw [hmore] at hfalse
              cases hfalse
            · exact ⟨p, hrest, hfalse⟩
          obtain ⟨r', hr', hkey⟩ := ih hend' (fun d hd => by
            obtain rfl := Option.some.inj hd
            exact hbeyond last (List.mem_of_getLast? hlast)) fun k hk => by
              have hnext := hall (k + 1) (by simpa using hk)
              rwa [Nat.add_assoc, Nat.add_comm 1 k]
          exact ⟨r', List.mem_append_right _ hr', hkey⟩

omit hkeys in
/-- Once the keys stay in a finite set, every page uses one of them up. -/
theorem pages_exhaust {S : Finset K} (hfinite : ∀ j, i ≤ j → ∀ r ∈ reads j, key r ∈ S)
    (hn : (S.filter fun k => ∀ c ∈ cursor, c < k).card < n) :
    ∃ p ∈ pages key limit reads n i cursor, p.2 = false := by
  induction n generalizing i cursor with
  | zero => omega
  | succ n ih =>
      rcases pages_succ key limit reads n i cursor hlimit with ⟨heq, hlast⟩ | ⟨last, hlast, _, heq⟩
      · rw [heq]
        exact ⟨_, List.mem_cons_self, hlast⟩
      · obtain ⟨hread, hbeyond⟩ := mem_page (List.mem_of_getLast? hlast)
        have hsmaller : (S.filter fun k => ∀ c ∈ some (key last), c < k).card <
            (S.filter fun k => ∀ c ∈ cursor, c < k).card := by
          refine Finset.card_lt_card (Finset.ssubset_iff_of_subset ?_ |>.mpr ⟨key last, ?_, ?_⟩)
          · intro k hk
            obtain ⟨hS, hk⟩ := Finset.mem_filter.mp hk
            exact Finset.mem_filter.mpr ⟨hS, fun c hc => (hbeyond c hc).trans (hk _ rfl)⟩
          · exact Finset.mem_filter.mpr ⟨hfinite i (Nat.le_refl i) last hread, hbeyond⟩
          · intro hmem
            exact lt_irrefl _ ((Finset.mem_filter.mp hmem).2 _ rfl)
        obtain ⟨p, hp, hfalse⟩ := @ih (i + 1) (some (key last))
          (fun j hj => hfinite j (Nat.le_of_succ_le hj)) (by omega)
        rw [heq]
        exact ⟨p, List.mem_cons_of_mem _ hp, hfalse⟩

omit hkeys in
variable (cursor) in
/-- **End.** The pages come to an end once the keys stay in a finite set. -/
theorem pages_end {S : Finset K} {m : Nat} (hfinite : ∀ j, i + m ≤ j → ∀ r ∈ reads j, key r ∈ S)
    (hn : S.card < n) : ∃ p ∈ pages key limit reads (m + n) i cursor, p.2 = false := by
  induction m generalizing i cursor with
  | zero =>
      rw [Nat.zero_add]
      exact pages_exhaust hlimit hfinite ((Finset.card_filter_le _ _).trans_lt hn)
  | succ m ih =>
      rw [Nat.succ_add]
      rcases pages_succ key limit reads (m + n) i cursor hlimit with
        ⟨heq, hlast⟩ | ⟨last, _, _, heq⟩
      · rw [heq]
        exact ⟨_, List.mem_cons_self, hlast⟩
      · obtain ⟨p, hp, hfalse⟩ := @ih (i + 1) (some (key last))
          fun j hj => hfinite j (by omega)
        rw [heq]
        exact ⟨p, List.mem_cons_of_mem _ hp, hfalse⟩

end Pages

end Keyset

end Logic
