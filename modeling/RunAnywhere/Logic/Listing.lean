import RunAnywhere.Logic.Keyset
import RunAnywhere.Logic.TSys

/-!
# Paged listings of a changing store

A listing shows the rows of a table that it selects, page by page. Its caller follows the
cursor of each page to the next while the store moves on. `Listing.Complete` says what the
pages read so far are owed to their reads; a listing whose pages are keyset pages is complete
along every history that keeps the key of a row (`Listing.paged`).
-/

namespace Logic

variable {S R K I α C ε : Type*}

/-- A page as it is returned. -/
structure Page (α C : Type*) where
  items : List α
  nextCursor : Option C
  deriving DecidableEq

/-- The caller: at most `n` pages from `cursor`, read from `reads i`, `reads (i + 1)` and so
on. -/
def traverse (list : S → Option C → Except ε (Page α C)) (reads : Nat → S) :
    Nat → Nat → Option C → Except ε (List (Page α C))
  | 0, _, _ => .ok []
  | n + 1, i, cursor =>
      match list (reads i) cursor with
      | .error e => .error e
      | .ok page =>
          match page.nextCursor with
          | none => .ok [page]
          | some next => (traverse list reads n (i + 1) (some next)).map (page :: ·)

/-- A listing: the rows of its table, which of them it selects, the key and the identifier of
a row, and what it shows of it. -/
structure Listing (S R K I α : Type*) where
  table : S → List R
  selects : R → Bool
  key : R → K
  id : R → I
  item : R → α

namespace Listing

variable [LinearOrder K] (L : Listing S R K I α)

/-- The rows the listing selects. -/
def matching (s : S) : List R := (L.table s).filter L.selects

/-- What pages are owed to the reads they were made at: they show matching rows in the order
of their keys, each once; a page names no next one exactly when its read has no matching row
beyond the rows shown so far; pages that came to an end show every row that matched in every
read. -/
structure Complete (reads : Nat → S) (pages : List (Page α C)) (shown : List (List R)) : Prop where
  items : pages.map (·.items) = shown.map (·.map L.item)
  read : ∀ k rows, shown[k]? = some rows → ∀ r ∈ rows, r ∈ L.matching (reads k)
  ordered : shown.flatten.Pairwise fun a b => L.key a < L.key b
  once : (shown.flatten.map L.id).Nodup
  next : ∀ k page, pages[k]? = some page → (page.nextCursor = none ↔
    ¬ ∃ r ∈ L.matching (reads k), ∀ x ∈ (shown.take (k + 1)).flatten, L.key x < L.key r)
  all : (∃ page ∈ pages, page.nextCursor = none) → ∀ i,
    (∀ k < pages.length, ∃ r ∈ L.matching (reads k), L.id r = i) →
      ∃ r ∈ shown.flatten, L.id r = i

/-- The listing is paged along the histories: however far it is followed, its pages are
complete; and they end, at the latest when every row there was when inserts stopped had a page
of its own. -/
structure Paged (history : (Nat → S) → Prop) (list : S → Option C → Except ε (Page α C)) :
    Prop where
  pages : ∀ reads, history reads → ∀ n, ∃ pages shown,
    traverse list reads n 0 none = .ok pages ∧ L.Complete reads pages shown
  ends : ∀ reads, history reads → ∀ m,
    (∀ k, m ≤ k → ∀ r ∈ L.table (reads k), ∃ r' ∈ L.table (reads m), L.id r' = L.id r) →
      ∃ pages, traverse list reads (m + (L.table (reads m)).length + 1) 0 none = .ok pages ∧
        ∃ page ∈ pages, page.nextCursor = none

/-- The keys of a table are distinct and name the rows, and a history keeps the key of a
row. -/
structure Lawful (history : (Nat → S) → Prop) : Prop where
  keys : ∀ s, ((L.table s).map L.key).Nodup
  names : ∀ r r', L.key r = L.key r' → L.id r = L.id r'
  stable : ∀ reads, history reads → ∀ i k, ∀ r ∈ L.table (reads i), ∀ r' ∈ L.table (reads k),
    L.id r = L.id r' → L.key r = L.key r'

section Lawful

variable {L}

omit [LinearOrder K] in
/-- Keys that name the rows of a table that has each row once are distinct. -/
theorem keys_nodup (names : ∀ r r', L.key r = L.key r' → L.id r = L.id r') {s : S}
    (h : ((L.table s).map L.id).Nodup) : ((L.table s).map L.key).Nodup := by
  rw [List.Nodup, List.pairwise_map] at h ⊢
  exact h.imp fun hne hkey => hne (names _ _ hkey)

omit [LinearOrder K] in
/-- **Steps.** A listing is lawful along the runs of a system whose steps keep every row with
its key. -/
theorem Lawful.of_steps {ℓ : Type*} {T : TSys S ℓ} (ids : ∀ s, ((L.table s).map L.id).Nodup)
    (names : ∀ r r', L.key r = L.key r' → L.id r = L.id r')
    (hstep : ∀ s l s', T.Reachable s → T.step s l s' → ∀ r ∈ L.table s,
      ∃ r' ∈ L.table s', L.id r' = L.id r ∧ L.key r' = L.key r) : L.Lawful T.Observed := by
  have hlater {reads : Nat → S} (hreads : T.Observed reads) {i k : Nat} (hle : i ≤ k) {r r' : R}
      (hr : r ∈ L.table (reads i)) (hr' : r' ∈ L.table (reads k)) (hid : L.id r = L.id r') :
      L.key r = L.key r' := by
    obtain ⟨ls, hrun⟩ := hreads.run hle
    have hkept := hrun.preserves (P := fun s => ∃ x ∈ L.table s, L.id x = L.id r ∧
      L.key x = L.key r) (fun s l s' hs hP hl => by
        obtain ⟨x, hx, hxid, hxkey⟩ := hP
        obtain ⟨y, hy, hyid, hykey⟩ := hstep s l s' hs hl x hx
        exact ⟨y, hy, hyid.trans hxid, hykey.trans hxkey⟩) (hreads.reachable i) ⟨r, hr, rfl, rfl⟩
    obtain ⟨x, hx, hxid, hxkey⟩ := hkept
    rw [← hxkey, List.inj_on_of_nodup_map (ids _) hx hr' (hxid.trans hid)]
  constructor
  · exact fun s => keys_nodup names (ids s)
  · exact names
  · intro reads hreads i k r hr r' hr' hid
    rcases Nat.le_total i k with hle | hle
    · exact hlater hreads hle hr hr' hid
    · exact (hlater hreads hle hr' hr hid.symm).symm

omit [LinearOrder K] in
/-- A listing whose keys are its identifiers is lawful along every history. -/
theorem Lawful.of_names {history : (Nat → S) → Prop}
    (ids : ∀ s, ((L.table s).map L.id).Nodup)
    (names : ∀ r r', L.key r = L.key r' ↔ L.id r = L.id r') : L.Lawful history := by
  constructor
  · exact fun s => keys_nodup (fun r r' => (names r r').mp) (ids s)
  · exact fun r r' => (names r r').mp
  · exact fun _ _ _ _ r _ r' _ => (names r r').mpr

end Lawful

/-- What is returned of a keyset page. -/
def toPage (encode : K → C) (p : List R × Bool) : Page α C where
  items := p.1.map L.item
  nextCursor := if p.2 then p.1.getLast?.map fun r => encode (L.key r) else none

/-- The keyset page of the listing. -/
def present (encode : K → C) (limit : Nat) (cursor : Option K) (s : S) : Page α C :=
  L.toPage encode (Keyset.page L.key limit cursor (L.matching s))

section Paged

variable {L} {history : (Nat → S) → Prop} {list : S → Option C → Except ε (Page α C)}
  {encode : K → C} {limit : Nat}

/-- A caller that follows the cursors reads the keyset pages. -/
theorem traverse_eq {reads : Nat → S} (hlist : ∀ k cursor,
      list (reads k) (cursor.map encode) = .ok (L.present encode limit cursor (reads k)))
    (n i : Nat) (cursor : Option K) : traverse list reads n i (cursor.map encode) =
      .ok ((Keyset.pages L.key limit (fun k => L.matching (reads k)) n i cursor).map
        (L.toPage encode)) := by
  induction n generalizing i cursor with
  | zero => rfl
  | succ n ih =>
      unfold traverse Keyset.pages
      rw [hlist]
      simp only [present]
      generalize Keyset.page L.key limit cursor (L.matching (reads i)) = p
      obtain ⟨rows, more⟩ := p
      cases more with
      | false => simp [toPage]
      | true =>
          cases hlast : rows.getLast? with
          | none => simp [toPage, hlast]
          | some last =>
              have hrest := ih (i + 1) (some (L.key last))
              simp only [Option.map_some] at hrest
              simp [toPage, hlast, hrest, Except.map]

/-- A page names no next one exactly when there is no more. -/
theorem toPage_next {reads : Nat → S} (hlimit : 0 < limit) {n i : Nat} {cursor : Option K}
    {p : List R × Bool}
    (hp : p ∈ Keyset.pages L.key limit (fun k => L.matching (reads k)) n i cursor) :
    (L.toPage encode p).nextCursor = none ↔ p.2 = false := by
  have hfull := Keyset.pages_full hp
  unfold toPage
  cases hmore : p.2 with
  | false => simp
  | true =>
      have hlen := hfull hmore
      have hne : p.1 ≠ [] := by
        intro hnil
        rw [hnil] at hlen
        simp at hlen
        omega
      simp [hne]

omit [LinearOrder K] in
/-- Two reads of a lawful listing agree on the key of a row. -/
theorem Lawful.matching_key (hL : L.Lawful history) {reads : Nat → S} (hreads : history reads)
    {i k : Nat} {r r' : R} (hr : r ∈ L.matching (reads i)) (hr' : r' ∈ L.matching (reads k))
    (hid : L.id r = L.id r') : L.key r = L.key r' :=
  hL.stable reads hreads i k r (List.mem_filter.mp hr).1 r' (List.mem_filter.mp hr').1 hid

omit [LinearOrder K] in
theorem Lawful.matching_keys (hL : L.Lawful history) (s : S) : ((L.matching s).map L.key).Nodup :=
  (hL.keys s).sublist (List.filter_sublist.map _)

/-- A row of keyset pages is a matching row of one of their reads. -/
theorem mem_returned {reads : Nat → S} (hlimit : 0 < limit) {n : Nat} {r : R}
    (hr : r ∈ Keyset.returned
      (Keyset.pages L.key limit (fun k => L.matching (reads k)) n 0 none)) :
    ∃ k, r ∈ L.matching (reads k) := by
  obtain ⟨p, hp, hin⟩ := List.mem_flatMap.mp hr
  obtain ⟨k, hk⟩ := List.mem_iff_getElem?.mp hp
  have hread := Keyset.pages_read hlimit hk r hin
  rw [Nat.zero_add] at hread
  exact ⟨k, hread⟩

/-- Keyset pages are complete. -/
theorem complete_pages (hL : L.Lawful history) (hlimit : 0 < limit) {reads : Nat → S}
    (hreads : history reads) (n : Nat) :
    L.Complete reads ((Keyset.pages L.key limit (fun k => L.matching (reads k)) n 0 none).map
        (L.toPage encode))
      ((Keyset.pages L.key limit (fun k => L.matching (reads k)) n 0 none).map Prod.fst) := by
  have hkeys (k : Nat) : ((L.matching (reads k)).map L.key).Nodup := hL.matching_keys (reads k)
  have hordered := Keyset.pages_sorted n 0 none hkeys hlimit
  have hshown (pages : List (List R × Bool)) :
      (pages.map Prod.fst).flatten = Keyset.returned pages := by
    rw [Keyset.returned, List.flatMap_def]
  constructor
  · rw [List.map_map, List.map_map]
    rfl
  · intro k rows hk r hr
    rw [List.getElem?_map] at hk
    obtain ⟨p, hp, rfl⟩ := Option.map_eq_some_iff.mp hk
    have hread := Keyset.pages_read hlimit hp r hr
    rwa [Nat.zero_add] at hread
  · rw [hshown]
    exact hordered
  · rw [hshown]
    refine List.pairwise_map.mpr (hordered.imp_of_mem fun {a b} ha hb hlt hid => ?_)
    obtain ⟨i, hi⟩ := mem_returned hlimit ha
    obtain ⟨k, hk⟩ := mem_returned hlimit hb
    rw [hL.matching_key hreads hi hk hid] at hlt
    exact lt_irrefl _ hlt
  · intro k page hk
    rw [List.getElem?_map] at hk
    obtain ⟨p, hp, rfl⟩ := Option.map_eq_some_iff.mp hk
    have hmore := Keyset.pages_more hkeys hlimit hp
    rw [toPage_next hlimit (List.mem_of_getElem? hp), ← List.map_take, hshown,
      ← Bool.not_eq_true, not_congr hmore, Nat.zero_add]
    simp
  · rintro ⟨page, hpage, hnone⟩ i hall
    obtain ⟨p, hp, rfl⟩ := List.mem_map.mp hpage
    have hlast := (toPage_next hlimit hp).mp hnone
    rw [List.length_map] at hall
    have hpos : 0 < (Keyset.pages L.key limit (fun k => L.matching (reads k)) n 0 none).length :=
      List.length_pos_of_mem hp
    -- the key of the row, the same in every read
    obtain ⟨r₀, hr₀, hid₀⟩ := hall 0 hpos
    obtain ⟨r, hr, hkey⟩ := Keyset.pages_complete hkeys hlimit ⟨p, hp, hlast⟩ (c := L.key r₀)
      (fun d hd => by cases hd) fun k hk => by
        obtain ⟨r', hr', hid'⟩ := hall k hk
        rw [Nat.zero_add]
        exact ⟨r', hr', hL.matching_key hreads hr' hr₀ (hid'.trans hid₀.symm)⟩
    rw [hshown]
    exact ⟨r, hr, (hL.names r r₀ hkey).trans hid₀⟩

/-- **Keyset listings are paged.** -/
theorem paged (hL : L.Lawful history) (hlimit : 0 < limit)
    (hlist : ∀ reads, history reads → ∀ k cursor, list (reads k) (cursor.map encode) =
      .ok (L.present encode limit cursor (reads k))) : L.Paged history list := by
  have htraverse {reads : Nat → S} (hreads : history reads) (n : Nat) :
      traverse list reads n 0 none = .ok ((Keyset.pages L.key limit
        (fun k => L.matching (reads k)) n 0 none).map (L.toPage encode)) :=
    traverse_eq (hlist reads hreads) n 0 none
  constructor
  · intro reads hreads n
    exact ⟨_, _, htraverse hreads n, complete_pages hL hlimit hreads n⟩
  · intro reads hreads m hstop
    have hcard : (((L.table (reads m)).map L.key).toFinset).card <
        (L.table (reads m)).length + 1 := by
      have hle := List.toFinset_card_le ((L.table (reads m)).map L.key)
      rw [List.length_map] at hle
      omega
    have hfinite : ∀ j, 0 + m ≤ j → ∀ r ∈ L.matching (reads j),
        L.key r ∈ ((L.table (reads m)).map L.key).toFinset := by
      intro j hj r hr
      have htable := (List.mem_filter.mp hr).1
      obtain ⟨r', hr', hid⟩ := hstop j (by omega) r htable
      rw [← hL.stable reads hreads m j r' hr' r htable hid]
      exact List.mem_toFinset.mpr (List.mem_map_of_mem hr')
    obtain ⟨p, hp, hlast⟩ := Keyset.pages_end none hlimit hfinite hcard
    refine ⟨_, htraverse hreads _, L.toPage encode p, ?_, ?_⟩
    · rw [Nat.add_assoc]
      exact List.mem_map_of_mem hp
    · exact (toPage_next hlimit hp).mpr hlast

end Paged

end Listing

end Logic
