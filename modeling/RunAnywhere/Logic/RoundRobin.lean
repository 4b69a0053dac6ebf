import Mathlib.Data.List.Chain
import Mathlib.Data.List.Nodup
import Mathlib.Data.List.Duplicate
import Mathlib.Data.List.Perm.Subperm

/-!
# Round robin

A ring of keys is served at its head: the key served leaves the ring or goes to its end,
and between two turns new keys join at the end. `Rounds` is any number of turns, each
recorded with the keys that wait behind the one served.

* **precedence** — a key ahead of another is served first (`Rounds.ahead`), and a key just
  served is behind everyone who waits, so between two turns of one key every key that
  waited has its turn (`Rounds.between`);
* **fairness** — two keys that wait at every turn alternate (`Rounds.alternates`), have one
  turn each between two turns of the other (`Rounds.once`), and `n` such keys make any `n`
  consecutive turns go to different keys (`Rounds.distinct`).
-/

namespace Logic

variable {κ : Type*}

/-- The turns of a ring, oldest first: the key served and the keys behind it. -/
inductive Rounds : List κ → List (κ × List κ) → List κ → Prop
  | nil (ring) : Rounds ring [] ring
  | join {ring turns ring' k} : k ∉ ring → Rounds (ring ++ [k]) turns ring' →
      Rounds ring turns ring'
  | leave {k rest turns ring'} : Rounds rest turns ring' →
      Rounds (k :: rest) ((k, rest) :: turns) ring'
  | again {k rest turns ring'} : Rounds (rest ++ [k]) turns ring' →
      Rounds (k :: rest) ((k, rest) :: turns) ring'

/-- Key `a` is in the ring, and `b` is not before it. -/
def Ahead (a b : κ) (ring : List κ) : Prop :=
  ∃ before behind, ring = before ++ a :: behind ∧ b ∉ before

/-- The keys that wait at a turn, the one served included. -/
def waiting (turn : κ × List κ) : List κ := turn.1 :: turn.2

theorem nodup_snoc {k : κ} {ring : List κ} (hk : k ∉ ring) (h : ring.Nodup) :
    (ring ++ [k]).Nodup := by
  rw [List.nodup_append]
  refine ⟨h, List.nodup_singleton k, ?_⟩
  rintro a ha b hb rfl
  exact hk (List.mem_singleton.mp hb ▸ ha)

theorem Ahead.append {a b : κ} {ring : List κ} (h : Ahead a b ring) (behind' : List κ) :
    Ahead a b (ring ++ behind') := by
  obtain ⟨before, behind, rfl, hb⟩ := h
  exact ⟨before, behind ++ behind', by simp, hb⟩

/-- Behind a key just served wait all the others. -/
theorem ahead_of_mem {a b : κ} {rest : List κ} (ha : a ∈ rest) (hb : b ∉ rest) :
    Ahead a b rest := by
  obtain ⟨before, behind, rfl⟩ := List.append_of_mem ha
  refine ⟨before, behind, rfl, ?_⟩
  intro hmem
  exact hb (List.mem_append_left _ hmem)

/-- A list with a duplicate, taken apart at two of its places. -/
theorem duplicate_split {x : κ} {l : List κ} (h : List.Duplicate x l) :
    ∃ s t u, l = s ++ x :: (t ++ x :: u) := by
  induction h with
  | cons_mem hmem =>
      obtain ⟨t, u, rfl⟩ := List.append_of_mem hmem
      exact ⟨[], t, u, rfl⟩
  | @cons_duplicate y _ _ ih =>
      obtain ⟨s, t, u, rfl⟩ := ih
      exact ⟨y :: s, t, u, rfl⟩

namespace Rounds

/-- The state before the first turn: its key waits once, and the rest of the ring is
behind it. -/
theorem first {ring ring' : List κ} {turn : κ × List κ} {turns : List (κ × List κ)}
    (h : Rounds ring (turn :: turns) ring') (hnodup : ring.Nodup) :
    turn.1 ∉ turn.2 ∧ ∃ ring₁, ring₁.Nodup ∧ (ring₁ = turn.2 ∨ ring₁ = turn.2 ++ [turn.1]) ∧
      Rounds ring₁ turns ring' := by
  generalize hall : turn :: turns = all at h
  induction h with
  | nil => cases hall
  | join hk _ ih => exact ih (nodup_snoc hk hnodup) hall
  | leave hrest =>
      cases hall
      obtain ⟨hout, hrestNodup⟩ := List.nodup_cons.mp hnodup
      exact ⟨hout, _, hrestNodup, Or.inl rfl, hrest⟩
  | again hrest =>
      cases hall
      obtain ⟨hout, hrestNodup⟩ := List.nodup_cons.mp hnodup
      exact ⟨hout, _, nodup_snoc hout hrestNodup, Or.inr rfl, hrest⟩

/-- The turns after some first ones are turns of a ring. -/
theorem drop {ring ring' : List κ} {pre turns : List (κ × List κ)}
    (h : Rounds ring (pre ++ turns) ring') (hnodup : ring.Nodup) :
    ∃ ring₁, ring₁.Nodup ∧ Rounds ring₁ turns ring' := by
  induction pre generalizing ring with
  | nil => exact ⟨ring, hnodup, h⟩
  | cons turn pre ih =>
      obtain ⟨_, ring₁, hnodup₁, _, hrest⟩ := first h hnodup
      exact ih hrest hnodup₁

/-- **Precedence.** A key is not served before one that is ahead of it. -/
theorem ahead {ring ring' : List κ} {turns : List (κ × List κ)} {a b : κ}
    (h : Rounds ring turns ring') (hab : a ≠ b) (ha : Ahead a b ring) :
    ∀ pre turn post, turns = pre ++ turn :: post → turn.1 = b → a ∈ pre.map Prod.fst := by
  induction h with
  | nil =>
      intro pre turn post hsplit
      simp at hsplit
  | join _ _ ih => exact ih (ha.append _)
  | @leave k rest _ _ _ ih | @again k rest _ _ _ ih =>
      intro pre turn post hsplit hb
      obtain ⟨before, behind, hring, hout⟩ := ha
      cases before with
      | nil =>
          -- `a` is the head, so the first turn is its own
          obtain ⟨rfl, rfl⟩ := List.cons.inj hring
          cases pre with
          | nil =>
              obtain ⟨rfl, _⟩ := List.cons.inj hsplit
              exact absurd hb hab
          | cons first pre =>
              obtain ⟨rfl, _⟩ := List.cons.inj hsplit
              simp
      | cons head before =>
          obtain ⟨rfl, rfl⟩ := List.cons.inj hring
          cases pre with
          | nil =>
              obtain ⟨rfl, _⟩ := List.cons.inj hsplit
              exact absurd (List.mem_cons.mpr (Or.inl hb.symm)) hout
          | cons first pre =>
              obtain ⟨rfl, rfl⟩ := List.cons.inj hsplit
              have hrest : Ahead a b (before ++ a :: behind) :=
                ⟨before, behind, rfl, fun hmem => hout (List.mem_cons_of_mem _ hmem)⟩
              simp only [List.map_cons, List.mem_cons]
              right
              first
                | exact ih hrest pre turn post rfl hb
                | exact ih (hrest.append _) pre turn post rfl hb

/-- **Spacing.** Between two turns of a key, every key that waited behind it at the first
one has a turn. -/
theorem between {ring ring' : List κ} {pre mid post : List (κ × List κ)}
    {turn turn' : κ × List κ} (h : Rounds ring (pre ++ turn :: (mid ++ turn' :: post)) ring')
    (hnodup : ring.Nodup) (hsame : turn'.1 = turn.1) {a : κ} (ha : a ∈ turn.2) :
    a ∈ mid.map Prod.fst := by
  obtain ⟨ring₁, hnodup₁, h₁⟩ := h.drop hnodup
  obtain ⟨hout, ring₂, _, hring₂, h₂⟩ := h₁.first hnodup₁
  have hne : a ≠ turn.1 := by
    rintro rfl
    exact hout ha
  have hahead : Ahead a turn.1 ring₂ := by
    rcases hring₂ with rfl | rfl
    · exact ahead_of_mem ha hout
    · exact (ahead_of_mem ha hout).append _
  exact h₂.ahead hne hahead mid turn' post rfl hsame

/-! ## Fairness among the keys that always wait -/

variable {ring ring' : List κ} {turns : List (κ × List κ)}

/-- Splitting the keys served splits the turns. -/
theorem map_fst_split {pre mid post : List κ} {a b : κ}
    (h : turns.map Prod.fst = pre ++ a :: (mid ++ b :: post)) :
    ∃ pre' turn mid' turn' post', turns = pre' ++ turn :: (mid' ++ turn' :: post') ∧
      turn.1 = a ∧ turn'.1 = b ∧ mid'.map Prod.fst = mid ∧ pre'.map Prod.fst = pre := by
  obtain ⟨pre', rest, rfl, hpre, hrest⟩ := List.map_eq_append_iff.mp h
  obtain ⟨turn, rest', rfl, hturn, hrest'⟩ := List.map_eq_cons_iff.mp hrest
  obtain ⟨mid', rest'', rfl, hmid, hrest''⟩ := List.map_eq_append_iff.mp hrest'
  obtain ⟨turn', post', rfl, hturn', _⟩ := List.map_eq_cons_iff.mp hrest''
  exact ⟨pre', turn, mid', turn', post', rfl, hturn, hturn', hmid, hpre⟩

/-- A key that waits at every turn has one between two turns of another key. -/
theorem between_served (h : Rounds ring turns ring') (hnodup : ring.Nodup) {a b : κ}
    (hab : a ≠ b) (ha : ∀ turn ∈ turns, a ∈ waiting turn) {pre mid post : List κ}
    (hserved : turns.map Prod.fst = pre ++ b :: (mid ++ b :: post)) : a ∈ mid := by
  obtain ⟨pre', turn, mid', turn', post', rfl, rfl, hb, rfl, rfl⟩ := map_fst_split hserved
  have hwaits := ha turn (by simp)
  rcases List.mem_cons.mp hwaits with heq | hmem
  · exact absurd heq hab
  · exact h.between hnodup hb hmem

variable [DecidableEq κ]

/-- **Once.** Of two keys that wait at every turn, each has exactly one turn between two
consecutive turns of the other. -/
theorem once (h : Rounds ring turns ring') (hnodup : ring.Nodup) {a b : κ} (hab : a ≠ b)
    (ha : ∀ turn ∈ turns, a ∈ waiting turn) (hb : ∀ turn ∈ turns, b ∈ waiting turn)
    {pre mid post : List κ} (hserved : turns.map Prod.fst = pre ++ b :: (mid ++ b :: post))
    (hmid : b ∉ mid) : mid.count a = 1 := by
  have hmem := between_served h hnodup hab ha hserved
  have hpos := List.count_pos_iff.mpr hmem
  by_contra hne
  -- two turns of `a` would have one of `b` between them
  obtain ⟨mid₁, mid₂, rfl⟩ := List.append_of_mem hmem
  have hmem₂ : a ∈ mid₁ ∨ a ∈ mid₂ := by
    by_contra hno
    rw [not_or] at hno
    simp [List.count_eq_zero_of_not_mem hno.1, List.count_eq_zero_of_not_mem hno.2] at hne
  rcases hmem₂ with hfirst | hsecond
  · obtain ⟨s, t, rfl⟩ := List.append_of_mem hfirst
    have hserved' : turns.map Prod.fst =
        (pre ++ b :: s) ++ a :: (t ++ a :: (mid₂ ++ b :: post)) := by
      rw [hserved]
      simp
    have hbetween : b ∈ t := between_served h hnodup hab.symm hb hserved'
    exact hmid (by simp [hbetween])
  · obtain ⟨s, t, rfl⟩ := List.append_of_mem hsecond
    have hserved' : turns.map Prod.fst =
        (pre ++ b :: mid₁) ++ a :: (s ++ a :: (t ++ b :: post)) := by
      rw [hserved]
      simp
    have hbetween : b ∈ s := between_served h hnodup hab.symm hb hserved'
    exact hmid (by simp [hbetween])

/-- **Alternation.** The turns of two keys that wait at every turn alternate. -/
theorem alternates (h : Rounds ring turns ring') (hnodup : ring.Nodup) {a b : κ} (hab : a ≠ b)
    (ha : ∀ turn ∈ turns, a ∈ waiting turn) (hb : ∀ turn ∈ turns, b ∈ waiting turn) :
    ((turns.map Prod.fst).filter fun k => k = a ∨ k = b).IsChain (· ≠ ·) := by
  rw [List.isChain_iff_forall_rel_of_append_cons_cons]
  rintro x y l₁ l₂ hsplit rfl
  -- two turns of one key, and none of the two keys in between
  obtain ⟨pre, rest, hserved, _, hrest⟩ := List.filter_eq_append_iff.mp hsplit
  obtain ⟨skip, rest', rfl, _, hx, hrest'⟩ := List.filter_eq_cons_iff.mp hrest
  obtain ⟨mid, post, rfl, hmid, _, _⟩ := List.filter_eq_cons_iff.mp hrest'
  have hserved' : turns.map Prod.fst = (pre ++ skip) ++ x :: (mid ++ x :: post) := by
    rw [hserved]
    simp
  simp only [decide_eq_true_eq] at hx hmid
  rcases hx with rfl | rfl
  · exact hmid b (between_served h hnodup hab.symm hb hserved') (Or.inr rfl)
  · exact hmid a (between_served h hnodup hab ha hserved') (Or.inl rfl)

/-- **Different keys.** When `n` keys wait at every turn, any `n` consecutive turns go to
different keys. -/
theorem distinct (h : Rounds ring turns ring') (hnodup : ring.Nodup) {keys : List κ}
    (hkeys : keys.Nodup) (hwait : ∀ k ∈ keys, ∀ turn ∈ turns, k ∈ waiting turn)
    {window : List κ} (hwindow : window <:+: turns.map Prod.fst)
    (hlen : window.length = keys.length) : window.Nodup := by
  rw [List.nodup_iff_forall_not_duplicate]
  intro x hx
  obtain ⟨pre, post, hserved⟩ := hwindow
  obtain ⟨s, t, u, rfl⟩ := duplicate_split hx
  have hserved' : turns.map Prod.fst = (pre ++ s) ++ x :: (t ++ x :: (u ++ post)) := by
    rw [← hserved]
    simp
  -- every other key has a turn between the two turns of `x`
  have hothers : (keys.erase x).Subperm t := by
    refine List.subperm_of_subset (hkeys.erase x) ?_
    intro k hk
    obtain ⟨hne, hmem⟩ := hkeys.mem_erase_iff.mp hk
    exact between_served h hnodup hne (hwait k hmem) hserved'
  have hle := hothers.length_le
  have herase : keys.length ≤ (keys.erase x).length + 1 := by
    rw [List.length_erase]
    split <;> omega
  simp only [List.length_append, List.length_cons] at hlen
  omega

end Rounds

end Logic
