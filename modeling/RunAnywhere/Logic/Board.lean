import Mathlib.Data.Set.Insert
import Mathlib.Logic.Function.Basic
import RunAnywhere.Logic.TSys

/-!
# Boards

Tickets that are worked on by one holder at a time. A ticket waits until it is granted, under a
token that no grant had before. Its holder takes it through stages, gives it a verdict and closes
it, or loses it: a lost ticket waits again, or it is parked, with a fixed verdict that nobody but
the board can act on.

* **tokens** — a token is held on one ticket, and what has lost it never has it again
  (`lost_run`);
* **ends** — a closed ticket stays closed (`closed_run`), a cancelled one cancelled
  (`cancelled_run`);
* **measure** — every move raises the measure of its ticket, which is bounded: a ticket is moved
  at most `(top + 2) * (limit + 1)` times, however long the run is (`moved_le`).
-/

namespace Logic

/-- A ticket; `attempts` counts its grants. -/
inductive Ticket (W L O : Type*)
  | waiting (attempts : Nat)
  | held (attempts : Nat) (holder : W) (token : L) (stage : Nat) (verdict : Option O)
  | parked (attempts stage : Nat) (verdict : O)
  | closed (attempts : Nat) (verdict : O)

/-- How often a ticket is granted, its last stage, and the verdicts the board gives itself. -/
structure Rules (O : Type*) where
  limit : Nat
  top : Nat
  cancelled : O
  failed : O

/-- A move of a ticket: by its holder, under the token, or by the board. -/
inductive Move (W L O : Type*)
  | submit
  | grant (holder : W) (token : L)
  | advance (holder : W) (token : L) (stage : Nat)
  | judge (holder : W) (token : L) (verdict : O)
  | close (holder : W) (token : L)
  | cancel
  | reclaim
  | giveUp
  | settle (stage : Nat)
  | finish

/-- The tickets under their names, and the tokens granted so far. -/
structure Board (J W L O : Type*) where
  ticket : J → Option (Ticket W L O)
  granted : Set L

variable {J W L O : Type*} {R : Rules O}

/-- The token a move grants. -/
def Move.grants : Move W L O → Option L
  | .grant _ l => some l
  | _ => none

namespace Ticket

def verdict : Ticket W L O → Option O
  | .waiting _ => none
  | .held _ _ _ _ v => v
  | .parked _ _ o | .closed _ o => some o

/-- The ticket is held under token `l`. -/
def HeldUnder (l : L) (t : Ticket W L O) : Prop := ∃ n w s v, t = .held n w l s v

/-- **Moves.** What a move makes of a ticket, or of none. -/
inductive Step (R : Rules O) : Move W L O → Option (Ticket W L O) → Ticket W L O → Prop
  | submit : Step R .submit none (.waiting 0)
  | grant {n w l} : n < R.limit → Step R (.grant w l) (some (.waiting n)) (.held (n + 1) w l 1 none)
  | advance {n w l s s' v} : s < s' → s' ≤ R.top →
      Step R (.advance w l s') (some (.held n w l s v)) (.held n w l s' v)
  | judge {n w l s o} :
      Step R (.judge w l o) (some (.held n w l s none)) (.held n w l s (some o))
  | close {n w l s o} : Step R (.close w l) (some (.held n w l s (some o))) (.closed n o)
  | cancelWaiting {n s} : 0 < s → s ≤ R.top →
      Step R .cancel (some (.waiting n)) (.parked n s R.cancelled)
  | cancelHeld {n w l s s'} : s ≤ s' → s' ≤ R.top →
      Step R .cancel (some (.held n w l s none)) (.held n w l s' (some R.cancelled))
  | reclaim {n w l s v} : v ≠ some R.cancelled → n < R.limit →
      Step R .reclaim (some (.held n w l s v)) (.waiting n)
  | drop {n w l s s'} : s' ≤ R.top →
      Step R .giveUp (some (.held n w l s (some R.cancelled))) (.parked n s' R.cancelled)
  | exhaust {n w l s s' v} : v ≠ some R.cancelled → R.limit ≤ n → s' ≤ R.top →
      Step R .giveUp (some (.held n w l s v)) (.parked n s' R.failed)
  | settle {n s s' o} : s < s' → s' ≤ R.top →
      Step R (.settle s') (some (.parked n s o)) (.parked n s' o)
  | finish {n s o} : Step R .finish (some (.parked n s o)) (.closed n o)

/-- The ticket keeps to the rules. -/
def Within (R : Rules O) : Ticket W L O → Prop
  | .waiting n => n ≤ R.limit
  | .held n _ _ s _ => 0 < n ∧ n ≤ R.limit ∧ s ≤ R.top
  | .parked n s _ => n ≤ R.limit ∧ s ≤ R.top
  | .closed n _ => n ≤ R.limit

/-- The measure of a ticket. -/
def measure (R : Rules O) : Option (Ticket W L O) → Nat
  | none => 0
  | some (.waiting n) => (R.top + 2) * n + 1
  | some (.held n _ _ s v) => (R.top + 2) * (n - 1) + 1 + s + v.isSome.toNat
  | some (.parked _ s _) => (R.top + 2) * R.limit + 1 + s
  | some (.closed _ _) => (R.top + 2) * (R.limit + 1)

variable {m : Move W L O} {old : Option (Ticket W L O)} {t : Ticket W L O}

theorem Step.within (h : Step R m old t) (htop : 0 < R.top) (hold : ∀ t₀ ∈ old, t₀.Within R) :
    t.Within R := by
  cases h with
  | submit => exact Nat.zero_le _
  | grant hlimit => exact ⟨Nat.succ_pos _, hlimit, htop⟩
  | advance _ hs | cancelHeld _ hs => exact ⟨(hold _ rfl).1, (hold _ rfl).2.1, hs⟩
  | judge => exact ⟨(hold _ rfl).1, (hold _ rfl).2⟩
  | close | reclaim => exact (hold _ rfl).2.1
  | cancelWaiting _ hs => exact ⟨hold _ rfl, hs⟩
  | drop hs | exhaust _ _ hs => exact ⟨(hold _ rfl).2.1, hs⟩
  | settle _ hs => exact ⟨(hold _ rfl).1, hs⟩
  | finish => exact (hold _ rfl).1

theorem measure_le (h : ∀ t ∈ old, t.Within R) : measure R old ≤ (R.top + 2) * (R.limit + 1) := by
  have hlast : ∀ n, n ≤ R.limit → (R.top + 2) * n ≤ (R.top + 2) * R.limit :=
    fun n hn => Nat.mul_le_mul_left _ hn
  cases old with
  | none => exact Nat.zero_le _
  | some t =>
      have hwithin := h t rfl
      rw [Nat.mul_succ]
      cases t with
      | waiting n =>
          have := hlast n hwithin
          show (R.top + 2) * n + 1 ≤ _
          omega
      | held n w l s v =>
          obtain ⟨_, hn, hs⟩ := hwithin
          have := hlast (n - 1) (by omega)
          have hbit : v.isSome.toNat ≤ 1 := Bool.toNat_le _
          show (R.top + 2) * (n - 1) + 1 + s + v.isSome.toNat ≤ _
          omega
      | parked n s o =>
          have hs := hwithin.2
          show (R.top + 2) * R.limit + 1 + s ≤ _
          omega
      | closed n o =>
          show (R.top + 2) * (R.limit + 1) ≤ _
          rw [Nat.mul_succ]

/-- A ticket that is held is below one that waits again, and below one that nobody holds. -/
theorem measure_held {n s : Nat} {w : W} {l : L} {v : Option O}
    (h : (Ticket.held n w l s v).Within R) :
    measure R (some (.held n w l s v)) < (R.top + 2) * n + 1 ∧
      measure R (some (.held n w l s v)) < (R.top + 2) * R.limit + 1 := by
  obtain ⟨hpos, hn, hs⟩ := h
  have hbit : v.isSome.toNat ≤ 1 := Bool.toNat_le _
  have hstep : (R.top + 2) * n = (R.top + 2) * (n - 1) + (R.top + 2) := by
    rw [← Nat.mul_succ, Nat.succ_eq_add_one, Nat.sub_add_cancel hpos]
  have hlast : (R.top + 2) * n ≤ (R.top + 2) * R.limit := Nat.mul_le_mul_left _ hn
  constructor
  · show (R.top + 2) * (n - 1) + 1 + s + v.isSome.toNat < _
    omega
  · show (R.top + 2) * (n - 1) + 1 + s + v.isSome.toNat < _
    omega

/-- **Measure.** Every move raises it. -/
theorem Step.measure_lt (h : Step R m old t) (hold : ∀ t₀ ∈ old, t₀.Within R) :
    measure R old < measure R (some t) := by
  cases h with
  | submit => exact Nat.succ_pos _
  | @grant n =>
      show (R.top + 2) * n + 1 < (R.top + 2) * (n + 1 - 1) + 1 + 1 + 0
      rw [Nat.add_sub_cancel]
      omega
  | advance hs =>
      simp only [measure]
      omega
  | judge =>
      simp only [measure, Option.isSome_none, Option.isSome_some, Bool.toNat_false, Bool.toNat_true]
      omega
  | close =>
      have := (measure_held (hold _ rfl)).2
      show _ < (R.top + 2) * (R.limit + 1)
      rw [Nat.mul_succ]
      omega
  | @cancelWaiting n s hs =>
      have hn : n ≤ R.limit := hold _ rfl
      have : (R.top + 2) * n ≤ (R.top + 2) * R.limit := Nat.mul_le_mul_left _ hn
      show (R.top + 2) * n + 1 < (R.top + 2) * R.limit + 1 + s
      omega
  | cancelHeld hs =>
      simp only [measure, Option.isSome_none, Option.isSome_some, Bool.toNat_false, Bool.toNat_true]
      omega
  | reclaim => exact (measure_held (hold _ rfl)).1
  | drop | exhaust => exact Nat.lt_of_lt_of_le (measure_held (hold _ rfl)).2 (Nat.le_add_right _ _)
  | settle hs => exact Nat.add_lt_add_left hs _
  | @finish n s =>
      have hs : s ≤ R.top := (hold _ rfl).2
      show (R.top + 2) * R.limit + 1 + s < (R.top + 2) * (R.limit + 1)
      rw [Nat.mul_succ]
      omega

/-- Nothing moves a closed ticket. -/
theorem Step.not_closed {n : Nat} {o : O} : ¬ Step R m (some (.closed n o)) t := by
  intro h
  cases h

/-- A cancelled ticket stays cancelled. -/
theorem Step.cancelled (h : Step R m old t)
    (hold : ∃ t₀ ∈ old, t₀.verdict = some R.cancelled) : t.verdict = some R.cancelled := by
  obtain ⟨t₀, hmem, hv⟩ := hold
  cases h with
  | submit => cases hmem
  | grant | cancelWaiting =>
      obtain rfl := Option.some.inj hmem
      cases hv
  | judge | cancelHeld =>
      obtain rfl := Option.some.inj hmem
      cases hv
  | advance | close | settle | finish =>
      obtain rfl := Option.some.inj hmem
      exact hv
  | reclaim hne | exhaust hne =>
      obtain rfl := Option.some.inj hmem
      exact absurd hv hne
  | drop => rfl

/-- A ticket that is held was held under the token, or is granted under it. -/
theorem Step.heldUnder (h : Step R m old t) {l : L} (ht : t.HeldUnder l) :
    (∃ t₀ ∈ old, t₀.HeldUnder l) ∨ m.grants = some l := by
  obtain ⟨n, w, s, v, rfl⟩ := ht
  cases h with
  | grant => exact Or.inr rfl
  | advance | judge | cancelHeld => exact Or.inl ⟨_, rfl, _, _, _, _, rfl⟩

end Ticket

/-! ## Runs -/

variable [DecidableEq J]

namespace Board

/-- The board with a ticket replaced, and the token of a grant taken. -/
def put (b : Board J W L O) (j : J) (t : Ticket W L O) (token : Option L) : Board J W L O where
  ticket := Function.update b.ticket j (some t)
  granted := {l | token = some l} ∪ b.granted

end Board

/-- **The board.** A grant takes a token that none had before. -/
def board (R : Rules O) : TSys (Board J W L O) (J × Move W L O) where
  init b := (∀ j, b.ticket j = none) ∧ b.granted = ∅
  step b m b' := ∃ t, Ticket.Step R m.2 (b.ticket m.1) t ∧
    (∀ l, m.2.grants = some l → l ∉ b.granted) ∧ b' = b.put m.1 t m.2.grants

namespace Board

variable {b b' : Board J W L O} {j : J} {t : Ticket W L O}

theorem ticket_put (b : Board J W L O) (j : J) (t : Ticket W L O) (token : Option L) (j' : J) :
    (b.put j t token).ticket j' = if j' = j then some t else b.ticket j' :=
  Function.update_apply _ _ _ _

/-- What holds of every board that is reached. -/
structure Sound (R : Rules O) (b : Board J W L O) : Prop where
  within : ∀ j t, b.ticket j = some t → t.Within R
  granted : ∀ j t l, b.ticket j = some t → t.HeldUnder l → l ∈ b.granted
  single : ∀ j j' t t' l, b.ticket j = some t → b.ticket j' = some t' → t.HeldUnder l →
    t'.HeldUnder l → j' = j

theorem Sound.step (h : b.Sound R) (htop : 0 < R.top) {m : J × Move W L O}
    (hstep : (board R).step b m b') : b'.Sound R := by
  obtain ⟨t, hmove, hfresh, rfl⟩ := hstep
  -- a token on a ticket was granted before, or is the one granted now
  have hheld : ∀ j' t' l, (b.put m.1 t m.2.grants).ticket j' = some t' → t'.HeldUnder l →
      (∃ t₀, b.ticket j' = some t₀ ∧ t₀.HeldUnder l) ∨ (j' = m.1 ∧ m.2.grants = some l) := by
    intro j' t' l ht' hl
    rw [ticket_put] at ht'
    split at ht'
    · next hj =>
        obtain rfl := Option.some.inj ht'
        rcases hmove.heldUnder hl with ⟨t₀, ht₀, hl₀⟩ | hgrant
        · exact Or.inl ⟨t₀, hj ▸ ht₀, hl₀⟩
        · exact Or.inr ⟨hj, hgrant⟩
    · exact Or.inl ⟨t', ht', hl⟩
  refine ⟨fun j' t' ht' => ?_, fun j' t' l ht' hl => ?_, fun j₁ j₂ t₁ t₂ l h₁ h₂ hl₁ hl₂ => ?_⟩
  · rw [ticket_put] at ht'
    split at ht'
    · obtain rfl := Option.some.inj ht'
      exact hmove.within htop fun t₀ ht₀ => h.within _ _ ht₀
    · exact h.within _ _ ht'
  · rcases hheld j' t' l ht' hl with ⟨t₀, ht₀, hl₀⟩ | ⟨_, hgrant⟩
    · exact Or.inr (h.granted _ _ _ ht₀ hl₀)
    · exact Or.inl hgrant
  · rcases hheld j₁ t₁ l h₁ hl₁ with ⟨u₁, hu₁, hl₁⟩ | ⟨hj₁, hgrant₁⟩
    · rcases hheld j₂ t₂ l h₂ hl₂ with ⟨u₂, hu₂, hl₂⟩ | ⟨_, hgrant₂⟩
      · exact h.single _ _ _ _ _ hu₁ hu₂ hl₁ hl₂
      · exact absurd (h.granted _ _ _ hu₁ hl₁) (hfresh l hgrant₂)
    · rcases hheld j₂ t₂ l h₂ hl₂ with ⟨u₂, hu₂, hl₂⟩ | ⟨hj₂, _⟩
      · exact absurd (h.granted _ _ _ hu₂ hl₂) (hfresh l hgrant₁)
      · rw [hj₁, hj₂]

theorem sound_invariant (htop : 0 < R.top) :
    (board (J := J) (W := W) (L := L) R).Invariant (Sound R) := by
  refine TSys.Inductive.invariant ⟨?_, fun b m b' _ hb hstep => hb.step htop hstep⟩
  intro b hinit
  have hnone : ∀ j t, b.ticket j ≠ some t := by
    intro j t ht
    rw [hinit.1 j] at ht
    cases ht
  exact ⟨fun j t ht => absurd ht (hnone j t), fun j t l ht => absurd ht (hnone j t),
    fun j j' t t' l ht => absurd ht (hnone j t)⟩

/-- **Closed tickets.** They stay. -/
theorem closed_run {ms : List (J × Move W L O)} (hrun : (board R).Run b ms b') {n : Nat} {o : O}
    (h : b.ticket j = some (.closed n o)) : b'.ticket j = some (.closed n o) := by
  induction hrun with
  | nil => exact h
  | snoc hrun hstep ih =>
      obtain ⟨t, hmove, _, rfl⟩ := hstep
      rw [ticket_put]
      split
      · next hj =>
          subst hj
          rw [ih] at hmove
          exact absurd hmove Ticket.Step.not_closed
      · exact ih

/-- **Cancelled tickets.** They stay cancelled. -/
theorem cancelled_run {ms : List (J × Move W L O)} (hrun : (board R).Run b ms b')
    (h : ∃ t, b.ticket j = some t ∧ t.verdict = some R.cancelled) :
    ∃ t, b'.ticket j = some t ∧ t.verdict = some R.cancelled := by
  induction hrun with
  | nil => exact h
  | snoc hrun hstep ih =>
      obtain ⟨t, hmove, _, rfl⟩ := hstep
      rw [ticket_put]
      split
      · next hj =>
          subst hj
          exact ⟨t, rfl, hmove.cancelled ih⟩
      · exact ih

/-- **Lost tokens.** A ticket that is not held under a token that was granted never is. -/
theorem lost_run {ms : List (J × Move W L O)} (hrun : (board R).Run b ms b') {l : L}
    (hl : l ∈ b.granted) (h : ∀ t, b.ticket j = some t → ¬ t.HeldUnder l) :
    l ∈ b'.granted ∧ ∀ t, b'.ticket j = some t → ¬ t.HeldUnder l := by
  induction hrun with
  | nil => exact ⟨hl, h⟩
  | snoc hrun hstep ih =>
      obtain ⟨t, hmove, hfresh, rfl⟩ := hstep
      refine ⟨Or.inr ih.1, fun t' ht' hheld => ?_⟩
      rw [ticket_put] at ht'
      split at ht'
      · next hj =>
          subst hj
          obtain rfl := Option.some.inj ht'
          rcases hmove.heldUnder hheld with ⟨t₀, ht₀, hl₀⟩ | hgrant
          · exact ih.2 t₀ ht₀ hl₀
          · exact hfresh l hgrant ih.1
      · exact ih.2 t' ht' hheld

/-- **Bound.** The moves of a ticket are paid for by its measure. -/
theorem moved_le (htop : 0 < R.top) {ms : List (J × Move W L O)} (hb : b.Sound R)
    (hrun : (board R).Run b ms b') (j : J) :
    b'.Sound R ∧ ms.countP (fun m => decide (m.1 = j)) + Ticket.measure R (b.ticket j) ≤
      Ticket.measure R (b'.ticket j) := by
  induction hrun with
  | nil => exact ⟨hb, by simp⟩
  | @snoc ms b₁ m b₂ hrun hstep ih =>
      refine ⟨ih.1.step htop hstep, ?_⟩
      obtain ⟨t, hmove, _, rfl⟩ := hstep
      rw [List.countP_append, ticket_put]
      split
      · next hj =>
          subst hj
          have hlt := hmove.measure_lt fun t₀ ht₀ => ih.1.within _ _ ht₀
          simp only [List.countP_singleton, decide_true, if_true]
          omega
      · next hj =>
          have hne : ¬ m.1 = j := fun h => hj h.symm
          simp only [List.countP_singleton, hne, decide_false, Bool.false_eq_true, if_false]
          omega

/-! ## Building runs -/

/-- One move. -/
theorem run_move {m : Move W L O} (h : Ticket.Step R m (b.ticket j) t)
    (hfresh : ∀ l, m.grants = some l → l ∉ b.granted) :
    (board R).Run b [(j, m)] (b.put j t m.grants) :=
  .single ⟨t, h, hfresh, rfl⟩

theorem put_put (t' : Ticket W L O) : (b.put j t none).put j t' none = b.put j t' none := by
  simp [put, Function.update_idem]

/-- Two moves of one ticket that grant nothing. -/
theorem run_two {m m' : Move W L O} {t' : Ticket W L O} (h : Ticket.Step R m (b.ticket j) t)
    (h' : Ticket.Step R m' (some t) t') (hm : m.grants = none) (hm' : m'.grants = none) :
    (board R).Run b [(j, m), (j, m')] (b.put j t' none) := by
  have hfirst : (board R).Run b [(j, m)] (b.put j t none) := by
    have hrun := run_move h fun l hl => by rw [hm] at hl; cases hl
    rw [hm] at hrun
    exact hrun
  have hmid : (b.put j t none).ticket j = some t := by
    rw [ticket_put, if_pos rfl]
  rw [← hmid] at h'
  have hsecond := run_move h' fun l hl => by rw [hm'] at hl; cases hl
  rw [hm', put_put] at hsecond
  exact hfirst.append hsecond

end Board

end Logic
