import Mathlib.Data.Set.Insert
import Mathlib.Order.Basic
import RunAnywhere.Logic.TSys

/-!
# Locks taken in order

Transactions that take exclusive locks one after the other and keep them to their end:

* **requests** — a lock is waited for, or tried and skipped when another holds it
  (`SKIP LOCKED`);
* **ordered requests** — `Ordered held rs`: each lock waited for is one the transaction
  already has, or above every lock it has;
* **the system** — `locking Admitted`: any number of transactions, each with an admitted
  sequence of requests, in any schedule, ending or rolled back at any point;
* **no deadlock** — `Locking.acyclic`: if all admitted sequences are ordered, no
  transaction waits, over others, for itself.
-/

namespace Logic

/-- A request for an exclusive lock: wait for it, or skip it when another has it. -/
inductive Request (κ : Type*)
  | wait (k : κ)
  | skip (k : κ)
  deriving DecidableEq

namespace Request

variable {κ : Type*}

/-- The lock requested. -/
def lock : Request κ → κ
  | .wait k | .skip k => k

/-- The locks of a sequence of requests. -/
def locks (rs : List (Request κ)) : Set κ := {k | ∃ r ∈ rs, r.lock = k}

/-- Wait for a lock that is there to take. -/
def waitIf (c : Bool) (k : κ) : List (Request κ) := if c then [.wait k] else []

@[simp] theorem locks_nil : locks ([] : List (Request κ)) = ∅ := by
  ext k
  simp [locks]

@[simp] theorem locks_cons (r : Request κ) (rs : List (Request κ)) :
    locks (r :: rs) = insert r.lock (locks rs) := by
  ext k
  simp [locks, eq_comm]

@[simp] theorem locks_append (rs qs : List (Request κ)) :
    locks (rs ++ qs) = locks rs ∪ locks qs := by
  ext k
  simp [locks, or_and_right, exists_or]

@[simp] theorem locks_map {α : Type*} (f : α → Request κ) (l : List α) :
    locks (l.map f) = {k | ∃ a ∈ l, (f a).lock = k} := by
  ext k
  simp [locks]

/-- Each lock waited for is held already or above all that are held. -/
inductive Ordered [LT κ] : Set κ → List (Request κ) → Prop
  | nil {held} : Ordered held []
  | wait {held k rest} (climbs : k ∈ held ∨ ∀ h ∈ held, h < k)
      (then_ : Ordered (insert k held) rest) : Ordered held (.wait k :: rest)
  | skip {held k rest} (then_ : Ordered (insert k held) rest) : Ordered held (.skip k :: rest)

variable [LT κ]

theorem ordered_wait {held : Set κ} {k : κ} {rest : List (Request κ)} :
    Ordered held (.wait k :: rest) ↔
      (k ∈ held ∨ ∀ h ∈ held, h < k) ∧ Ordered (insert k held) rest := by
  constructor
  · rintro (_ | ⟨climbs, hrest⟩)
    exact ⟨climbs, hrest⟩
  · rintro ⟨climbs, hrest⟩
    exact .wait climbs hrest

theorem ordered_skip {held : Set κ} {k : κ} {rest : List (Request κ)} :
    Ordered held (.skip k :: rest) ↔ Ordered (insert k held) rest := by
  constructor
  · rintro (_ | _ | ⟨hrest⟩)
    exact hrest
  · exact .skip

/-- **Sequencing.** The rest is ordered from what the first part holds. -/
theorem ordered_append {held : Set κ} {rs qs : List (Request κ)} :
    Ordered held (rs ++ qs) ↔ Ordered held rs ∧ Ordered (held ∪ locks rs) qs := by
  induction rs generalizing held with
  | nil => simp [Ordered.nil]
  | cons r rs ih =>
      have hset : held ∪ insert r.lock (locks rs) = insert r.lock held ∪ locks rs := by
        rw [Set.union_insert, Set.insert_union]
      rw [List.cons_append, locks_cons, hset]
      cases r with
      | wait k =>
          rw [ordered_wait, ordered_wait, ih, and_assoc]
          rfl
      | skip k =>
          rw [ordered_skip, ordered_skip, ih]
          rfl

/-- Skipping requests never wait. -/
theorem ordered_skips {α : Type*} (f : α → κ) (l : List α) (held : Set κ) :
    Ordered held (l.map fun a => .skip (f a)) := by
  induction l generalizing held with
  | nil => exact .nil
  | cons a l ih => exact .skip (ih (insert (f a) held))

/-- One lock above all that are held. -/
theorem ordered_one {held : Set κ} {k : κ} (h : ∀ h ∈ held, h < k) : Ordered held [.wait k] :=
  .wait (Or.inr h) .nil

/-- An increasing list of locks above all that are held. -/
theorem ordered_increasing {ks : List κ} {held : Set κ} (hks : ks.Pairwise (· < ·))
    (h : ∀ h ∈ held, ∀ k ∈ ks, h < k) : Ordered held (ks.map .wait) := by
  induction ks generalizing held with
  | nil => exact .nil
  | cons k ks ih =>
      obtain ⟨hk, hrest⟩ := List.pairwise_cons.mp hks
      refine .wait (Or.inr fun l hl => h l hl k List.mem_cons_self) (ih hrest fun l hl q hq => ?_)
      rcases hl with rfl | hl
      · exact hk q hq
      · exact h l hl q (List.mem_cons_of_mem _ hq)

/-- A skipped lock is not asked for again. -/
theorem Ordered.without [DecidableEq κ] {k : κ} {held : Set κ} {rs : List (Request κ)}
    (h : Ordered (insert k held) rs) :
    Ordered held (rs.filter fun r => decide (r.lock ≠ k)) := by
  induction rs generalizing held with
  | nil => exact .nil
  | cons r rs ih =>
      have hrest : Ordered (insert k (insert r.lock held)) rs := by
        rw [Set.insert_comm]
        cases h with
        | wait _ hrest => exact hrest
        | skip hrest => exact hrest
      by_cases hr : r.lock = k
      · rw [List.filter_cons_of_neg (by simp [hr])]
        rw [hr, Set.insert_idem] at hrest
        exact ih hrest
      · rw [List.filter_cons_of_pos (by simp [hr])]
        cases h with
        | wait climbs _ =>
            refine .wait ?_ (ih hrest)
            rcases climbs with hmem | habove
            · exact Or.inl (Set.mem_of_mem_insert_of_ne hmem hr)
            · exact Or.inr fun q hq => habove q (Set.mem_insert_of_mem _ hq)
        | skip => exact .skip (ih hrest)

end Request

open Request

/-! ## Transactions in any schedule -/

/-- A transaction: the locks it holds and the requests it has left. -/
structure Locking (κ : Type*) where
  held : Set κ
  todo : List (Request κ)

namespace Locking

variable {ι κ : Type*}

/-- No transaction. -/
def idle : Locking κ := ⟨∅, []⟩

/-- Transaction `i` waits for a lock that `j` holds. -/
def Waits (s : ι → Locking κ) (i j : ι) : Prop :=
  j ≠ i ∧ ∃ k rest, (s i).todo = .wait k :: rest ∧ k ∈ (s j).held

/-- No lock is held twice, and what is left of each transaction is ordered. -/
structure Sound [LT κ] (s : ι → Locking κ) : Prop where
  exclusive : ∀ i j k, k ∈ (s i).held → k ∈ (s j).held → i = j
  ordered : ∀ i, Ordered (s i).held (s i).todo

/-- The lock a transaction waits for is below the one its holder waits for. -/
theorem Waits.climbs [Preorder κ] {s : ι → Locking κ} (h : Sound s) {i j m : ι}
    (hij : Waits s i j) (hjm : Waits s j m) {k l : κ} {rest rest' : List (Request κ)}
    (hk : (s i).todo = .wait k :: rest) (hl : (s j).todo = .wait l :: rest') : k < l := by
  obtain ⟨_, k', _, hk', hheld⟩ := hij
  obtain ⟨hmj, l', _, hl', hm⟩ := hjm
  obtain ⟨rfl, _⟩ : k = k' ∧ rest = _ := by simpa using hk.symm.trans hk'
  obtain ⟨rfl, _⟩ : l = l' ∧ rest' = _ := by simpa using hl.symm.trans hl'
  have hordered := h.ordered j
  rw [hl] at hordered
  rcases (ordered_wait.mp hordered).1 with hown | habove
  · -- then `j` and `m` would both hold it
    exact absurd (h.exclusive m j _ hm hown) hmj
  · exact habove k hheld

variable [DecidableEq ι]

/-- A step of `i` that takes at most a free lock and leaves ordered requests. -/
theorem Sound.update [LT κ] {s : ι → Locking κ} (h : Sound s) {i : ι} {t : Locking κ}
    (hheld : ∀ k ∈ t.held, k ∈ (s i).held ∨ ∀ j, j ≠ i → k ∉ (s j).held)
    (hordered : Ordered t.held t.todo) : Sound (Function.update s i t) := by
  have hother : ∀ j k, j ≠ i → k ∈ t.held → k ∉ (s j).held := by
    intro j k hj hk hkj
    rcases hheld k hk with hi | hfree
    · exact hj (h.exclusive j i k hkj hi)
    · exact hfree j hj hkj
  refine ⟨fun a b k ha hb => ?_, fun a => ?_⟩
  · by_cases hai : a = i
    · subst hai
      rw [Function.update_self] at ha
      by_contra hab
      rw [Function.update_of_ne (Ne.symm hab)] at hb
      exact hother b k (Ne.symm hab) ha hb
    · rw [Function.update_of_ne hai] at ha
      by_cases hbi : b = i
      · subst hbi
        rw [Function.update_self] at hb
        exact absurd ha (hother a k hai hb)
      · rw [Function.update_of_ne hbi] at hb
        exact h.exclusive a b k ha hb
  · by_cases hai : a = i
    · subst hai
      rw [Function.update_self]
      exact hordered
    · rw [Function.update_of_ne hai]
      exact h.ordered a

variable [DecidableEq κ]

/-- One step of one of the transactions. -/
inductive Step (Admitted : List (Request κ) → Prop) :
    (ι → Locking κ) → ι → (ι → Locking κ) → Prop
  | start {s i rs} (none : s i = idle) (admitted : Admitted rs) :
      Step Admitted s i (Function.update s i ⟨∅, rs⟩)
  | wait {s i k rest} (next : (s i).todo = .wait k :: rest)
      (free : ∀ j, j ≠ i → k ∉ (s j).held) :
      Step Admitted s i (Function.update s i ⟨insert k (s i).held, rest⟩)
  | take {s i k rest} (next : (s i).todo = .skip k :: rest)
      (free : ∀ j, j ≠ i → k ∉ (s j).held) :
      Step Admitted s i (Function.update s i ⟨insert k (s i).held, rest⟩)
  | pass {s i j k rest} (next : (s i).todo = .skip k :: rest) (other : j ≠ i)
      (taken : k ∈ (s j).held) :
      Step Admitted s i
        (Function.update s i ⟨(s i).held, rest.filter fun r => decide (r.lock ≠ k)⟩)
  /-- Commit or roll back. -/
  | finish {s i} : Step Admitted s i (Function.update s i idle)

/-- Transactions with admitted requests, in any schedule. -/
def system (ι : Type*) [DecidableEq ι] (Admitted : List (Request κ) → Prop) :
    TSys (ι → Locking κ) ι where
  init s := s = fun _ => idle
  step := Step Admitted

theorem Sound.step [LT κ] {Admitted : List (Request κ) → Prop}
    (hadmitted : ∀ rs, Admitted rs → Ordered ∅ rs) {s s' : ι → Locking κ} {i : ι}
    (h : Sound s) (hstep : Step Admitted s i s') : Sound s' := by
  have hnext := h.ordered i
  cases hstep with
  | start _ hrs => exact h.update (fun k hk => absurd hk (Set.notMem_empty k)) (hadmitted _ hrs)
  | wait next free =>
      rw [next] at hnext
      refine h.update (fun l hl => ?_) (ordered_wait.mp hnext).2
      rcases hl with rfl | hl
      · exact Or.inr free
      · exact Or.inl hl
  | take next free =>
      rw [next] at hnext
      refine h.update (fun l hl => ?_) (ordered_skip.mp hnext)
      rcases hl with rfl | hl
      · exact Or.inr free
      · exact Or.inl hl
  | pass next _ _ =>
      rw [next] at hnext
      exact h.update (fun l hl => Or.inl hl) (ordered_skip.mp hnext).without
  | finish => exact h.update (fun k hk => absurd hk (Set.notMem_empty k)) .nil

theorem sound_invariant [LT κ] {Admitted : List (Request κ) → Prop}
    (hadmitted : ∀ rs, Admitted rs → Ordered ∅ rs) :
    (system ι Admitted).Invariant Sound := by
  refine TSys.Inductive.invariant ⟨?_, fun s i s' _ h hstep => h.step hadmitted hstep⟩
  rintro _ rfl
  exact ⟨fun i j k hi => absurd hi (Set.notMem_empty k), fun i => .nil⟩

/-- **No deadlock.** No transaction waits, over any chain of others, for itself. -/
theorem acyclic [Preorder κ] {Admitted : List (Request κ) → Prop}
    (hadmitted : ∀ rs, Admitted rs → Ordered ∅ rs) :
    (system ι Admitted).Invariant fun s => ∀ i, ¬ Relation.TransGen (Waits s) i i := by
  intro s hs i hcycle
  have hsound := sound_invariant hadmitted s hs
  -- along a chain of waits from `i`, the locks waited for climb
  have hclimb : ∀ j, Relation.TransGen (Waits s) i j → ∀ k rest, (s i).todo = .wait k :: rest →
      ∀ l rest', (s j).todo = .wait l :: rest' → (∃ m, Waits s j m) → k < l := by
    intro j hchain
    induction hchain with
    | single hij =>
        rintro k rest hk l rest' hl ⟨m, hjm⟩
        exact hij.climbs hsound hjm hk hl
    | tail _ hbc ih =>
        rintro k rest hk l rest' hl ⟨m, hcm⟩
        obtain ⟨_, q, rest'', hq, _⟩ := id hbc
        exact (ih k rest hk q rest'' hq ⟨_, hbc⟩).trans (hbc.climbs hsound hcm hq hl)
  obtain ⟨m, him⟩ : ∃ m, Waits s i m := by
    obtain ⟨m, him, _⟩ := Relation.TransGen.head'_iff.mp hcycle
    exact ⟨m, him⟩
  obtain ⟨_, k, rest, hk, _⟩ := id him
  exact lt_irrefl k (hclimb i hcycle k rest hk k rest hk ⟨m, him⟩)

end Locking

end Logic
