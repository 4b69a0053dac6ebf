import RunAnywhere.Scheduler.Buffer
import RunAnywhere.Theorems.Buffer

/-!
# What a pop of the fairness buffer does

`FairQueue.pop_cases` says everything one pop can do: an aging override that takes a batch
entry and leaves the cursor, or a turn of the schedule that skips empty lanes and takes
from the first lane that has an entry. `FairQueue.pops` lists the pops of a history of
operations, each with the queue it found.
-/

namespace RunAnywhere

open Logic

variable {α : Type}

/-! ## Lanes -/

namespace LaneQueue

/-- Entry `e` is the first of its project's bucket, the project is at the head of the ring
and leaves it or goes to its end. -/
theorem pop_cases {q q' : LaneQueue α} {e : FairEntry α} (h : q.pop = some (e, q')) :
    ∃ p ring rest, q.projectRing = p :: ring ∧ q.projects.get? p = some (e :: rest) ∧
      (q'.projectRing = ring ∨ q'.projectRing = ring ++ [p]) := by
  unfold pop at h
  split at h
  · cases h
  · next p ring hring =>
      split at h
      · next entry rest hbucket =>
          split at h
          · cases h
            exact ⟨p, ring, rest, hring, hbucket, Or.inl rfl⟩
          · cases h
            exact ⟨p, ring, rest, hring, hbucket, Or.inr rfl⟩
      · cases h
      · cases h

/-- A project waits in the lane: it has a buffered entry there. -/
def Pending (q : LaneQueue α) (p : ProjectId) : Prop := ∃ e ∈ q.entries, e.projectId = p

namespace Sound

variable {l : PriorityLane} {q : LaneQueue α}

/-- The entries of a project are those of its bucket. -/
theorem mem_bucket (h : Sound l q) {e : FairEntry α} (he : e ∈ q.entries) :
    ∃ bucket, q.projects.get? e.projectId = some bucket ∧ e ∈ bucket := by
  obtain ⟨p, bucket, hp, hmem⟩ := mem_entries.mp he
  have hhome := ((h.buckets p bucket hp).homed e hmem).1
  exact ⟨bucket, hhome ▸ hp, hmem⟩

/-- The ring names the projects that wait. -/
theorem mem_ring_iff (h : Sound l q) {p : ProjectId} : p ∈ q.projectRing ↔ q.Pending p := by
  rw [h.ring p]
  constructor
  · intro hsome
    obtain ⟨bucket, hp⟩ := Option.isSome_iff_exists.mp hsome
    have hbucket := h.buckets p bucket hp
    obtain ⟨e, he⟩ := List.exists_mem_of_ne_nil _ hbucket.nonempty
    exact ⟨e, mem_entries.mpr ⟨p, bucket, hp, he⟩, (hbucket.homed e he).1⟩
  · rintro ⟨e, he, rfl⟩
    obtain ⟨bucket, hp, _⟩ := h.mem_bucket he
    rw [hp]
    rfl

/-- **First in, first out.** The entry taken is the least of its project. -/
theorem pop_first (h : Sound l q) {q' : LaneQueue α} {e : FairEntry α}
    (hpop : q.pop = some (e, q')) : e ∈ q.entries ∧
      ∀ x ∈ q.entries, x.projectId = e.projectId → x = e ∨ before e x = true := by
  obtain ⟨p, ring, rest, _, hbucket, _⟩ := pop_cases hpop
  have hb := h.buckets p _ hbucket
  have hhome : e.projectId = p := (hb.homed e List.mem_cons_self).1
  refine ⟨mem_entries.mpr ⟨p, _, hbucket, List.mem_cons_self⟩, ?_⟩
  intro x hx hproject
  obtain ⟨bucket, hp, hmem⟩ := h.mem_bucket hx
  rw [hproject, hhome, hbucket] at hp
  obtain rfl := Option.some.inj hp
  rcases List.mem_cons.mp hmem with rfl | hrest
  · exact Or.inl rfl
  · exact Or.inr ((List.pairwise_cons.mp hb.sorted).1 x hrest)

end Sound

/-- A pushed project keeps its place in the ring, or joins at the end. -/
theorem push_ring (q : LaneQueue α) (e : FairEntry α) :
    (q.push e).projectRing = q.projectRing ∨
      (q.projects.get? e.projectId = none ∧
        (q.push e).projectRing = q.projectRing ++ [e.projectId]) := by
  unfold push
  split
  · exact Or.inl rfl
  · next hnone => exact Or.inr ⟨hnone, rfl⟩

end LaneQueue

/-! ## One pop -/

namespace FairQueue

/-- Some batch entry has aged. -/
def aged (q : FairQueue α) (now : Time) : Bool :=
  q.batch.oldestEnqueuedAt.any fun t => decide (q.batchAging ≤ now - t)

/-- A pop at this time is an aging override. -/
def overrides (q : FairQueue α) (now : Time) : Bool := q.aged now && !q.lastPopForcedAgedBatch

/-- The lane of the schedule's slot `k` steps from the cursor. -/
def slot (q : FairQueue α) (k : Nat) : PriorityLane :=
  q.schedule.getD ((q.cursor + k) % q.schedule.length) .interactive

/-- Entry `e` was taken from lane `l`; the other lane and the configuration stayed. -/
structure Took (q : FairQueue α) (l : PriorityLane) (e : FairEntry α) (q' : FairQueue α) :
    Prop where
  lane : (q.lane l).pop = some (e, q'.lane l)
  other : q'.lane l.other = q.lane l.other
  schedule : q'.schedule = q.schedule
  batchAging : q'.batchAging = q.batchAging

theorem popLane_took {q q' : FairQueue α} {l : PriorityLane} {e : FairEntry α}
    (h : q.popLane l = some (e, q')) : Took q l e q' ∧ q'.cursor = q.cursor ∧
      q'.lastPopForcedAgedBatch = q.lastPopForcedAgedBatch := by
  unfold popLane at h
  split at h
  · cases h
  · next entry lane hlane =>
      cases h
      cases l with
      | interactive => exact ⟨⟨hlane, rfl, rfl, rfl⟩, rfl, rfl⟩
      | batch => exact ⟨⟨hlane, rfl, rfl, rfl⟩, rfl, rfl⟩

/-- The round-robin takes from the first lane on its way that has an entry. -/
theorem popScheduled_cases {n : Nat} {q q' : FairQueue α} {out : Option (FairEntry α)}
    (hs : q.Sound) (h : q.popScheduled n = (out, q')) :
    q'.lastPopForcedAgedBatch = q.lastPopForcedAgedBatch ∧
    ((out = none ∧ (∀ l, q'.lane l = q.lane l) ∧ q'.schedule = q.schedule) ∨
    ∃ k e, k < n ∧ out = some e ∧ Took q (q.slot k) e q' ∧
      q'.cursor = (q.cursor + k + 1) % q.schedule.length ∧
      ∀ i < k, (q.lane (q.slot i)).entries = []) := by
  induction n generalizing q with
  | zero =>
      obtain ⟨rfl, rfl⟩ := Prod.mk.inj h
      exact ⟨rfl, Or.inl ⟨rfl, fun _ => rfl, rfl⟩⟩
  | succ n ih =>
      have hpos : 0 < q.schedule.length := Nat.lt_of_le_of_lt (Nat.zero_le _) hs.cursor
      have hnext : ({ q with cursor := (q.cursor + 1) % q.schedule.length } : FairQueue α).Sound :=
        hs.serve (Nat.mod_lt _ hpos) q.lastPopForcedAgedBatch
      have hslot : q.schedule.getD q.cursor .interactive = q.slot 0 := by
        unfold slot
        rw [Nat.add_zero, Nat.mod_eq_of_lt hs.cursor]
      simp only [popScheduled, hslot] at h
      split at h
      · next e q₁ hlane =>
          obtain ⟨rfl, rfl⟩ := Prod.mk.inj h
          obtain ⟨htook, hcursor, hflag⟩ := popLane_took hlane
          refine ⟨hflag, Or.inr ⟨0, e, Nat.succ_pos n, rfl, ?_, hcursor, ?_⟩⟩
          · cases hl : q.slot 0 with
            | interactive =>
                rw [hl] at htook
                exact ⟨htook.lane, htook.other, htook.schedule, htook.batchAging⟩
            | batch =>
                rw [hl] at htook
                exact ⟨htook.lane, htook.other, htook.schedule, htook.batchAging⟩
          · intro i hi
            exact absurd hi (Nat.not_lt_zero i)
      · next hlane =>
          have hempty := hnext.popLane_none hlane
          obtain ⟨hflag, hcase⟩ := ih hnext h
          refine ⟨hflag, ?_⟩
          -- the slots of the rest of the way, counted from here
          have hshift : ∀ k, slot ({ q with
              cursor := (q.cursor + 1) % q.schedule.length } : FairQueue α) k = q.slot (k + 1) := by
            intro k
            have hmod : ((q.cursor + 1) % q.schedule.length + k) % q.schedule.length =
                (q.cursor + (k + 1)) % q.schedule.length := by
              rw [Nat.mod_add_mod, Nat.add_assoc, Nat.add_comm 1 k]
            show q.schedule.getD (((q.cursor + 1) % q.schedule.length + k) % q.schedule.length)
              .interactive = _
            rw [hmod]
            rfl
          rcases hcase with hnone | ⟨k, e, hk, hout, htook, hcursor, hskip⟩
          · exact Or.inl hnone
          · rw [hshift] at htook
            refine Or.inr ⟨k + 1, e, Nat.succ_lt_succ hk, hout, ?_, ?_, ?_⟩
            · exact ⟨htook.lane, htook.other, htook.schedule, htook.batchAging⟩
            · rw [hcursor]
              show ((q.cursor + 1) % q.schedule.length + k + 1) % q.schedule.length = _
              rw [Nat.add_assoc, Nat.mod_add_mod]
              congr 1
              omega
            · intro i hi
              cases i with
              | zero => exact hempty
              | succ i =>
                  have hi' := hskip i (Nat.lt_of_succ_lt_succ hi)
                  rw [hshift] at hi'
                  exact hi'

/-- **One pop.** An aging override takes a batch entry and leaves the cursor. Any other pop
clears the flag, and skips the slots of empty lanes and takes from the next one, or finds
both lanes empty. -/
theorem pop_cases {q q' : FairQueue α} {now : Time} {out : Option (FairEntry α)} (hs : q.Sound)
    (h : q.pop now = (out, q')) :
    (q.overrides now = true ∧ q'.lastPopForcedAgedBatch = true ∧ q'.cursor = q.cursor ∧
      ∃ e, out = some e ∧ Took q .batch e q') ∨
    (q.overrides now = false ∧ q'.lastPopForcedAgedBatch = false ∧
      ((out = none ∧ q.entries = [] ∧ (∀ l, q'.lane l = q.lane l) ∧ q'.schedule = q.schedule) ∨
      ∃ k e, out = some e ∧ Took q (q.slot k) e q' ∧
        q'.cursor = (q.cursor + k + 1) % q.schedule.length ∧
        ∀ i < k, (q.lane (q.slot i)).entries = [])) := by
  have hempty := (hs.pop h).2
  simp only [pop] at h
  split at h
  · next hforce =>
      left
      have hflagged := hs.serve hs.cursor true
      split at h
      · next e q₁ hlane =>
          obtain ⟨rfl, rfl⟩ := Prod.mk.inj h
          obtain ⟨htook, hcursor, hflag⟩ := popLane_took hlane
          exact ⟨hforce, hflag, hcursor, e, rfl,
            htook.lane, htook.other, htook.schedule, htook.batchAging⟩
      · next hlane =>
          -- an aged entry is an entry of the batch lane
          have hbatch : q.batch.entries = [] := hflagged.popLane_none hlane
          have hany := (Bool.and_eq_true_iff.mp hforce).1
          unfold LaneQueue.oldestEnqueuedAt at hany
          rw [hbatch] at hany
          cases hany
  · next hplain =>
      right
      have hcleared := hs.serve hs.cursor false
      obtain ⟨hflag, hcase⟩ := popScheduled_cases hcleared h
      refine ⟨by simpa [overrides, aged] using hplain, hflag, ?_⟩
      rcases hcase with ⟨hout, hlanes, hschedule⟩ | ⟨k, e, _, hout, htook, hcursor, hskip⟩
      · exact Or.inl ⟨hout, hempty hout, hlanes, hschedule⟩
      · exact Or.inr ⟨k, e, hout, ⟨htook.lane, htook.other, htook.schedule, htook.batchAging⟩,
          hcursor, hskip⟩

/-- The lane an entry was taken from is the entry's. -/
theorem Took.homed {q q' : FairQueue α} {l : PriorityLane} {e : FairEntry α} (h : Took q l e q')
    (hs : q.Sound) : e.lane = l :=
  (hs.lanes l).homed (LaneQueue.mem_pop h.lane).1

end FairQueue

/-! ## The pops of a history -/

/-- One pop: the queue it found, its time and what it returned. -/
structure FairPop (α : Type) where
  found : FairQueue α
  now : Time
  answer : Option (FairEntry α)

namespace FairQueue

/-- The pops of a history of operations, oldest first. -/
def pops : FairQueue α → List (FairOp α) → List (FairPop α)
  | _, [] => []
  | q, .pop now :: ops => ⟨q, now, (q.pop now).1⟩ :: (q.pop now).2.pops ops
  | q, op :: ops => (q.apply op).2.pops ops

/-- Every state of a history is sound. -/
theorem Sound.pops {q : FairQueue α} (hs : q.Sound) (ops : List (FairOp α)) :
    ∀ p ∈ q.pops ops, p.found.Sound ∧ p.answer = (p.found.pop p.now).1 := by
  induction ops generalizing q with
  | nil =>
      intro p hp
      cases hp
  | cons op ops ih =>
      have hnext : (q.apply op).2.Sound := (hs.apply (l := (op, (q.apply op).1)) rfl).1
      cases op with
      | pop now =>
          intro p hp
          rcases List.mem_cons.mp hp with rfl | hp
          · exact ⟨hs, rfl⟩
          · exact ih hnext p hp
      | push _ | remove _ | getMut _ _ | iterMut _ => exact ih hnext

/-- A reachable queue is sound. -/
theorem reachable_sound {config : FairQueueConfig} {q : FairQueue α}
    (h : (fairQueue config).Reachable q) : q.Sound := by
  induction h with
  | init hnew => exact (new_sound hnew).1
  | step _ hstep ih => exact (ih.apply hstep).1

end FairQueue

end RunAnywhere
