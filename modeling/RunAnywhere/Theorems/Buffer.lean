import RunAnywhere.Logic.TSys
import RunAnywhere.Repository.Run
import RunAnywhere.Scheduler.Buffer

/-!
# The fairness buffer conserves its entries

`fairQueue` takes the operations of `FairQueue` one after the other, in any order. `bag` is
what the buffer is for: a collection of entries that a push adds to, a pop or a removal
takes from, and the two visitors rewrite the payloads of.

* **representation** — every state is `FairQueue.Sound` (`fairQueue_sound`);
* **simulation** — every run of the queue is a run of the bag (`fairQueue_simulates`);
* **conservation** — what a bag was given is what was taken out of it and what is left
  (`bag_conserves`).
-/

namespace RunAnywhere

open Logic

variable {α : Type}

/-- The public operations; the visitors change payloads only. -/
inductive FairOp (α : Type)
  | push (entry : FairEntry α)
  | pop (now : Time)
  | remove (jobId : JobId)
  | getMut (jobId : JobId) (payload : α)
  | iterMut (visit : FairEntry α → α)

inductive FairAnswer (α : Type)
  | pushed
  | refused (error : FairQueueError α)
  | popped (entry : Option (FairEntry α))
  | removed (entry : Option (FairEntry α))
  | visited

/-- One operation and its answer. -/
def FairQueue.apply (q : FairQueue α) : FairOp α → FairAnswer α × FairQueue α
  | .push entry =>
      match q.push entry with
      | .ok q' => (.pushed, q')
      | .error error => (.refused error, q)
  | .pop now => ((.popped (q.pop now).1), (q.pop now).2)
  | .remove j => ((.removed (q.remove j).1), (q.remove j).2)
  | .getMut j payload => (.visited, q.setPayload j payload)
  | .iterMut visit => (.visited, q.setPayloads visit)

/-- The queue of `config` under its operations. -/
def fairQueue (config : FairQueueConfig) : TSys (FairQueue α) (FairOp α × FairAnswer α) where
  init q := FairQueue.new config = .ok q
  step q l q' := q.apply l.1 = (l.2, q')

/-! ## The bag -/

/-- The entry a step adds. -/
def added : FairOp α × FairAnswer α → List (FairEntry α)
  | (.push entry, .pushed) => [entry]
  | _ => []

/-- The entry a step returns. -/
def taken : FairOp α × FairAnswer α → List (FairEntry α)
  | (_, .popped entry) | (_, .removed entry) => entry.toList
  | _ => []

/-- What a step makes of an entry that stays. -/
def rewritten : FairOp α × FairAnswer α → FairEntry α → FairEntry α
  | (.getMut j payload, _), e => if e.jobId = j then { e with payload := payload } else e
  | (.iterMut visit, _), e => { e with payload := visit e }
  | _, e => e

/-- A collection of entries, whatever their order. -/
def bag : TSys (List (FairEntry α)) (FairOp α × FairAnswer α) where
  init b := b = []
  step b l b' := ((added l ++ b).map (rewritten l)).Perm (taken l ++ b')

theorem rewritten_header (l : FairOp α × FairAnswer α) (e : FairEntry α) :
    (rewritten l e).header = e.header := by
  unfold rewritten
  split
  · split <;> rfl
  · rfl
  · rfl

/-- One step neither loses nor invents an entry. -/
theorem bag_step {b b' : List (FairEntry α)} {l : FairOp α × FairAnswer α}
    (h : bag.step b l b') : ((added l).map FairEntry.header ++ b.map FairEntry.header).Perm
      ((taken l).map FairEntry.header ++ b'.map FairEntry.header) := by
  have hmap := List.Perm.map FairEntry.header h
  rw [List.map_map, List.map_append] at hmap
  have hsame : (FairEntry.header ∘ rewritten l : FairEntry α → _) = FairEntry.header :=
    funext (rewritten_header l)
  rw [hsame, List.map_append] at hmap
  exact hmap

/-- **Conservation.** -/
theorem bag_conserves {b : List (FairEntry α)} {ls : List (FairOp α × FairAnswer α)}
    (h : bag.Run [] ls b) : ((ls.flatMap added).map FairEntry.header).Perm
      ((ls.flatMap taken).map FairEntry.header ++ b.map FairEntry.header) := by
  induction h with
  | nil => exact .refl _
  | @snoc ls b l b' _ hstep ih =>
      have hlast := bag_step hstep
      rw [List.flatMap_append, List.flatMap_append, List.map_append, List.map_append,
        List.flatMap_singleton, List.flatMap_singleton, List.append_assoc]
      calc List.Perm _ ((ls.flatMap taken).map FairEntry.header ++ b.map FairEntry.header ++
              (added l).map FairEntry.header) := ih.append_right _
        List.Perm _ ((ls.flatMap taken).map FairEntry.header ++
              ((added l).map FairEntry.header ++ b.map FairEntry.header)) := by
            rw [List.append_assoc]
            exact List.perm_append_comm.append_left _
        List.Perm _ ((ls.flatMap taken).map FairEntry.header ++
              ((taken l).map FairEntry.header ++ b'.map FairEntry.header)) :=
            hlast.append_left _

/-! ## The queue is a bag -/

theorem FairQueue.Sound.apply {q q' : FairQueue α} (h : q.Sound)
    {l : FairOp α × FairAnswer α} (hstep : q.apply l.1 = (l.2, q')) :
    q'.Sound ∧ q'.capacity = q.capacity ∧ bag.step q.entries l q'.entries := by
  obtain ⟨op, answer⟩ := l
  cases op with
  | push entry =>
      simp only [FairQueue.apply] at hstep
      split at hstep
      · next q₁ hpush =>
          obtain ⟨rfl, rfl⟩ := Prod.mk.inj hstep
          obtain ⟨hsound, hperm, hcap⟩ := h.push hpush
          refine ⟨hsound, hcap, ?_⟩
          show ((entry :: q.entries).map id).Perm q₁.entries
          rw [List.map_id]
          exact hperm.symm
      · obtain ⟨rfl, rfl⟩ := Prod.mk.inj hstep
        exact ⟨h, rfl, .of_eq (List.map_id _)⟩
  | pop now =>
      obtain ⟨rfl, rfl⟩ := Prod.mk.inj hstep
      have hpop : q.pop now = ((q.pop now).1, (q.pop now).2) := rfl
      obtain ⟨hsound, hperm, hcap⟩ := (h.pop hpop).1
      exact ⟨hsound, hcap, (List.Perm.of_eq (List.map_id _)).trans hperm⟩
  | remove j =>
      obtain ⟨rfl, rfl⟩ := Prod.mk.inj hstep
      obtain ⟨hsound, hperm, hcap⟩ := (h.remove (j := j) rfl).1
      exact ⟨hsound, hcap, (List.Perm.of_eq (List.map_id _)).trans hperm⟩
  | getMut j payload =>
      obtain ⟨rfl, rfl⟩ := Prod.mk.inj hstep
      obtain ⟨hsound, hentries⟩ := h.setPayload j payload
      refine ⟨hsound, ?_, .of_eq hentries.symm⟩
      unfold FairQueue.setPayload
      split <;> rfl
  | iterMut visit =>
      obtain ⟨rfl, rfl⟩ := Prod.mk.inj hstep
      obtain ⟨hsound, hentries⟩ := h.setPayloads visit
      exact ⟨hsound, rfl, .of_eq hentries.symm⟩

/-- **Run.** The representation is kept, and the run is one of the bag. -/
theorem fairQueue_simulates {config : FairQueueConfig} {start q : FairQueue α}
    (hs : start.Sound) (hempty : start.entries = []) {ls : List (FairOp α × FairAnswer α)}
    (hrun : (fairQueue config).Run start ls q) :
    q.Sound ∧ q.capacity = start.capacity ∧ bag.Run [] ls q.entries := by
  induction hrun with
  | nil =>
      rw [hempty]
      exact ⟨hs, rfl, .nil _⟩
  | snoc _ hstep ih =>
      obtain ⟨hsound, hcap, hbag⟩ := ih
      obtain ⟨hsound', hcap', hlast⟩ := hsound.apply hstep
      exact ⟨hsound', hcap'.trans hcap, .snoc hbag hlast⟩

/-- An entry just popped fits back in, whatever became of its payload. -/
theorem FairQueue.Sound.push_popped {q q' : FairQueue α} (h : q.Sound) {now : Time}
    {e : FairEntry α} (hpop : q.pop now = (some e, q')) (payload : α) :
    ∃ q'', q'.push { e with payload := payload } = .ok q'' := by
  obtain ⟨hsound, hperm, hcap⟩ := (h.pop hpop).1
  have hids := hperm.map (·.jobId)
  have hdistinct := List.nodup_cons.mp (hids.nodup_iff.mp h.distinct)
  refine hsound.push_ok (fun x hx hj => hdistinct.1 ?_) ?_
  · exact List.mem_map.mpr ⟨x, hx, hj⟩
  · have hlen : q.entries.length = q'.entries.length + 1 := hperm.length_eq
    have hbound := h.bounded
    rw [h.len] at hbound
    rw [hsound.len, hcap]
    omega

/-- **The fairness buffer.** For every accepted configuration and every sequence of
operations: the representation is sound, and within the configured capacity; no lane is
in a state that `pop` panics on; the queue behaves as a bag, so that what was pushed is, up
to payloads, what was returned and what is still buffered, each once; a refused push
returns its entry and changes nothing; a pop that returns nothing finds the queue empty;
and the entry a pop returns can be pushed back. -/
theorem fair_queue_conserves {config : FairQueueConfig} {start q : FairQueue α}
    (hnew : FairQueue.new config = .ok start) {ls : List (FairOp α × FairAnswer α)}
    (hrun : (fairQueue config).Run start ls q) :
    (q.Sound ∧ q.capacity = config.capacity ∧ ∀ l, ¬ (q.lane l).Broken) ∧
    (bag.Run [] ls q.entries ∧ ((ls.flatMap added).map FairEntry.header).Perm
      ((ls.flatMap taken).map FairEntry.header ++ q.entries.map FairEntry.header)) ∧
    (∀ e error q', (fairQueue config).step q (.push e, .refused error) q' →
      q' = q ∧ (error = .full e ∨ error = .duplicate e)) ∧
    (∀ now q', q.pop now = (none, q') → q.entries = []) ∧
    (∀ now e q', q.pop now = (some e, q') →
      ∀ payload, ∃ q'', q'.push { e with payload := payload } = .ok q'') := by
  obtain ⟨hstart, hempty, hcap⟩ := FairQueue.new_sound hnew
  obtain ⟨hsound, hsame, hbag⟩ := fairQueue_simulates hstart hempty hrun
  refine ⟨⟨hsound, hsame.trans hcap, fun l => (hsound.lanes l).not_broken⟩,
    ⟨hbag, bag_conserves hbag⟩, fun e error q' hstep => ?_, fun now q' hpop => ?_,
    fun now e q' hpop => hsound.push_popped hpop⟩
  · have hstep' : q.apply (.push e) = (.refused error, q') := hstep
    simp only [FairQueue.apply] at hstep'
    split at hstep'
    · cases hstep'
    · next hpush =>
        cases hstep'
        refine ⟨rfl, ?_⟩
        unfold FairQueue.push at hpush
        split at hpush
        · cases hpush
          exact Or.inr rfl
        · split at hpush
          · cases hpush
            exact Or.inl rfl
          · cases hpush
  · exact (hsound.pop hpop).2 rfl

/-- The operations one after the other, with their answers. -/
def FairQueue.replay (q : FairQueue α) :
    List (FairOp α) → List (FairOp α × FairAnswer α) × FairQueue α
  | [] => ([], q)
  | op :: ops =>
      let applied := q.apply op
      let rest := applied.2.replay ops
      ((op, applied.1) :: rest.1, rest.2)

theorem FairQueue.replay_run {config : FairQueueConfig} (q : FairQueue α) (ops : List (FairOp α)) :
    (fairQueue config).Run q (q.replay ops).1 (q.replay ops).2 := by
  induction ops generalizing q with
  | nil => exact .nil q
  | cons op ops ih =>
      have hstep : (fairQueue config).step q (op, (q.apply op).1) (q.apply op).2 := rfl
      exact (TSys.Run.single hstep).append (ih (q.apply op).2)

namespace Sample

def smallBuffer : FairQueueConfig := ⟨4, 2, 1, 5⟩

/-- Job number `n` of a project, created at that second. -/
def entry (project : ProjectId) (lane : PriorityLane) (n : Nat) : FairEntry Unit :=
  ⟨lettered "job_" n, project, lane, n, n, ()⟩

/-- Two projects push in both lanes until the queue is full. An entry is popped, another is pushed
in its place, and a job is taken out. -/
def traffic : List (FairOp Unit) :=
  [.push (entry (lettered "proj_" 0) .batch 0), .push (entry (lettered "proj_" 0) .interactive 1),
    .push (entry (lettered "proj_" 1) .interactive 2), .push (entry (lettered "proj_" 1) .batch 3),
    .push (entry (lettered "proj_" 1) .batch 4), .pop 4,
    .push (entry (lettered "proj_" 0) .interactive 5), .remove (lettered "job_" 3)]

/-- The operations with their answers, and the queue after them. -/
def served : List (FairOp Unit × FairAnswer Unit) × FairQueue Unit :=
  (FairQueue.ofConfig smallBuffer).replay traffic

end Sample

/-- A push is refused, a pop returns the oldest interactive entry and a removal a batch entry; the
other three are there. -/
theorem fair_queue_conserves_pushed : Sample.served.2.Sound ∧ Sample.served.2.capacity = 4 ∧
    (Sample.served.1.flatMap added).map (·.createdAt) = [0, 1, 2, 3, 5] ∧
    (Sample.served.1.flatMap taken).map (·.createdAt) = [1, 3] ∧
    ((Sample.served.1.flatMap added).map FairEntry.header).Perm
      ((Sample.served.1.flatMap taken).map FairEntry.header ++
        Sample.served.2.entries.map FairEntry.header) := by
  have hnew : FairQueue.new Sample.smallBuffer = .ok (FairQueue.ofConfig (α := Unit)
      Sample.smallBuffer) := rfl
  obtain ⟨⟨hsound, hcap, _⟩, ⟨_, hperm⟩, _⟩ :=
    fair_queue_conserves hnew (FairQueue.replay_run _ Sample.traffic)
  exact ⟨hsound, hcap, by decide +kernel, by decide +kernel, hperm⟩

end RunAnywhere
