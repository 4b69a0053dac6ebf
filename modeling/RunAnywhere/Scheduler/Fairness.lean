import RunAnywhere.Contracts.Worker
import RunAnywhere.Logic.Table

/-!
# The fairness buffer

`scheduler/src/fairness.rs`: two lanes of project buckets. A lane serves its
projects in turn and each bucket in order of creation; the lanes are served by a
weighted schedule that an aged batch entry may jump, never twice in a row.
-/

namespace RunAnywhere

open Logic

inductive PriorityLane
  | interactive | batch
  deriving DecidableEq

/-- `From<JobMode>`. -/
def JobMode.lane : JobMode → PriorityLane
  | .browserDebug => .interactive
  | .headlessCi => .batch

/-- `FairQueueConfig`; durations are microseconds. -/
structure FairQueueConfig where
  capacity : Nat
  interactiveWeight : Nat
  batchWeight : Nat
  batchAging : Nat
  deriving DecidableEq

inductive FairQueueConfigError
  | emptyCapacity | emptyWeight | excessiveWeight | emptyBatchAging
  deriving DecidableEq

structure FairEntry (α : Type) where
  jobId : JobId
  projectId : ProjectId
  lane : PriorityLane
  /-- Canonical database creation time used for FIFO ordering. -/
  createdAt : Time
  /-- Time inserted into this in-memory buffer, used for aging. -/
  enqueuedAt : Time
  payload : α

inductive FairQueueError (α : Type)
  | full (entry : FairEntry α)
  | duplicate (entry : FairEntry α)

/-- One lane: the buckets of its projects and the ring they are served in. -/
structure LaneQueue (α : Type) where
  projects : Table ProjectId (List (FairEntry α))
  projectRing : List ProjectId
  len : Nat

structure FairQueue (α : Type) where
  capacity : Nat
  batchAging : Int
  schedule : List PriorityLane
  cursor : Nat
  interactive : LaneQueue α
  batch : LaneQueue α
  jobIds : List JobId
  len : Nat
  lastPopForcedAgedBatch : Bool

variable {α : Type}

/-! ## Lanes -/

namespace LaneQueue

def empty : LaneQueue α := ⟨Table.empty, [], 0⟩

/-- The buffered entries of the lane. -/
def entries (q : LaneQueue α) : List (FairEntry α) := q.projects.rows.flatMap Prod.snd

/-- The order inside a bucket: `(created_at, job_id)`. -/
def before (a b : FairEntry α) : Bool :=
  decide (a.createdAt < b.createdAt) ||
    (decide (a.createdAt = b.createdAt) && decide (a.jobId.val < b.jobId.val))

/-- `bucket.insert` at the position a binary search finds. -/
def insertEntry (entry : FairEntry α) (bucket : List (FairEntry α)) : List (FairEntry α) :=
  bucket.takeWhile (before · entry) ++ entry :: bucket.dropWhile (before · entry)

/-- `LaneQueue::push`. -/
def push (q : LaneQueue α) (entry : FairEntry α) : LaneQueue α :=
  match q.projects.get? entry.projectId with
  | some bucket =>
      { q with
        projects := q.projects.put entry.projectId (insertEntry entry bucket), len := q.len + 1 }
  | none =>
      { projects := q.projects.put entry.projectId (insertEntry entry [])
        projectRing := q.projectRing ++ [entry.projectId]
        len := q.len + 1 }

/-- `LaneQueue::pop`. A ring without its bucket, or with an empty one, does not
occur. -/
def pop (q : LaneQueue α) : Option (FairEntry α × LaneQueue α) :=
  match q.projectRing with
  | [] => none
  | projectId :: ring =>
      match q.projects.get? projectId with
      | some (entry :: rest) =>
          if rest.isEmpty then
            some (entry, ⟨q.projects.erase projectId, ring, q.len - 1⟩)
          else some (entry, ⟨q.projects.put projectId rest, ring ++ [projectId], q.len - 1⟩)
      | some [] | none => none

/-- `LaneQueue::remove`: the bucket is looked for by its entries, not by a project id. -/
def remove (q : LaneQueue α) (j : JobId) : Option (FairEntry α × LaneQueue α) :=
  match q.projects.rows.find? fun row => row.2.any (·.jobId = j) with
  | none => none
  | some (projectId, bucket) =>
      match bucket.find? (·.jobId = j) with
      | none => none
      | some entry =>
          let rest := bucket.eraseP (·.jobId = j)
          if rest.isEmpty then
            some (entry,
              ⟨q.projects.erase projectId, q.projectRing.filter (· ≠ projectId), q.len - 1⟩)
          else some (entry, ⟨q.projects.put projectId rest, q.projectRing, q.len - 1⟩)

/-- `LaneQueue::get_mut`, read. -/
def get? (q : LaneQueue α) (j : JobId) : Option (FairEntry α) := q.entries.find? (·.jobId = j)

/-- `LaneQueue::get_mut`, written: the payload of the entry of `j` is replaced. -/
def setPayload (q : LaneQueue α) (j : JobId) (payload : α) : LaneQueue α :=
  { q with
    projects := q.projects.mapRows fun _ bucket =>
      bucket.map fun e => if e.jobId = j then { e with payload := payload } else e }

/-- `LaneQueue::iter_mut` with a visitor that sets the payloads. -/
def setPayloads (q : LaneQueue α) (f : FairEntry α → α) : LaneQueue α :=
  { q with
    projects := q.projects.mapRows fun _ bucket => bucket.map fun e => { e with payload := f e } }

/-- `LaneQueue::oldest_enqueued_at`. -/
def oldestEnqueuedAt (q : LaneQueue α) : Option Time := (q.entries.map (·.enqueuedAt)).min?

end LaneQueue

/-! ## The queue -/

namespace FairQueue

/-- The empty queue of a configuration. -/
def ofConfig (config : FairQueueConfig) : FairQueue α where
  capacity := config.capacity
  batchAging := config.batchAging
  schedule := List.replicate config.interactiveWeight .interactive ++
    List.replicate config.batchWeight .batch
  cursor := 0
  interactive := LaneQueue.empty
  batch := LaneQueue.empty
  jobIds := []
  len := 0
  lastPopForcedAgedBatch := false

/-- The longest `chrono::Duration`. -/
def maxBatchAging : Nat := 9223372036854775807000

/-- `FairQueue::new`. -/
def new (config : FairQueueConfig) : Except FairQueueConfigError (FairQueue α) :=
  if config.capacity = 0 then .error .emptyCapacity
  else if config.interactiveWeight = 0 ∨ config.batchWeight = 0 then .error .emptyWeight
  else if 1024 < config.interactiveWeight + config.batchWeight then .error .excessiveWeight
  else if config.batchAging = 0 then .error .emptyBatchAging
  else if maxBatchAging < config.batchAging then .error .emptyBatchAging
  else .ok (ofConfig config)

/-- The configuration `new` asks for. -/
structure Accepts (config : FairQueueConfig) : Prop where
  capacity : 0 < config.capacity
  interactive : 0 < config.interactiveWeight
  batch : 0 < config.batchWeight
  combined : config.interactiveWeight + config.batchWeight ≤ 1024
  aging : 0 < config.batchAging
  representable : config.batchAging ≤ maxBatchAging

/-- **Configuration.** `new` returns the empty queue of an accepted configuration. -/
theorem new_eq_ok_iff {config : FairQueueConfig} {q : FairQueue α} :
    new config = .ok q ↔ Accepts config ∧ q = ofConfig config := by
  unfold new
  constructor
  · intro h
    split at h
    · cases h
    split at h
    · cases h
    split at h
    · cases h
    split at h
    · cases h
    split at h
    · cases h
    exact ⟨⟨by omega, by omega, by omega, by omega, by omega, by omega⟩,
      (Except.ok.inj h).symm⟩
  · rintro ⟨⟨_, _, _, _, _, _⟩, rfl⟩
    rw [if_neg (by omega), if_neg (by omega), if_neg (by omega), if_neg (by omega),
      if_neg (by omega)]

/-- The buffered entries. -/
def entries (q : FairQueue α) : List (FairEntry α) := q.interactive.entries ++ q.batch.entries

def lane (q : FairQueue α) : PriorityLane → LaneQueue α
  | .interactive => q.interactive
  | .batch => q.batch

def setLane (q : FairQueue α) (l : PriorityLane) (lane : LaneQueue α) : FairQueue α :=
  match l with
  | .interactive => { q with interactive := lane }
  | .batch => { q with batch := lane }

/-- `FairQueue::get_mut`, read. -/
def get? (q : FairQueue α) (j : JobId) : Option (FairEntry α) :=
  (q.interactive.get? j).or (q.batch.get? j)

/-- `FairQueue::get_mut`, written. -/
def setPayload (q : FairQueue α) (j : JobId) (payload : α) : FairQueue α :=
  if (q.interactive.get? j).isSome then
    { q with interactive := q.interactive.setPayload j payload }
  else { q with batch := q.batch.setPayload j payload }

/-- `FairQueue::push`. -/
def push (q : FairQueue α) (entry : FairEntry α) : Except (FairQueueError α) (FairQueue α) :=
  if q.jobIds.contains entry.jobId then .error (.duplicate entry)
  else if q.len = q.capacity then .error (.full entry)
  else
    let pushed := q.setLane entry.lane ((q.lane entry.lane).push entry)
    .ok { pushed with jobIds := entry.jobId :: q.jobIds, len := q.len + 1 }

/-- `FairQueue::pop_lane`. -/
def popLane (q : FairQueue α) (l : PriorityLane) : Option (FairEntry α × FairQueue α) :=
  match (q.lane l).pop with
  | none => none
  | some (entry, lane) =>
      let popped := q.setLane l lane
      some (entry, { popped with jobIds := q.jobIds.erase entry.jobId, len := q.len - 1 })

/-- The weighted round-robin of `FairQueue::pop`: at most `n` slots are tried. -/
def popScheduled (q : FairQueue α) : Nat → Option (FairEntry α) × FairQueue α
  | 0 => (none, q)
  | n + 1 =>
      let l := q.schedule.getD q.cursor .interactive
      let q := { q with cursor := (q.cursor + 1) % q.schedule.length }
      match q.popLane l with
      | some (entry, q') => (some entry, q')
      | none => q.popScheduled n

/-- `FairQueue::pop`. -/
def pop (q : FairQueue α) (now : Time) : Option (FairEntry α) × FairQueue α :=
  let agedBatch := q.batch.oldestEnqueuedAt.any fun t => decide (q.batchAging ≤ now - t)
  if agedBatch && !q.lastPopForcedAgedBatch then
    let q := { q with lastPopForcedAgedBatch := true }
    match q.popLane .batch with
    | some (entry, q') => (some entry, q')
    | none => (none, q)
  else
    let q := { q with lastPopForcedAgedBatch := false }
    q.popScheduled q.schedule.length

/-- `FairQueue::remove`. -/
def remove (q : FairQueue α) (j : JobId) : Option (FairEntry α) × FairQueue α :=
  let removed :=
    match q.interactive.remove j with
    | some (entry, lane) => some (entry, { q with interactive := lane })
    | none =>
        match q.batch.remove j with
        | some (entry, lane) => some (entry, { q with batch := lane })
        | none => none
  match removed with
  | some (entry, q') => (some entry, { q' with jobIds := q.jobIds.erase j, len := q.len - 1 })
  | none => (none, q)

/-- `FairQueue::iter_mut` with a visitor that sets the payloads. -/
def setPayloads (q : FairQueue α) (f : FairEntry α → α) : FairQueue α :=
  { q with interactive := q.interactive.setPayloads f, batch := q.batch.setPayloads f }

end FairQueue

/-! ## Where entries come from -/

namespace LaneQueue

theorem mem_insertEntry {e x : FairEntry α} {bucket : List (FairEntry α)}
    (h : x ∈ insertEntry e bucket) : x = e ∨ x ∈ bucket := by
  unfold insertEntry at h
  rcases List.mem_append.mp h with h | h
  · exact Or.inr ((List.takeWhile_sublist _).mem h)
  · rcases List.mem_cons.mp h with h | h
    · exact Or.inl h
    · exact Or.inr ((List.dropWhile_sublist _).mem h)

theorem mem_entries {q : LaneQueue α} {x : FairEntry α} :
    x ∈ q.entries ↔ ∃ p bucket, q.projects.get? p = some bucket ∧ x ∈ bucket := by
  unfold entries
  rw [List.mem_flatMap]
  constructor
  · rintro ⟨⟨p, bucket⟩, hp, hx⟩
    exact ⟨p, bucket, (Table.mem_rows_iff _ _ _).mp hp, hx⟩
  · rintro ⟨p, bucket, hp, hx⟩
    exact ⟨(p, bucket), (Table.mem_rows_iff _ _ _).mpr hp, hx⟩

/-- Replacing one bucket adds entries of the new bucket only. -/
theorem mem_entries_put {q : LaneQueue α} {ring : List ProjectId} {n : Nat} {p : ProjectId}
    {bucket : List (FairEntry α)} {x : FairEntry α}
    (h : x ∈ entries ⟨q.projects.put p bucket, ring, n⟩) : x ∈ bucket ∨ x ∈ q.entries := by
  obtain ⟨p', bucket', hp', hx⟩ := mem_entries.mp h
  rw [Table.get?_put] at hp'
  split at hp'
  · obtain rfl := Option.some.inj hp'
    exact Or.inl hx
  · exact Or.inr (mem_entries.mpr ⟨p', bucket', hp', hx⟩)

theorem mem_push {q : LaneQueue α} {e x : FairEntry α} (h : x ∈ (q.push e).entries) :
    x = e ∨ x ∈ q.entries := by
  unfold push at h
  split at h
  · next bucket hb =>
      rcases mem_entries_put h with hx | hx
      · rcases mem_insertEntry hx with hx | hx
        · exact Or.inl hx
        · exact Or.inr (mem_entries.mpr ⟨_, bucket, hb, hx⟩)
      · exact Or.inr hx
  · rcases mem_entries_put h with hx | hx
    · rcases mem_insertEntry hx with hx | hx
      · exact Or.inl hx
      · cases hx
    · exact Or.inr hx

theorem mem_pop {q q' : LaneQueue α} {e : FairEntry α} (h : q.pop = some (e, q')) :
    e ∈ q.entries ∧ ∀ x ∈ q'.entries, x ∈ q.entries := by
  unfold pop at h
  split at h
  · cases h
  · next p ring _ =>
      split at h
      · next entry rest hb =>
          have hin : ∀ x ∈ entry :: rest, x ∈ q.entries :=
            fun x hx => mem_entries.mpr ⟨p, entry :: rest, hb, hx⟩
          split at h
          · cases h
            refine ⟨hin _ List.mem_cons_self, fun x hx => ?_⟩
            unfold entries at hx ⊢
            obtain ⟨y, hy, hxy⟩ := List.mem_flatMap.mp hx
            exact List.mem_flatMap.mpr ⟨y, List.mem_of_mem_filter hy, hxy⟩
          · cases h
            refine ⟨hin _ List.mem_cons_self, fun x hx => ?_⟩
            rcases mem_entries_put hx with hx | hx
            · exact hin x (List.mem_cons_of_mem _ hx)
            · exact hx
      · cases h
      · cases h

theorem get?_mem {q : LaneQueue α} {j : JobId} {e : FairEntry α} (h : q.get? j = some e) :
    e ∈ q.entries ∧ e.jobId = j :=
  ⟨List.mem_of_find?_eq_some h, by simpa using List.find?_some h⟩

theorem mem_setPayload {q : LaneQueue α} {j : JobId} {payload : α} {x : FairEntry α}
    (h : x ∈ (q.setPayload j payload).entries) :
    x ∈ q.entries ∨ (x.jobId = j ∧ x.payload = payload) := by
  obtain ⟨p, bucket, hp, hx⟩ := mem_entries.mp h
  change (q.projects.mapRows _).get? p = some bucket at hp
  rw [Table.get?_mapRows] at hp
  obtain ⟨bucket₀, hp₀, rfl⟩ := Option.map_eq_some_iff.mp hp
  obtain ⟨y, hy, rfl⟩ := List.mem_map.mp hx
  split
  · next hj => exact Or.inr ⟨hj, rfl⟩
  · exact Or.inl (mem_entries.mpr ⟨p, bucket₀, hp₀, hy⟩)

end LaneQueue

namespace FairQueue

theorem mem_entries {q : FairQueue α} {x : FairEntry α} :
    x ∈ q.entries ↔ ∃ l, x ∈ (q.lane l).entries := by
  unfold entries
  rw [List.mem_append]
  constructor
  · rintro (h | h)
    · exact ⟨.interactive, h⟩
    · exact ⟨.batch, h⟩
  · rintro ⟨l, h⟩
    cases l with
    | interactive => exact Or.inl h
    | batch => exact Or.inr h

/-- Replacing one lane adds entries of the new lane only. -/
theorem mem_setLane {q : FairQueue α} {l : PriorityLane} {lane : LaneQueue α} {x : FairEntry α}
    (h : x ∈ (q.setLane l lane).entries) : x ∈ lane.entries ∨ x ∈ q.entries := by
  obtain ⟨l', hx⟩ := mem_entries.mp h
  cases l <;> cases l'
  · exact Or.inl hx
  · exact Or.inr (mem_entries.mpr ⟨.batch, hx⟩)
  · exact Or.inr (mem_entries.mpr ⟨.interactive, hx⟩)
  · exact Or.inl hx

theorem mem_push {q q' : FairQueue α} {e x : FairEntry α} (h : q.push e = .ok q')
    (hx : x ∈ q'.entries) : x = e ∨ x ∈ q.entries := by
  unfold push at h
  split at h
  · cases h
  · split at h
    · cases h
    · obtain rfl := Except.ok.inj h
      have hx' : x ∈ (q.setLane e.lane ((q.lane e.lane).push e)).entries := hx
      rcases mem_setLane hx' with hx' | hx'
      · rcases LaneQueue.mem_push hx' with hx' | hx'
        · exact Or.inl hx'
        · exact Or.inr (mem_entries.mpr ⟨_, hx'⟩)
      · exact Or.inr hx'

theorem mem_popLane {q q' : FairQueue α} {l : PriorityLane} {e : FairEntry α}
    (h : q.popLane l = some (e, q')) : e ∈ q.entries ∧ ∀ x ∈ q'.entries, x ∈ q.entries := by
  unfold popLane at h
  split at h
  · cases h
  · next entry lane hpop =>
      cases h
      obtain ⟨he, hsub⟩ := LaneQueue.mem_pop hpop
      refine ⟨mem_entries.mpr ⟨l, he⟩, fun x hx => ?_⟩
      have hx' : x ∈ (q.setLane l lane).entries := hx
      rcases mem_setLane hx' with hx' | hx'
      · exact mem_entries.mpr ⟨l, hsub x hx'⟩
      · exact hx'

theorem mem_popScheduled {n : Nat} {q q' : FairQueue α} {out : Option (FairEntry α)}
    (h : q.popScheduled n = (out, q')) :
    (∀ e, out = some e → e ∈ q.entries) ∧ ∀ x ∈ q'.entries, x ∈ q.entries := by
  induction n generalizing q with
  | zero =>
      obtain ⟨rfl, rfl⟩ := Prod.mk.inj h
      exact ⟨fun _ he => (nomatch he), fun _ hx => hx⟩
  | succ n ih =>
      simp only [popScheduled] at h
      split at h
      · next entry q₁ hpop =>
          obtain ⟨rfl, rfl⟩ := Prod.mk.inj h
          obtain ⟨he, hsub⟩ := mem_popLane hpop
          refine ⟨fun e hout => ?_, hsub⟩
          obtain rfl := Option.some.inj hout
          exact he
      · have hrest := ih h
        exact hrest

/-- **Pop.** The entry popped was buffered, and so are the ones left. -/
theorem mem_pop {q q' : FairQueue α} {now : Time} {out : Option (FairEntry α)}
    (h : q.pop now = (out, q')) :
    (∀ e, out = some e → e ∈ q.entries) ∧ ∀ x ∈ q'.entries, x ∈ q.entries := by
  simp only [pop] at h
  split at h
  · split at h
    · next entry q₁ hpop =>
        obtain ⟨rfl, rfl⟩ := Prod.mk.inj h
        obtain ⟨he, hsub⟩ := mem_popLane hpop
        refine ⟨fun e hout => ?_, hsub⟩
        obtain rfl := Option.some.inj hout
        exact he
    · obtain ⟨rfl, rfl⟩ := Prod.mk.inj h
      exact ⟨fun _ he => (nomatch he), fun _ hx => hx⟩
  · have hrest := mem_popScheduled h
    exact hrest

theorem get?_mem {q : FairQueue α} {j : JobId} {e : FairEntry α} (h : q.get? j = some e) :
    e ∈ q.entries ∧ e.jobId = j := by
  rcases Option.or_eq_some_iff.mp h with h | ⟨_, h⟩
  · exact ⟨mem_entries.mpr ⟨.interactive, (LaneQueue.get?_mem h).1⟩, (LaneQueue.get?_mem h).2⟩
  · exact ⟨mem_entries.mpr ⟨.batch, (LaneQueue.get?_mem h).1⟩, (LaneQueue.get?_mem h).2⟩

theorem mem_setPayload {q : FairQueue α} {j : JobId} {payload : α} {x : FairEntry α}
    (h : x ∈ (q.setPayload j payload).entries) :
    x ∈ q.entries ∨ (x.jobId = j ∧ x.payload = payload) := by
  unfold setPayload at h
  split at h
  all_goals
    obtain ⟨l, hx⟩ := mem_entries.mp h
    cases l
  · exact (LaneQueue.mem_setPayload hx).imp_left fun hx => mem_entries.mpr ⟨.interactive, hx⟩
  · exact Or.inl (mem_entries.mpr ⟨.batch, hx⟩)
  · exact Or.inl (mem_entries.mpr ⟨.interactive, hx⟩)
  · exact (LaneQueue.mem_setPayload hx).imp_left fun hx => mem_entries.mpr ⟨.batch, hx⟩

end FairQueue

end RunAnywhere
