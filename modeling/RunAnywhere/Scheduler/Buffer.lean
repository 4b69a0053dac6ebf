import Mathlib.Data.Prod.Lex
import Mathlib.Data.String.Basic
import RunAnywhere.Scheduler.Fairness

/-!
# The representation of the fairness buffer

A lane keeps its entries in buckets and the names of the buckets in a ring; the queue adds
the set of buffered jobs and two counters. `LaneQueue.Sound` and `FairQueue.Sound` say how
these belong together, and one lemma for each operation says that it keeps them so and
which entries it adds or takes:

* **lanes** — `LaneQueue.Sound.push`, `.pop`, `.remove`, `.setPayload`, `.setPayloads`;
* **the queue** — the same for `FairQueue`, where the entries are those of both lanes.

Entries are compared as lists up to order: `q.entries.Perm (e :: q'.entries)` reads "`e` was
taken out of `q`".
-/

namespace RunAnywhere

open Logic

variable {α : Type}

/-! ## Buckets -/

namespace LaneQueue

/-- `find?` and `eraseP` agree on the element. -/
theorem perm_cons_eraseP {β : Type} {p : β → Bool} {x : β} {l : List β}
    (h : l.find? p = some x) : l.Perm (x :: l.eraseP p) := by
  induction l with
  | nil => cases h
  | cons hd tl ih =>
      cases hp : p hd with
      | true =>
          rw [List.find?_cons_of_pos hp] at h
          rw [List.eraseP_cons_of_pos hp, Option.some.inj h]
      | false =>
          have hn : ¬ p hd = true := by rw [hp]; nofun
          rw [List.find?_cons_of_neg hn] at h
          rw [List.eraseP_cons_of_neg hn]
          exact ((ih h).cons hd).trans (.swap x hd _)

/-- `before` is the lexicographic order on the creation time and the job id. -/
theorem before_iff {a b : FairEntry α} : before a b = true ↔
    toLex (a.createdAt, a.jobId.val) < toLex (b.createdAt, b.jobId.val) := by
  unfold before
  rw [Prod.Lex.toLex_lt_toLex]
  simp

theorem before_trans {a b c : FairEntry α} (h : before a b = true) (k : before b c = true) :
    before a c = true :=
  before_iff.mpr (lt_trans (before_iff.mp h) (before_iff.mp k))

/-- Entries of two jobs are ordered. -/
theorem before_of_not {a b : FairEntry α} (h : ¬ before a b = true) (hne : a.jobId ≠ b.jobId) :
    before b a = true := by
  rw [before_iff] at h ⊢
  refine lt_of_le_of_ne (not_lt.mp h) fun heq => hne ?_
  have hval : b.jobId.val = a.jobId.val := congrArg (fun p => (ofLex p).2) heq
  exact (Ident.ext hval).symm

/-- The bucket of project `p` in lane `l`: not empty, its entries at home there, and
strictly sorted by `(created_at, job_id)`. -/
structure Bucket (l : PriorityLane) (p : ProjectId) (bucket : List (FairEntry α)) : Prop where
  nonempty : bucket ≠ []
  homed : ∀ e ∈ bucket, e.projectId = p ∧ e.lane = l
  sorted : bucket.Pairwise (before · · = true)

theorem insertEntry_perm (e : FairEntry α) (bucket : List (FairEntry α)) :
    (insertEntry e bucket).Perm (e :: bucket) := by
  unfold insertEntry
  refine List.perm_middle.trans (.cons _ ?_)
  rw [List.takeWhile_append_dropWhile]

/-- Inserting before the first entry that is not earlier keeps a bucket sorted. -/
theorem insertEntry_sorted {e : FairEntry α} {bucket : List (FairEntry α)}
    (hs : bucket.Pairwise (before · · = true)) (hne : ∀ x ∈ bucket, x.jobId ≠ e.jobId) :
    (insertEntry e bucket).Pairwise (before · · = true) := by
  induction bucket with
  | nil => exact List.pairwise_singleton _ _
  | cons x rest ih =>
      obtain ⟨hx, hrest⟩ := List.pairwise_cons.mp hs
      have hne' : ∀ y ∈ rest, y.jobId ≠ e.jobId := fun y hy => hne y (List.mem_cons_of_mem _ hy)
      by_cases hlt : before x e = true
      · have hcons : insertEntry e (x :: rest) = x :: insertEntry e rest := by
          simp [insertEntry, hlt]
        rw [hcons]
        refine List.pairwise_cons.mpr ⟨fun y hy => ?_, ih hrest hne'⟩
        rcases mem_insertEntry hy with rfl | hy
        · exact hlt
        · exact hx y hy
      · have hcons : insertEntry e (x :: rest) = e :: x :: rest := by
          simp [insertEntry, hlt]
        have hfirst : before e x = true := before_of_not hlt (hne x List.mem_cons_self)
        rw [hcons]
        refine List.pairwise_cons.mpr ⟨fun y hy => ?_, hs⟩
        rcases List.mem_cons.mp hy with rfl | hy
        · exact hfirst
        · exact before_trans hfirst (hx y hy)

theorem Bucket.insert {l : PriorityLane} {e : FairEntry α} {bucket : List (FairEntry α)}
    (hlane : e.lane = l) (homed : ∀ x ∈ bucket, x.projectId = e.projectId ∧ x.lane = l)
    (hs : bucket.Pairwise (before · · = true)) (hne : ∀ x ∈ bucket, x.jobId ≠ e.jobId) :
    Bucket l e.projectId (insertEntry e bucket) := by
  refine ⟨fun h => ?_, fun x hx => ?_, insertEntry_sorted hs hne⟩
  · have hlen := (insertEntry_perm e bucket).length_eq
    rw [h] at hlen
    simp at hlen
  · rcases mem_insertEntry hx with rfl | hx
    · exact ⟨rfl, hlane⟩
    · exact homed x hx

/-- What is left of a bucket, if anything is. -/
theorem Bucket.sublist {l : PriorityLane} {p : ProjectId} {bucket rest : List (FairEntry α)}
    (h : Bucket l p bucket) (hsub : rest.Sublist bucket) (hne : rest ≠ []) : Bucket l p rest :=
  ⟨hne, fun e he => h.homed e (hsub.mem he), h.sorted.sublist hsub⟩

/-- Payloads do not decide where an entry belongs. -/
theorem Bucket.map {l : PriorityLane} {p : ProjectId} {bucket : List (FairEntry α)}
    (h : Bucket l p bucket) {g : FairEntry α → FairEntry α}
    (hg : ∀ e, ∃ payload, g e = { e with payload := payload }) : Bucket l p (bucket.map g) := by
  refine ⟨fun hnil => h.nonempty (List.map_eq_nil_iff.mp hnil), fun x hx => ?_, ?_⟩
  · obtain ⟨e, he, rfl⟩ := List.mem_map.mp hx
    obtain ⟨payload, hpay⟩ := hg e
    rw [hpay]
    exact h.homed e he
  · refine List.pairwise_map.mpr (h.sorted.imp fun {a b} hab => ?_)
    obtain ⟨_, ha⟩ := hg a
    obtain ⟨_, hb⟩ := hg b
    rw [ha, hb]
    exact hab

/-! ## Lanes -/

/-- The ring names the buckets, each once, and `len` counts the entries. -/
structure Sound (l : PriorityLane) (q : LaneQueue α) : Prop where
  buckets : ∀ p bucket, q.projects.get? p = some bucket → Bucket l p bucket
  ringNodup : q.projectRing.Nodup
  ring : ∀ p, p ∈ q.projectRing ↔ (q.projects.get? p).isSome = true
  len : q.len = q.entries.length

/-- `pop` would panic: the ring names a project without a bucket, or one whose bucket has
no first entry. -/
def Broken (q : LaneQueue α) : Prop :=
  ∃ p ring, q.projectRing = p :: ring ∧ ∀ e rest, q.projects.get? p ≠ some (e :: rest)

/-- The entries outside the bucket of `p`. -/
def others (q : LaneQueue α) (p : ProjectId) : List (FairEntry α) :=
  (q.projects.erase p).rows.flatMap Prod.snd

theorem entries_perm {q : LaneQueue α} {p : ProjectId} {bucket : List (FairEntry α)}
    (h : q.projects.get? p = some bucket) : q.entries.Perm (bucket ++ q.others p) :=
  (Table.rows_perm_erase h).flatMap_right Prod.snd

theorem others_of_none {q : LaneQueue α} {p : ProjectId} (h : q.projects.get? p = none) :
    q.others p = q.entries := by
  unfold others entries
  rw [Table.erase_rows_of_none h]

theorem entries_put_perm (q : LaneQueue α) (p : ProjectId) (bucket : List (FairEntry α))
    (ring : List ProjectId) (n : Nat) :
    (entries ⟨q.projects.put p bucket, ring, n⟩).Perm (bucket ++ q.others p) := by
  have hperm := entries_perm (q := ⟨q.projects.put p bucket, ring, n⟩)
    (Table.get?_put_self q.projects p bucket)
  unfold others at hperm
  rw [Table.erase_put] at hperm
  exact hperm

/-- A lane that removes nothing has no entry of the job. -/
theorem remove_none {q : LaneQueue α} {j : JobId} (hrem : q.remove j = none) : ∀ x ∈ q.entries, x.jobId ≠ j := by
  intro x hx hj
  obtain ⟨p, bucket, hp, hmem⟩ := mem_entries.mp hx
  unfold LaneQueue.remove at hrem
  split at hrem
  · next hnone =>
      have hno := List.find?_eq_none.mp hnone (p, bucket) ((Table.mem_rows_iff _ p bucket).mpr hp)
      exact hno (List.any_eq_true.mpr ⟨x, hmem, decide_eq_true hj⟩)
  · next p' bucket' hfind =>
      have hany := List.find?_some hfind
      obtain ⟨y, hy, hyj⟩ := List.any_eq_true.mp hany
      split at hrem
      · next hnone => exact List.find?_eq_none.mp hnone y hy hyj
      · simp only at hrem
        split at hrem <;> cases hrem

theorem sound_empty (l : PriorityLane) : Sound l (empty : LaneQueue α) where
  buckets p bucket h := by cases h
  ringNodup := List.nodup_nil
  ring p := by simp [empty]
  len := rfl

namespace Sound

variable {l : PriorityLane} {q : LaneQueue α}

theorem homed (h : Sound l q) {e : FairEntry α} (he : e ∈ q.entries) : e.lane = l := by
  obtain ⟨p, bucket, hp, hmem⟩ := mem_entries.mp he
  exact ((h.buckets p bucket hp).homed e hmem).2

/-- A ring head has a bucket with a first entry. -/
theorem not_broken (h : Sound l q) : ¬ q.Broken := by
  rintro ⟨p, ring, hring, hno⟩
  have hsome : (q.projects.get? p).isSome = true :=
    (h.ring p).mp (hring ▸ List.mem_cons_self)
  obtain ⟨bucket, hp⟩ := Option.isSome_iff_exists.mp hsome
  cases bucket with
  | nil => exact (h.buckets p _ hp).nonempty rfl
  | cons e rest => exact hno e rest hp

/-- One bucket is written. -/
theorem put (h : Sound l q) {p : ProjectId} {bucket : List (FairEntry α)}
    (hb : Bucket l p bucket) (ring : List ProjectId) (hnodup : ring.Nodup)
    (hring : ∀ p', p' ∈ ring ↔ p' = p ∨ p' ∈ q.projectRing) :
    Sound l ⟨q.projects.put p bucket, ring, (bucket ++ q.others p).length⟩ where
  buckets p' bucket' hp' := by
    have hp := hp'
    rw [Table.get?_put] at hp
    split at hp
    · next heq =>
        obtain rfl := Option.some.inj hp
        exact heq ▸ hb
    · exact h.buckets p' bucket' hp
  ringNodup := hnodup
  ring p' := by
    rw [hring p', h.ring p', Table.get?_put]
    by_cases heq : p' = p
    · simp [heq]
    · simp [heq]
  len := (entries_put_perm q p bucket ring _).length_eq.symm

/-- One bucket is dropped. -/
theorem erase (h : Sound l q) {p : ProjectId} {ring : List ProjectId} (hnodup : ring.Nodup)
    (hring : ∀ p', p' ∈ ring ↔ p' ∈ q.projectRing ∧ p' ≠ p) :
    Sound l ⟨q.projects.erase p, ring, (q.others p).length⟩ where
  buckets p' bucket hp := h.buckets p' bucket (Table.get?_of_get?_erase hp)
  ringNodup := hnodup
  ring p' := by
    rw [hring p', h.ring p', Table.get?_erase]
    by_cases heq : p' = p
    · simp [heq]
    · simp [heq]
  len := rfl

/-- **Push.** -/
theorem push (h : Sound l q) {e : FairEntry α} (hlane : e.lane = l)
    (hne : ∀ x ∈ q.entries, x.jobId ≠ e.jobId) :
    Sound l (q.push e) ∧ (q.push e).entries.Perm (e :: q.entries) := by
  unfold LaneQueue.push
  cases hp : q.projects.get? e.projectId with
  | some bucket =>
      have hold := h.buckets _ _ hp
      have hin : ∀ x ∈ bucket, x ∈ q.entries := fun x hx => mem_entries.mpr ⟨_, bucket, hp, hx⟩
      have hnew : Bucket l e.projectId (insertEntry e bucket) :=
        .insert hlane hold.homed hold.sorted fun x hx => hne x (hin x hx)
      have hperm : (insertEntry e bucket ++ q.others e.projectId).Perm (e :: q.entries) :=
        ((insertEntry_perm e bucket).append_right _).trans ((entries_perm hp).symm.cons e)
      have hlen : q.len + 1 = (insertEntry e bucket ++ q.others e.projectId).length := by
        rw [hperm.length_eq, List.length_cons, h.len]
      have hsound := h.put hnew q.projectRing h.ringNodup fun p' => by
        constructor
        · exact Or.inr
        · rintro (rfl | hmem)
          · exact (h.ring _).mpr (by rw [hp]; rfl)
          · exact hmem
      rw [← hlen] at hsound
      exact ⟨hsound, (entries_put_perm q _ _ _ _).trans hperm⟩
  | none =>
      have hnew : Bucket l e.projectId (insertEntry e []) :=
        .insert hlane (fun x hx => by cases hx) .nil fun x hx => by cases hx
      have hperm : (insertEntry e [] ++ q.others e.projectId).Perm (e :: q.entries) := by
        rw [others_of_none hp]
        exact .refl _
      have hlen : q.len + 1 = (insertEntry e [] ++ q.others e.projectId).length := by
        rw [hperm.length_eq, List.length_cons, h.len]
      have hout : e.projectId ∉ q.projectRing := fun hmem => by
        have hsome := (h.ring _).mp hmem
        rw [hp] at hsome
        cases hsome
      have hsound := h.put hnew (q.projectRing ++ [e.projectId])
        (List.nodup_append.mpr ⟨h.ringNodup, List.nodup_singleton _, fun a ha b hb hab => hout (by
          obtain rfl := List.mem_singleton.mp hb
          exact hab ▸ ha)⟩)
        fun p' => by rw [List.mem_append, List.mem_singleton, or_comm]
      rw [← hlen] at hsound
      exact ⟨hsound, (entries_put_perm q _ _ _ _).trans hperm⟩

/-- What is taken out of one bucket is taken out of the lane. -/
theorem others_perm {p : ProjectId} {bucket rest : List (FairEntry α)} {e : FairEntry α}
    (hp : q.projects.get? p = some bucket) (hperm : bucket.Perm (e :: rest)) :
    q.entries.Perm (e :: (rest ++ q.others p)) :=
  (entries_perm hp).trans (hperm.append_right _)

/-- **Pop.** -/
theorem pop (h : Sound l q) {e : FairEntry α} {q' : LaneQueue α} (hpop : q.pop = some (e, q')) :
    Sound l q' ∧ q.entries.Perm (e :: q'.entries) := by
  unfold LaneQueue.pop at hpop
  split at hpop
  · cases hpop
  · next p ring hring =>
      have hnodup := h.ringNodup
      rw [hring] at hnodup
      obtain ⟨hout, hrest⟩ := List.nodup_cons.mp hnodup
      split at hpop
      · next entry rest hp =>
          have hperm := others_perm hp (.refl _)
          have hlen : q.len - 1 = (rest ++ q.others p).length := by
            rw [h.len, hperm.length_eq, List.length_cons, Nat.add_sub_cancel]
          split at hpop
          · next hnil =>
              -- the last entry of its project
              obtain rfl : rest = [] := List.isEmpty_iff.mp hnil
              cases hpop
              have hsound := h.erase (p := p) hrest fun p' => by
                rw [hring, List.mem_cons]
                constructor
                · intro hmem
                  exact ⟨Or.inr hmem, fun heq => hout (heq ▸ hmem)⟩
                · rintro ⟨heq | hmem, hne⟩
                  · exact absurd heq hne
                  · exact hmem
              rw [List.nil_append] at hlen
              rw [← hlen] at hsound
              exact ⟨hsound, hperm⟩
          · next hcons =>
              -- its project goes to the end of the ring
              have hne : rest ≠ [] := fun hnil => hcons (by rw [hnil]; rfl)
              cases hpop
              have hbucket := (h.buckets p _ hp).sublist (List.sublist_cons_self _ _) hne
              have hsound := h.put hbucket (ring ++ [p])
                (List.nodup_append.mpr ⟨hrest, List.nodup_singleton _, fun a ha b hb hab => hout (by
                  obtain rfl := List.mem_singleton.mp hb
                  exact hab ▸ ha)⟩)
                fun p' => by
                  rw [hring, List.mem_append, List.mem_singleton, List.mem_cons]
                  tauto
              rw [← hlen] at hsound
              exact ⟨hsound, hperm.trans ((entries_put_perm q p rest _ _).symm.cons e)⟩
      · cases hpop
      · cases hpop

/-- A lane serves nothing only if it has nothing. -/
theorem pop_none (h : Sound l q) (hpop : q.pop = none) : q.entries = [] := by
  unfold LaneQueue.pop at hpop
  split at hpop
  · next hring =>
      refine List.eq_nil_iff_forall_not_mem.mpr fun e he => ?_
      obtain ⟨p, bucket, hp, _⟩ := mem_entries.mp he
      have hmem : p ∈ q.projectRing := (h.ring p).mpr (by rw [hp]; rfl)
      rw [hring] at hmem
      cases hmem
  · next p ring hring =>
      split at hpop
      · split at hpop <;> cases hpop
      · next hp => exact absurd rfl (h.buckets p _ hp).nonempty
      · next hp =>
          refine absurd ⟨p, ring, hring, fun e rest heq => ?_⟩ h.not_broken
          rw [hp] at heq
          cases heq

/-- **Remove.** -/
theorem remove (h : Sound l q) {j : JobId} {e : FairEntry α} {q' : LaneQueue α}
    (hrem : q.remove j = some (e, q')) :
    e.jobId = j ∧ Sound l q' ∧ q.entries.Perm (e :: q'.entries) := by
  unfold LaneQueue.remove at hrem
  split at hrem
  · cases hrem
  · next p bucket hfind =>
      have hp : q.projects.get? p = some bucket :=
        (Table.mem_rows_iff _ p bucket).mp (List.mem_of_find?_eq_some hfind)
      split at hrem
      · cases hrem
      · next entry hentry =>
          have hmatch := List.find?_some hentry
          have hjob : entry.jobId = j := of_decide_eq_true hmatch
          have hout := perm_cons_eraseP hentry
          have hperm := others_perm hp hout
          have hlen : q.len - 1 = (bucket.eraseP (·.jobId = j) ++ q.others p).length := by
            rw [h.len, hperm.length_eq, List.length_cons, Nat.add_sub_cancel]
          simp only at hrem
          split at hrem
          · next hnil =>
              cases hrem
              have hsound := h.erase (p := p) (h.ringNodup.filter (· ≠ p)) fun p' => by
                rw [List.mem_filter, decide_eq_true_iff]
              rw [List.isEmpty_iff.mp hnil, List.nil_append] at hlen hperm
              rw [← hlen] at hsound
              exact ⟨hjob, hsound, hperm⟩
          · next hcons =>
              have hne : bucket.eraseP (·.jobId = j) ≠ [] := fun hnil => hcons (by rw [hnil]; rfl)
              cases hrem
              have hsound := h.put ((h.buckets p _ hp).sublist List.eraseP_sublist hne)
                q.projectRing h.ringNodup fun p' => by
                  constructor
                  · exact Or.inr
                  · rintro (rfl | hmem)
                    · exact (h.ring _).mpr (by rw [hp]; rfl)
                    · exact hmem
              rw [← hlen] at hsound
              exact ⟨hjob, hsound, hperm.trans ((entries_put_perm q p _ _ _).symm.cons e)⟩

/-- Rewriting payloads keeps the lane. -/
theorem map (h : Sound l q) {g : FairEntry α → FairEntry α}
    (hg : ∀ e, ∃ payload, g e = { e with payload := payload }) :
    Sound l { q with projects := q.projects.mapRows fun _ bucket => bucket.map g } ∧
      entries { q with projects := q.projects.mapRows fun _ bucket => bucket.map g } =
        q.entries.map g := by
  have hentries : entries { q with projects := q.projects.mapRows fun _ bucket => bucket.map g } =
      q.entries.map g := by
    unfold entries Table.mapRows
    rw [List.flatMap_map, List.map_flatMap]
  refine ⟨⟨fun p bucket hp => ?_, h.ringNodup, fun p => ?_, ?_⟩, hentries⟩
  · rw [Table.get?_mapRows] at hp
    obtain ⟨old, hold, rfl⟩ := Option.map_eq_some_iff.mp hp
    exact (h.buckets p old hold).map hg
  · rw [h.ring p, Table.get?_mapRows, Option.isSome_map]
  · rw [hentries, List.length_map]
    exact h.len

end Sound

end LaneQueue

/-! ## The queue -/

/-- The lane that is not `l`. -/
def PriorityLane.other : PriorityLane → PriorityLane
  | .interactive => .batch
  | .batch => .interactive

/-- What a caller of `get_mut` and `iter_mut` leaves of an entry. -/
def FairEntry.header (e : FairEntry α) : FairEntry Unit := { e with payload := () }

namespace FairQueue

/-- **The representation.** Both lanes are sound, no job is buffered twice, `job_ids` is the
set of the buffered jobs, `len` counts the entries within the capacity, and the schedule
serves each lane. -/
structure Sound (q : FairQueue α) : Prop where
  lanes : ∀ l, (q.lane l).Sound l
  distinct : (q.entries.map (·.jobId)).Nodup
  jobIds : q.jobIds.Perm (q.entries.map (·.jobId))
  len : q.len = q.entries.length
  bounded : q.len ≤ q.capacity
  schedule : ∀ l, l ∈ q.schedule
  cursor : q.cursor < q.schedule.length

/-- The queue of an accepted configuration. -/
theorem new_sound {config : FairQueueConfig} {q : FairQueue α} (h : new config = .ok q) :
    q.Sound ∧ q.entries = [] ∧ q.capacity = config.capacity := by
  obtain ⟨haccepts, rfl⟩ := new_eq_ok_iff.mp h
  have hi := Nat.ne_of_gt haccepts.interactive
  have hb := Nat.ne_of_gt haccepts.batch
  refine ⟨⟨fun l => ?_, List.nodup_nil, .nil, rfl, Nat.zero_le _, fun l => ?_, ?_⟩, rfl, rfl⟩
  · cases l with
    | interactive => exact LaneQueue.sound_empty _
    | batch => exact LaneQueue.sound_empty _
  · cases l with
    | interactive => exact List.mem_append_left _ (List.mem_replicate.mpr ⟨hi, rfl⟩)
    | batch => exact List.mem_append_right _ (List.mem_replicate.mpr ⟨hb, rfl⟩)
  · simp [ofConfig]
    omega

theorem entries_perm_lane (q : FairQueue α) (l : PriorityLane) :
    q.entries.Perm ((q.lane l).entries ++ (q.lane l.other).entries) := by
  cases l with
  | interactive => exact .refl _
  | batch => exact List.perm_append_comm

theorem entries_setLane_perm (q : FairQueue α) (l : PriorityLane) (lane : LaneQueue α) :
    (q.setLane l lane).entries.Perm (lane.entries ++ (q.lane l.other).entries) := by
  cases l with
  | interactive => exact .refl _
  | batch => exact List.perm_append_comm

@[simp] theorem capacity_setLane (q : FairQueue α) (l : PriorityLane) (lane : LaneQueue α) :
    (q.setLane l lane).capacity = q.capacity := by
  cases l <;> rfl

@[simp] theorem schedule_setLane (q : FairQueue α) (l : PriorityLane) (lane : LaneQueue α) :
    (q.setLane l lane).schedule = q.schedule := by
  cases l <;> rfl

@[simp] theorem cursor_setLane (q : FairQueue α) (l : PriorityLane) (lane : LaneQueue α) :
    (q.setLane l lane).cursor = q.cursor := by
  cases l <;> rfl

namespace Sound

variable {q : FairQueue α}

theorem setLane_lanes (h : q.Sound) {l : PriorityLane} {lane : LaneQueue α}
    (hlane : lane.Sound l) (l' : PriorityLane) : ((q.setLane l lane).lane l').Sound l' := by
  have hold := h.lanes l'
  cases l <;> cases l'
  · exact hlane
  · exact hold
  · exact hold
  · exact hlane

/-- No entry of a job outside `job_ids` is buffered. -/
theorem not_mem_jobIds (h : q.Sound) {j : JobId} :
    j ∉ q.jobIds ↔ ∀ x ∈ q.entries, x.jobId ≠ j := by
  rw [h.jobIds.mem_iff, List.mem_map]
  exact ⟨fun hno x hx hj => hno ⟨x, hx, hj⟩, fun hno ⟨x, hx, hj⟩ => hno x hx hj⟩

/-- The cursor and the aging flag are not part of the representation. -/
theorem serve (h : q.Sound) {cursor : Nat} (hc : cursor < q.schedule.length) (flag : Bool) :
    ({ q with cursor := cursor, lastPopForcedAgedBatch := flag } : FairQueue α).Sound :=
  ⟨h.lanes, h.distinct, h.jobIds, h.len, h.bounded, h.schedule, hc⟩

/-- **Push.** -/
theorem push (h : q.Sound) {e : FairEntry α} {q' : FairQueue α} (hpush : q.push e = .ok q') :
    q'.Sound ∧ q'.entries.Perm (e :: q.entries) ∧ q'.capacity = q.capacity := by
  unfold FairQueue.push at hpush
  split at hpush
  · cases hpush
  · next hdup =>
      split at hpush
      · cases hpush
      · next hfull =>
          have hno : e.jobId ∉ q.jobIds := fun hmem => hdup (List.contains_iff_mem.mpr hmem)
          have hne := h.not_mem_jobIds.mp hno
          obtain ⟨hlane, hlaneperm⟩ := (h.lanes e.lane).push rfl fun x hx =>
            hne x (mem_entries.mpr ⟨_, hx⟩)
          obtain rfl := Except.ok.inj hpush
          have hperm : (q.setLane e.lane ((q.lane e.lane).push e)).entries.Perm (e :: q.entries) :=
            (entries_setLane_perm q _ _).trans ((hlaneperm.append_right _).trans
              ((entries_perm_lane q e.lane).symm.cons e))
          have hids := hperm.map (·.jobId)
          refine ⟨⟨h.setLane_lanes hlane, ?_, ?_, ?_, ?_, ?_, ?_⟩, hperm, ?_⟩
          · refine hids.nodup_iff.mpr (List.nodup_cons.mpr ⟨fun hmem => ?_, h.distinct⟩)
            exact hno (h.jobIds.mem_iff.mpr hmem)
          · exact (h.jobIds.cons _).trans hids.symm
          · show q.len + 1 = _
            rw [h.len]
            exact hperm.length_eq.symm
          · show q.len + 1 ≤ (q.setLane e.lane _).capacity
            rw [capacity_setLane]
            exact Nat.lt_of_le_of_ne h.bounded hfull
          · show ∀ l, l ∈ (q.setLane e.lane _).schedule
            rw [schedule_setLane]
            exact h.schedule
          · show (q.setLane e.lane _).cursor < (q.setLane e.lane _).schedule.length
            rw [schedule_setLane, cursor_setLane]
            exact h.cursor
          · exact capacity_setLane _ _ _

/-- A push is refused only for a buffered job or for a full queue. -/
theorem push_ok (h : q.Sound) {e : FairEntry α} (hne : ∀ x ∈ q.entries, x.jobId ≠ e.jobId)
    (hlen : q.len < q.capacity) : ∃ q', q.push e = .ok q' := by
  have hno : ¬ q.jobIds.contains e.jobId = true := fun hmem =>
    h.not_mem_jobIds.mpr hne (List.contains_iff_mem.mp hmem)
  unfold FairQueue.push
  rw [if_neg hno, if_neg (Nat.ne_of_lt hlen)]
  exact ⟨_, rfl⟩

/-- One entry is taken out of a lane. -/
theorem take (h : q.Sound) {l : PriorityLane} {lane : LaneQueue α} {e : FairEntry α}
    (hlane : lane.Sound l) (hperm : (q.lane l).entries.Perm (e :: lane.entries)) :
    let q' : FairQueue α :=
      { q.setLane l lane with jobIds := q.jobIds.erase e.jobId, len := q.len - 1 }
    q'.Sound ∧ q.entries.Perm (e :: q'.entries) ∧ q'.capacity = q.capacity := by
  have hentries : q.entries.Perm (e :: (q.setLane l lane).entries) :=
    (entries_perm_lane q l).trans ((hperm.append_right _).trans
      ((entries_setLane_perm q l lane).symm.cons e))
  have hids := hentries.map (·.jobId)
  have hlen : q.len = (q.setLane l lane).entries.length + 1 := by
    rw [h.len]
    exact hentries.length_eq
  refine ⟨⟨h.setLane_lanes hlane, ?_, ?_, ?_, ?_, ?_, ?_⟩, hentries, capacity_setLane _ _ _⟩
  · exact (List.nodup_cons.mp (hids.nodup_iff.mp h.distinct)).2
  · show (q.jobIds.erase e.jobId).Perm _
    have herase := (h.jobIds.trans hids).erase e.jobId
    rw [List.map_cons, List.erase_cons_head] at herase
    exact herase
  · show q.len - 1 = (q.setLane l lane).entries.length
    omega
  · show q.len - 1 ≤ (q.setLane l lane).capacity
    rw [capacity_setLane]
    exact Nat.le_trans (Nat.sub_le _ _) h.bounded
  · show ∀ l', l' ∈ (q.setLane l lane).schedule
    rw [schedule_setLane]
    exact h.schedule
  · show (q.setLane l lane).cursor < (q.setLane l lane).schedule.length
    rw [schedule_setLane, cursor_setLane]
    exact h.cursor

theorem popLane (h : q.Sound) {l : PriorityLane} {e : FairEntry α} {q' : FairQueue α}
    (hpop : q.popLane l = some (e, q')) :
    q'.Sound ∧ q.entries.Perm (e :: q'.entries) ∧ q'.capacity = q.capacity := by
  unfold FairQueue.popLane at hpop
  split at hpop
  · cases hpop
  · next entry lane hlane =>
      cases hpop
      obtain ⟨hsound, hperm⟩ := (h.lanes l).pop hlane
      exact h.take hsound hperm

theorem popLane_none (h : q.Sound) {l : PriorityLane} (hpop : q.popLane l = none) :
    (q.lane l).entries = [] := by
  unfold FairQueue.popLane at hpop
  split at hpop
  · next hlane => exact (h.lanes l).pop_none hlane
  · cases hpop

/-- What a pop does to the entries. -/
def Popped (q : FairQueue α) (out : Option (FairEntry α)) (q' : FairQueue α) : Prop :=
  q'.Sound ∧ q.entries.Perm (out.toList ++ q'.entries) ∧ q'.capacity = q.capacity

/-- The round-robin takes one entry, or finds every lane it looks at empty. -/
theorem popScheduled (n : Nat) (h : q.Sound) {out : Option (FairEntry α)} {q' : FairQueue α}
    (hpop : q.popScheduled n = (out, q')) :
    Popped q out q' ∧ (out = none → ∀ k < n, (q.lane (q.schedule.getD
      ((q.cursor + k) % q.schedule.length) .interactive)).entries = []) := by
  induction n generalizing q with
  | zero =>
      obtain ⟨rfl, rfl⟩ := Prod.mk.inj hpop
      exact ⟨⟨h, .refl _, rfl⟩, fun _ k hk => absurd hk (Nat.not_lt_zero k)⟩
  | succ n ih =>
      have hpos : 0 < q.schedule.length := Nat.lt_of_le_of_lt (Nat.zero_le _) h.cursor
      have hnext : ({ q with cursor := (q.cursor + 1) % q.schedule.length } : FairQueue α).Sound :=
        h.serve (Nat.mod_lt _ hpos) q.lastPopForcedAgedBatch
      simp only [FairQueue.popScheduled] at hpop
      split at hpop
      · next entry q₁ hlane =>
          obtain ⟨rfl, rfl⟩ := Prod.mk.inj hpop
          exact ⟨hnext.popLane hlane, fun hnone => by cases hnone⟩
      · next hlane =>
          obtain ⟨hpopped, hempty⟩ := ih hnext hpop
          refine ⟨hpopped, fun hout k hk => ?_⟩
          cases k with
          | zero =>
              rw [Nat.add_zero, Nat.mod_eq_of_lt h.cursor]
              exact hnext.popLane_none hlane
          | succ k =>
              have hk' := hempty hout k (Nat.lt_of_succ_lt_succ hk)
              have hmod : ((q.cursor + 1) % q.schedule.length + k) % q.schedule.length =
                  (q.cursor + (k + 1)) % q.schedule.length := by
                rw [Nat.mod_add_mod, Nat.add_assoc, Nat.add_comm 1 k]
              have hk'' : (q.lane (q.schedule.getD (((q.cursor + 1) % q.schedule.length + k) %
                  q.schedule.length) .interactive)).entries = [] := hk'
              rw [hmod] at hk''
              exact hk''

/-- A whole turn of the schedule that takes nothing has looked at both lanes. -/
theorem entries_of_popScheduled_none (h : q.Sound) {q' : FairQueue α}
    (hpop : q.popScheduled q.schedule.length = (none, q')) : q.entries = [] := by
  have hempty := (h.popScheduled _ hpop).2 rfl
  have hlane : ∀ l, (q.lane l).entries = [] := by
    intro l
    obtain ⟨i, hi, hl⟩ := List.mem_iff_getElem.mp (h.schedule l)
    have hcursor := h.cursor
    -- slot `i` comes up after `i - cursor` steps, or one turn later
    have hslot : ∃ k < q.schedule.length, (q.cursor + k) % q.schedule.length = i := by
      by_cases hle : q.cursor ≤ i
      · refine ⟨i - q.cursor, by omega, ?_⟩
        rw [Nat.add_sub_cancel' hle, Nat.mod_eq_of_lt hi]
      · refine ⟨i + q.schedule.length - q.cursor, by omega, ?_⟩
        have hsum : q.cursor + (i + q.schedule.length - q.cursor) = i + q.schedule.length := by
          omega
        rw [hsum, Nat.add_mod_right, Nat.mod_eq_of_lt hi]
    obtain ⟨k, hk, hmod⟩ := hslot
    have hk' := hempty k hk
    rw [hmod, List.getD_eq_getElem?_getD, List.getElem?_eq_getElem hi, Option.getD_some, hl] at hk'
    exact hk'
  show q.interactive.entries ++ q.batch.entries = []
  have hi := hlane .interactive
  have hb := hlane .batch
  change q.interactive.entries = [] at hi
  change q.batch.entries = [] at hb
  rw [hi, hb, List.append_nil]

/-- **Pop.** One entry is taken, or the queue is empty. -/
theorem pop (h : q.Sound) {now : Time} {out : Option (FairEntry α)} {q' : FairQueue α}
    (hpop : q.pop now = (out, q')) : Popped q out q' ∧ (out = none → q.entries = []) := by
  simp only [FairQueue.pop] at hpop
  split at hpop
  · next haged =>
      have hforced := h.serve h.cursor true
      split at hpop
      · next entry q₁ hlane =>
          obtain ⟨rfl, rfl⟩ := Prod.mk.inj hpop
          exact ⟨hforced.popLane hlane, fun hnone => by cases hnone⟩
      · next hlane =>
          -- an aged entry is an entry of the batch lane
          have hbatch : q.batch.entries = [] := hforced.popLane_none hlane
          have hany := (Bool.and_eq_true_iff.mp haged).1
          unfold LaneQueue.oldestEnqueuedAt at hany
          rw [hbatch] at hany
          cases hany
  · have hplain := h.serve h.cursor false
    exact ⟨(hplain.popScheduled _ hpop).1, fun hout => by
      subst hout
      exact hplain.entries_of_popScheduled_none hpop⟩

/-- **Remove.** The entry of the job is taken, or there is none. -/
theorem remove (h : q.Sound) {j : JobId} {out : Option (FairEntry α)} {q' : FairQueue α}
    (hrem : q.remove j = (out, q')) : Popped q out q' ∧ (∀ e ∈ out, e.jobId = j) ∧
      (out = none → q' = q ∧ ∀ x ∈ q.entries, x.jobId ≠ j) := by
  simp only [FairQueue.remove] at hrem
  cases hi : q.interactive.remove j with
  | some found =>
      obtain ⟨e, lane⟩ := found
      obtain ⟨hjob, hsound, hperm⟩ := (h.lanes .interactive).remove hi
      rw [hi] at hrem
      obtain ⟨rfl, rfl⟩ := Prod.mk.inj hrem
      have htake := h.take hsound hperm
      rw [hjob] at htake
      exact ⟨htake, fun x hx => Option.some.inj hx ▸ hjob, nofun⟩
  | none =>
      rw [hi] at hrem
      cases hb : q.batch.remove j with
      | some found =>
          obtain ⟨e, lane⟩ := found
          obtain ⟨hjob, hsound, hperm⟩ := (h.lanes .batch).remove hb
          rw [hb] at hrem
          obtain ⟨rfl, rfl⟩ := Prod.mk.inj hrem
          have htake := h.take hsound hperm
          rw [hjob] at htake
          exact ⟨htake, fun x hx => Option.some.inj hx ▸ hjob, nofun⟩
      | none =>
          rw [hb] at hrem
          obtain ⟨rfl, rfl⟩ := Prod.mk.inj hrem
          refine ⟨⟨h, .refl _, rfl⟩, nofun, fun _ => ⟨rfl, fun x hx => ?_⟩⟩
          rcases List.mem_append.mp hx with hx | hx
          · exact LaneQueue.remove_none hi x hx
          · exact LaneQueue.remove_none hb x hx

/-- Lanes whose entries keep their headers keep the representation. -/
theorem rewrite (h : q.Sound) {i b : LaneQueue α} (hi : i.Sound .interactive)
    (hb : b.Sound .batch)
    (hentries : (i.entries ++ b.entries).map (·.jobId) = q.entries.map (·.jobId)) :
    ({ q with interactive := i, batch := b } : FairQueue α).Sound := by
  refine ⟨fun l => ?_, ?_, ?_, ?_, h.bounded, h.schedule, h.cursor⟩
  · cases l with
    | interactive => exact hi
    | batch => exact hb
  · show ((i.entries ++ b.entries).map (·.jobId)).Nodup
    rw [hentries]
    exact h.distinct
  · show q.jobIds.Perm ((i.entries ++ b.entries).map (·.jobId))
    rw [hentries]
    exact h.jobIds
  · have hlen := congrArg List.length hentries
    rw [List.length_map, List.length_map] at hlen
    exact h.len.trans hlen.symm

/-- **Iterate.** -/
theorem setPayloads (h : q.Sound) (f : FairEntry α → α) : (q.setPayloads f).Sound ∧
    (q.setPayloads f).entries = q.entries.map fun e => { e with payload := f e } := by
  obtain ⟨hi, hientries⟩ := (h.lanes .interactive).map fun e => ⟨f e, rfl⟩
  obtain ⟨hb, hbentries⟩ := (h.lanes .batch).map fun e => ⟨f e, rfl⟩
  have hentries : (q.setPayloads f).entries =
      q.entries.map fun e => { e with payload := f e } := by
    show (q.interactive.setPayloads f).entries ++ (q.batch.setPayloads f).entries = _
    unfold entries
    rw [List.map_append]
    exact congrArg₂ _ hientries hbentries
  refine ⟨h.rewrite hi hb ?_, hentries⟩
  have hids := congrArg (List.map (·.jobId)) hentries
  rw [List.map_map] at hids
  exact hids

/-- The entry of `j` gets a payload. -/
def assign (j : JobId) (payload : α) (e : FairEntry α) : FairEntry α :=
  if e.jobId = j then { e with payload := payload } else e

theorem assign_header (j : JobId) (payload : α) (e : FairEntry α) :
    (assign j payload e).header = e.header := by
  unfold assign
  split <;> rfl

theorem assign_of_ne {j : JobId} {payload : α} {l : List (FairEntry α)}
    (h : ∀ e ∈ l, e.jobId ≠ j) : l.map (assign j payload) = l := by
  have hid : l.map (assign j payload) = l.map id := List.map_congr_left fun e he => if_neg (h e he)
  rw [hid, List.map_id]

/-- **Look up and write.** Only the entry of the job gets the payload. -/
theorem setPayload (h : q.Sound) (j : JobId) (payload : α) : (q.setPayload j payload).Sound ∧
    (q.setPayload j payload).entries = q.entries.map (assign j payload) := by
  have hassign : ∀ e : FairEntry α, ∃ p, assign j payload e = { e with payload := p } := by
    intro e
    unfold assign
    split
    · exact ⟨payload, rfl⟩
    · exact ⟨e.payload, rfl⟩
  have hids : (q.entries.map (assign j payload)).map (·.jobId) = q.entries.map (·.jobId) := by
    rw [List.map_map]
    refine List.map_congr_left fun e _ => ?_
    exact congrArg (fun x : FairEntry Unit => x.jobId) (assign_header j payload e)
  unfold FairQueue.setPayload
  split
  · next hsome =>
      -- the job is in the interactive lane, and so in that lane only
      obtain ⟨e, he⟩ := Option.isSome_iff_exists.mp hsome
      obtain ⟨hmem, hj⟩ := LaneQueue.get?_mem he
      have hdistinct := h.distinct
      unfold entries at hdistinct
      rw [List.map_append] at hdistinct
      have hbatch : q.batch.entries.map (assign j payload) = q.batch.entries := by
        refine assign_of_ne fun x hx hxj => ?_
        exact (List.nodup_append.mp hdistinct).2.2 _ (List.mem_map_of_mem hmem) _
          (List.mem_map_of_mem hx) (hj.trans hxj.symm)
      obtain ⟨hi, hientries⟩ := (h.lanes .interactive).map hassign
      have hentries : (q.interactive.setPayload j payload).entries ++ q.batch.entries =
          q.entries.map (assign j payload) := by
        unfold entries
        rw [List.map_append, hbatch]
        exact congrArg (· ++ q.batch.entries) hientries
      exact ⟨h.rewrite hi (h.lanes .batch) (by
        have hmap := congrArg (List.map (·.jobId)) hentries
        rw [hids] at hmap
        exact hmap), hentries⟩
  · next hnone =>
      have hfree : ∀ x ∈ q.interactive.entries, x.jobId ≠ j := by
        intro x hx hxj
        refine hnone (List.find?_isSome.mpr ⟨x, hx, decide_eq_true hxj⟩)
      obtain ⟨hb, hbentries⟩ := (h.lanes .batch).map hassign
      have hentries : q.interactive.entries ++ (q.batch.setPayload j payload).entries =
          q.entries.map (assign j payload) := by
        unfold entries
        rw [List.map_append, assign_of_ne hfree]
        exact congrArg (q.interactive.entries ++ ·) hbentries
      exact ⟨h.rewrite (h.lanes .interactive) hb (by
        have hmap := congrArg (List.map (·.jobId)) hentries
        rw [hids] at hmap
        exact hmap), hentries⟩

end Sound

end FairQueue

end RunAnywhere
