import RunAnywhere.Scheduler.Requests

/-!
# No queued job is lost

Six paths retire source messages, and a redrive that was deduplicated stores nothing. Yet a
message of a job that is not settled is retired only when a younger one carries the
canonical payload (`Cluster.Retirable`), so by induction over the sequences the youngest
canonical message of such a job is there (`Cluster.Sound.live_of_canon`).
-/

namespace RunAnywhere

open Logic Machine

/-- A live message that decodes to the canonical payload of job `j`, whose row is `row`. -/
def WorkQueue.Carries (q : WorkQueue) (n : Nat) (j : JobId) (row : JobRow) : Prop :=
  q.Live n ∧ ∃ message, q.message? n = some message ∧
    decodeQueuePayload message.payload = .ok (row.queued j)

/-- The job needs its queue message: it has not ended, and its marker is not published. -/
def Db.Needs (db : Db) (j : JobId) (row : JobRow) : Prop :=
  db.job? j = some row ∧ row.state.isTerminal = false ∧
    ¬ db.Published (exhaustionEventKey j row.deliveryAttempts)

theorem Db.Needs.not_settled {db : Db} {j : JobId} {row : JobRow} (h : db.Needs j row) :
    ¬ db.Settled false j := by
  obtain ⟨hrow, hlive, hmarker⟩ := h
  rintro ⟨row', hrow', hset⟩
  obtain rfl := Option.some.inj (hrow.symm.trans hrow')
  rcases hset with ⟨hend, _⟩ | hpub
  · rw [hlive] at hend
    cases hend
  · exact hmarker hpub

section Sound

variable {m : Nat} {strict : Bool} {s : Cluster} {j : JobId} {row : JobRow}

/-- A retired message of a job that is not settled was followed by a canonical one. -/
theorem Cluster.Sound.newer_of_retired (h : s.Sound m strict) (hrow : s.db.job? j = some row)
    (hset : ¬ s.db.Settled strict j) {n : Nat} (hn : s.Names n j)
    (hret : n ∈ s.queue.retired) : s.Newer n j := by
  have hexists : ¬ s.Orphan n j := by
    intro ho
    have hnone := ho.2
    rw [hrow] at hnone
    cases hnone
  rcases (h.retired n hret).named j hn hexists with hs | hnew
  · exact absurd hs hset
  · exact hnew

/-- **Youngest.** From any canonical message of a job that is not settled on there is a
live one. -/
theorem Cluster.Sound.live_of_canon (h : s.Sound m strict) (hrow : s.db.job? j = some row)
    (hset : ¬ s.db.Settled strict j) {k : Nat} (hk : s.Canon k j) :
    ∃ n, k ≤ n ∧ s.queue.Carries n j row := by
  obtain ⟨message, row', hmessage, hrow', hpayload⟩ := hk
  obtain rfl := Option.some.inj (hrow.symm.trans hrow')
  by_cases hret : k ∈ s.queue.retired
  · -- the next canonical message is nearer to the end of the log
    obtain ⟨k', hlt, hk'⟩ := h.newer_of_retired hrow hset ⟨message, hmessage, by rw [hpayload]; rfl⟩
      hret
    have hend : k' ≤ s.queue.log.length := by
      obtain ⟨_, _, hstored, _⟩ := hk'
      exact (WorkQueue.message?_le hstored).2
    obtain ⟨n, hle, hlive⟩ := h.live_of_canon hrow hset hk'
    exact ⟨n, by omega, hlive⟩
  · refine ⟨k, Nat.le_refl k, ⟨?_, hret⟩, message, hmessage, ?_⟩
    · have hstored : s.queue.message? k = some message := hmessage
      rw [hstored]
      rfl
    · rw [hpayload]
      rfl
termination_by s.queue.log.length - k

/-- A younger live message carries the canonical payload. -/
theorem Cluster.Sound.carried_of_newer (h : s.Sound m strict) (hrow : s.db.job? j = some row)
    (hset : ¬ s.db.Settled strict j) {n : Nat} (hn : s.Newer n j) :
    ∃ k, n < k ∧ s.queue.Carries k j row := by
  obtain ⟨k, hlt, hk⟩ := hn
  obtain ⟨n', hle, hlive⟩ := h.live_of_canon hrow hset hk
  exact ⟨n', by omega, hlive⟩

/-- The message of a published queue row carries the canonical payload. -/
theorem Cluster.Sound.canon_of_seen (h : s.Sound m strict) (hseen : s.queue.Seen j.val) :
    ∃ k, s.Canon k j := by
  obtain ⟨n, message, hmessage, hid⟩ := WorkQueue.seen_iff.mp hseen
  obtain ⟨i, hcanon, hkey⟩ := h.identified n message j.val hmessage hid
  rcases hkey with hkey | ⟨k, _, _, hkey⟩
  · obtain rfl : j = i := Ident.ext hkey
    exact ⟨n, hcanon⟩
  · exact absurd hkey (redriveId_ne_job j k)

end Sound

/-- **No queued job is lost.** In every reachable pool, for every job that has not ended and
whose marker is not published:

* if its queue row was published, a live message decodes to its canonical payload;
* if a message that names it was retired, a live canonical message with a higher sequence
  is there. -/
theorem no_queued_job_lost {cfg : Config} {p : Pool Cluster Action Action.Res Request Report}
    (hp : (scheduler cfg fun _ _ => True).Reachable p) {j : JobId} {row : JobRow}
    (hneeds : p.state.db.Needs j row) :
    (p.state.db.Published j.val → ∃ n, p.state.queue.Carries n j row) ∧
    ∀ n ∈ p.state.queue.retired, p.state.Names n j →
      ∃ k, n < k ∧ p.state.queue.Carries k j row := by
  have hs := scheduler_sound (scheduler_reachable hp)
  have hset := hneeds.not_settled
  refine ⟨fun hpub => ?_, fun n hret hn => ?_⟩
  · obtain ⟨k, hk⟩ := hs.canon_of_seen (hs.queued j hpub)
    obtain ⟨n, _, hlive⟩ := hs.live_of_canon hneeds.1 hset hk
    exact ⟨n, hlive⟩
  · exact hs.carried_of_newer hneeds.1 hset (hs.newer_of_retired hneeds.1 hset hn hret)

/-- The job is created, and its queue row is leased, published and marked. -/
def Sample.published : List (Cmd Request Choice Outer) :=
  let publisher : OutboxDispatcherConfig := ⟨"api", 30000000, 10⟩
  let row : OutboxRow := ⟨1, jobsQueuedSubject, .jobQueued Sample.queued, [], 0, 0, none, none,
    none, none, 0⟩
  [Sample.api Sample.create 2, .spawn (.leaseQueued publisher)] ++ Sample.goes 0 3 1 2 ++
    [.finish 0, .spawn (.dispatchMessage publisher (row.intoMessage "job_a"))] ++
    Sample.goes 0 4 1 2

/-- The job is queued without a marker, and its queue row is published. -/
def Sample.isPublished (p : Pool Cluster Action Action.Res Request Report) : Bool :=
  (p.state.db.job? Sample.job).any fun row => decide (row.state = .queued) &&
    (p.state.db.message? (exhaustionEventKey Sample.job row.deliveryAttempts)).isNone &&
      (p.state.db.message? Sample.job.val).any (·.publishedAt.isSome)

theorem no_queued_job_lost_published : ∃ p row n,
    (scheduler (Sample.config 3) fun _ _ => True).Reachable p ∧
    p.state.db.job? Sample.job = some row ∧ row.state = .queued ∧
    p.state.queue.Carries n Sample.job row := by
  have hpool : (Sample.pool? (Sample.config 3) Sample.published).any Sample.isPublished
      = true := by decide +kernel
  obtain ⟨p, hp, hat⟩ := (Option.any_eq_true _ _).mp hpool
  obtain ⟨row, hrow, hat⟩ := (Option.any_eq_true _ _).mp hat
  obtain ⟨hat, hpublished⟩ := Bool.and_eq_true_iff.mp hat
  obtain ⟨hstate, hnone⟩ := Bool.and_eq_true_iff.mp hat
  obtain ⟨message, hmessage, hpublished⟩ := (Option.any_eq_true _ _).mp hpublished
  have hstate := of_decide_eq_true hstate
  have hneeds : p.state.db.Needs Sample.job row := by
    refine ⟨hrow, by rw [hstate]; rfl, ?_⟩
    rintro ⟨marker, hmarker, _⟩
    rw [hmarker] at hnone
    cases hnone
  have hr := Sample.reachable hp
  obtain ⟨n, hn⟩ := (no_queued_job_lost hr hneeds).1 ⟨message, hmessage, hpublished⟩
  exact ⟨p, row, n, hr, hrow, hstate, hn⟩

end RunAnywhere
