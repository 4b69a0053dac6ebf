import RunAnywhere.Scheduler.Snapshots

/-!
# What deliveries keep

The dispatcher and the advisory recovery keep to the discipline: each path that retires
its source message first learned why no job needs it.

* **redrives** — after a redrive a younger message carries the canonical payload
  (`redrive_keeps`), published now or in an earlier try;
* **terminal jobs** — a message of an ended job goes when the job has no marker, or after
  the marker was published;
* **duplicates** — an older message of a bound or buffered job goes for a younger one.

No path reports an invalid exhaustion marker: a row under a marker key is a marker.
-/

namespace RunAnywhere

open Logic Machine

/-! ## Letters and their keys -/

/-- What `new` returns is valid. -/
theorem JobDeadLetter.new_validate {j : Option JobId} {project : Option ProjectId} {n : Option Nat}
    {attempt : Nat} {reason : JobDeadLetterReason} {at_ : Time} {d : JobDeadLetter}
    (h : JobDeadLetter.new j project n attempt reason at_ = .ok d) : d.validate = .ok () := by
  simp only [JobDeadLetter.new] at h
  split at h
  · next hvalid =>
      cases h
      exact hvalid
  · cases h

/-- The key of a letter of an exhausted job. -/
theorem JobDeadLetter.new_exhausted {j : JobId} {project : Option ProjectId} {n : Option Nat}
    {attempt : Nat} {at_ : Time} {d : JobDeadLetter}
    (h : JobDeadLetter.new (some j) project n (max attempt 1) .attemptsExhausted at_ = .ok d) :
    d.idempotencyKey = .ok (exhaustionEventKey j attempt) := by
  have hvalid := JobDeadLetter.new_validate h
  obtain rfl := JobDeadLetter.new_eq h
  unfold JobDeadLetter.idempotencyKey
  rw [hvalid]
  rfl

/-- The key of a letter about a malformed message. -/
theorem JobDeadLetter.new_malformed {j : Option JobId} {project : Option ProjectId}
    {n attempt : Nat} {at_ : Time} {d : JobDeadLetter}
    (h : JobDeadLetter.new j project (some n) attempt .malformedMessage at_ = .ok d) :
    d.idempotencyKey = .ok (sequenceEventKey n ":malformed_message") := by
  have hvalid := JobDeadLetter.new_validate h
  obtain rfl := JobDeadLetter.new_eq h
  unfold JobDeadLetter.idempotencyKey
  rw [hvalid]
  rfl

/-- The key of a letter about an inconsistent message. -/
theorem JobDeadLetter.new_inconsistent {j : Option JobId} {project : Option ProjectId}
    {n attempt : Nat} {at_ : Time} {d : JobDeadLetter}
    (h : JobDeadLetter.new j project (some n) attempt .canonicalJobInconsistent at_ = .ok d) :
    d.idempotencyKey = .ok (sequenceEventKey n ":canonical_job_inconsistent") := by
  have hvalid := JobDeadLetter.new_validate h
  obtain rfl := JobDeadLetter.new_eq h
  unfold JobDeadLetter.idempotencyKey
  rw [hvalid]
  rfl

/-- A letter that is not one of an exhausted job may always be enqueued. -/
theorem taken_of_ne {s : Cluster} {d : JobDeadLetter} (h : d.reason ≠ .attemptsExhausted) :
    s.Taken d :=
  fun _ hreason => absurd hreason h

/-- A letter of a marked job may be enqueued. -/
theorem Cluster.HasMarker.taken {s : Cluster} {j : JobId} {attempts : Nat} {d : JobDeadLetter}
    (h : s.HasMarker j attempts) (hkey : d.idempotencyKey = .ok (exhaustionEventKey j attempts)) :
    s.Taken d := by
  intro key _ hkey'
  obtain rfl := Except.ok.inj (hkey.symm.trans hkey')
  exact h

/-! ## Why a message may go -/

namespace Cluster

variable {m n : Nat} {strict : Bool} {s : Cluster} {j : JobId}

/-- A malformed message goes after the letter about it. -/
theorem Stores.discardable {message : QueueMessage} (h : s.Stores n message)
    (hj : message.payload.jobId? = none)
    (hpub : s.db.Published (sequenceEventKey n ":malformed_message")) :
    s.Discardable strict n := by
  refine ⟨⟨⟨message, h⟩, fun i hi => ?_⟩, ⟨fun _ _ _ => hpub, fun message' queued hm hp => ?_⟩⟩
  · obtain ⟨message', hm, hi⟩ := hi
    obtain rfl := Option.some.inj (h.symm.trans hm)
    rw [hj] at hi
    cases hi
  · obtain rfl := Option.some.inj (h.symm.trans hm)
    rw [hp] at hj
    cases hj

/-- A message of one job goes when the job does not need it. -/
theorem Names.retirable (h : s.Names n j)
    (hset : s.Orphan n j ∨ s.db.Settled strict j ∨ s.Newer n j) : s.Retirable strict n := by
  obtain ⟨message, hmessage, hj⟩ := h
  refine ⟨⟨message, hmessage⟩, fun i hi hlive => ?_⟩
  obtain ⟨message', hmessage', hi⟩ := hi
  obtain rfl := Option.some.inj (hmessage.symm.trans hmessage')
  obtain rfl := Option.some.inj (hj.symm.trans hi)
  exact hset.resolve_left hlive

/-- It is removed without a letter when the job has ended, or after one. -/
theorem Names.discardable (h : s.Names n j)
    (hset : s.Orphan n j ∨ s.db.Settled strict j ∨ s.Newer n j)
    (hrecord : (∃ row, s.db.job? j = some row ∧ row.state.isTerminal = true) ∨
      s.db.Published (sequenceEventKey n ":canonical_job_inconsistent")) :
    s.Discardable strict n := by
  refine ⟨h.retirable hset, ⟨fun message' hm hnone => ?_, fun message' queued hm hp hi => ?_⟩⟩
  all_goals
    obtain ⟨message, hmessage, hj⟩ := h
    obtain rfl := Option.some.inj (hmessage.symm.trans hm)
  · rw [hnone] at hj
    cases hj
  · rcases hrecord with ⟨row, hrow, hend⟩ | hpub
    · rw [hp] at hj
      obtain rfl : queued.jobId = j := Option.some.inj hj
      have hlive := (hi row hrow).1
      rw [hend] at hlive
      cases hlive
    · exact hpub

/-- A canonical message names its job. -/
theorem Canon.names (h : s.Canon n j) : s.Names n j := by
  obtain ⟨message, row, hmessage, _, hpayload⟩ := h
  exact ⟨message, hmessage, by rw [hpayload]; rfl⟩

/-- A message with the payload of a snapshot is canonical. -/
theorem Saw.canon {snap : JobSchedulingSnapshot} (h : s.Saw m j snap) {message : QueueMessage}
    (hm : s.Stores n message) (hp : message.payload = .jobQueued snap.queued) : s.Canon n j := by
  obtain ⟨row, hrow, hqueued⟩ := h.queued
  exact ⟨message, row, hm, hrow, by rw [hp, hqueued]⟩

end Cluster

/-! ## Redrives -/

section Redrive

variable {cfg : Config} {strict : Bool} {P : Cluster → Prop}
  [(discipline cfg strict).Stable P]

/-- **Redrives.** After a confirmed redrive a younger message carries the canonical payload
of the job. -/
theorem redrive_keeps {ε : Type} {E : ε → Prop} {f : String → ε} (hE : ∀ text, E (f text))
    {n : Nat} {j : JobId} {snap : JobSchedulingSnapshot}
    (h : ∀ s, s.Sound cfg.maxRunAttempts strict → P s →
      s.Names n j ∧ s.Saw cfg.maxRunAttempts j snap) (headers : List (String × String)) :
    Keeps cfg strict E P
      (Routine.try_ (act (.stream (.publish (redriveMessage snap.queued headers n)))) f)
      fun _ s => s.Newer n j := by
  have hpublish : Runs cfg strict P (act (.stream (.publish (redriveMessage snap.queued headers n))))
      fun r s => r = .ok () → s.Newer n j := by
    refine runs_stream (fun s hs hP id hid => ?_) fun s c r s' hs hP hrun hs' hl hr => ?_
    · obtain ⟨hnames, hsaw⟩ := h s hs hP
      obtain ⟨row, hrow, hqueued⟩ := hsaw.queued
      exact ⟨j, row, hrow, congrArg QueuePayload.jobQueued hqueued, Or.inr ⟨n, hnames,
        (Option.some.inj hid).symm⟩⟩
    · -- the identifier is seen now, and its message is younger than the source it names
      obtain ⟨hanswer, rfl⟩ := Prod.mk.inj hrun
      have hfate : c.fate = .success := by
        rw [← hanswer] at hr
        unfold confirm at hr
        split at hr
        · assumption
        · cases hr
      have hseen : (s.queue.publish (redriveMessage snap.queued headers n)).Seen (redriveId n) :=
        WorkQueue.publish_seen _ rfl
      obtain ⟨k, message, hmessage, hid⟩ := WorkQueue.seen_iff.mp hseen
      have hs'' : (s.exchange c.fate (·.publish (redriveMessage snap.queued headers n))).Stores k
          message := by
        unfold Cluster.exchange
        rw [if_neg (by rw [hfate]; decide)]
        exact hmessage
      obtain ⟨i, hcanon, hkey⟩ := hs'.identified k message _ hs'' hid
      rcases hkey with hjob | ⟨source, hlt, hnames, hsource⟩
      · exact absurd hjob.symm (redriveId_ne_job i n)
      · obtain rfl := redriveId_inj hsource
        obtain ⟨m₁, hm₁, hj₁⟩ := hnames
        obtain ⟨m₂, hm₂, hj₂⟩ := hl.names (h s hs hP).1
        obtain rfl := Option.some.inj (hm₁.symm.trans hm₂)
        obtain rfl := Option.some.inj (hj₁.symm.trans hj₂)
        exact ⟨k, hlt, hcanon⟩
  exact .try_ (hpublish.keeps fun s _ _ hn => hn rfl) fun text _ => hE text

end Redrive

/-! ## The dispatcher -/

/-- The error is not one about a marker. -/
def DispatcherError.Benign (e : DispatcherError) : Prop :=
  ∀ eventKey, e ≠ .invalidExhaustionMarker eventKey

section Dispatcher

variable {cfg : Config} {strict : Bool} {P : Cluster → Prop}
  [(discipline cfg strict).Stable P]

theorem progress_benign (n : Nat) :
    Keeps cfg strict DispatcherError.Benign P (Dispatcher.progress n) anyState :=
  progress_keeps n fun _ _ h => nomatch h

theorem confirmAck_benign {n : Nat}
    (h : ∀ s, s.Sound cfg.maxRunAttempts strict → P s → s.Retirable strict n) :
    Keeps cfg strict DispatcherError.Benign P (Dispatcher.confirmAck n) anyState :=
  doubleAck_keeps (fun _ _ h => nomatch h) h

theorem ackDuplicate_runs {n : Nat}
    (h : ∀ s, s.Sound cfg.maxRunAttempts strict → P s → s.Retirable strict n) :
    Runs cfg strict P (Dispatcher.ackDuplicate n) anyState := by
  have hack : Runs cfg strict P (act (.stream (.doubleAck n))) anyState :=
    runs_exchange fun s hs hP => h s hs hP
  exact hack.seq fun _ => Triple.done fun _ _ _ => trivial

theorem terminate_benign {n : Nat}
    (h : ∀ s, s.Sound cfg.maxRunAttempts strict → P s → s.Discardable strict n) :
    Keeps cfg strict DispatcherError.Benign P (Dispatcher.terminate n) anyState :=
  .seq (term_keeps (fun _ _ h => nomatch h) h) fun _ =>
    .try_ (deleteSource_keeps h) fun _ _ _ h => nomatch h

/-- A letter about a message is published before the message goes. -/
theorem deadLetterDelivery_benign {n attempt : Nat} {j : Option JobId} {project : Option ProjectId}
    {reason : JobDeadLetterReason} {key : String} (hreason : reason ≠ .attemptsExhausted)
    (hkey : ∀ at_ d, JobDeadLetter.new j project (some n) (max attempt 1) reason at_ = .ok d →
      d.idempotencyKey = .ok key)
    (h : ∀ s, s.Sound cfg.maxRunAttempts strict → P s → s.db.Published key →
      s.Discardable strict n) (headers : List (String × String)) :
    Keeps cfg strict DispatcherError.Benign P
      (Dispatcher.deadLetterDelivery cfg n attempt j project reason headers) anyState := by
  refine .seq (.lift runs_now) fun at_ => ?_
  refine .bind keeps_expect fun deadLetter => ?_
  refine .bind (.try_ (ensurePublished_keeps (fun s _ hP => ?_) _ _) fun _ _ _ h => nomatch h)
    fun _ => ?_
  · obtain rfl := JobDeadLetter.new_eq hP.2
    exact taken_of_ne hreason
  · exact terminate_benign fun s hs hP => h s hs hP.1.1 (hP.2 key (hkey at_ _ hP.1.2))

/-- **Terminal deliveries.** -/
theorem finishTerminalDelivery_benign {n : Nat} {j : JobId} {snap : JobSchedulingSnapshot}
    (hend : snap.job.state.isTerminal = true)
    (h : ∀ s, P s → s.Names n j ∧ s.Saw cfg.maxRunAttempts j snap)
    (headers : List (String × String)) :
    Keeps cfg strict DispatcherError.Benign P
      (Dispatcher.finishTerminalDelivery cfg snap n headers) anyState := by
  unfold Dispatcher.finishTerminalDelivery
  split
  · next hstate =>
      refine .bind (.try_ (outboxMessage_keeps (R := fun out s =>
        (out = none → s.db.Settled strict j) ∧
        (∀ outbox, out = some outbox → s.HasMarker j snap.deliveryAttempts ∧
          isMatchingExhaustionMarker outbox snap.job.id (max snap.deliveryAttempts 1) = true))
        fun s hs hP => ?_) fun _ _ _ h => nomatch h) fun out => ?_
      · -- the row of the ended job is the one the snapshot shows
        obtain ⟨row, hrow, hshows⟩ := (h s hP).2.ended hend
        have hj := (h s hP).2.id
        rw [hj, exhaustionEventKey_max]
        refine ⟨fun hnone => ?_, fun outbox hsome => ?_⟩
        · refine Db.EndedUnmarked.settled ⟨row, hrow, ?_, ?_⟩ strict
          · rw [hshows.job] at hend
            exact hend
          · rw [← hshows.attempts]
            exact Option.map_eq_none_iff.mp hnone
        · obtain ⟨message, hmessage, rfl⟩ := Option.map_eq_some_iff.mp hsome
          refine ⟨⟨message, hmessage⟩, ?_⟩
          rw [← exhaustionEventKey_max] at hmessage ⊢
          exact ((marked_invariant _ s.db hs.reachable).marker j _ message hmessage).1
      · cases out with
        | none =>
            exact confirmAck_benign fun s _ hP =>
              (h s hP.1).1.retirable (Or.inr (Or.inl (hP.2.1 rfl)))
        | some outbox =>
            simp only
            split
            · refine .seq (.lift runs_now) fun at_ => ?_
              refine .bind keeps_expect fun deadLetter => ?_
              refine .bind (.try_ (ensurePublished_keeps (fun s _ hP => ?_) _ _)
                fun _ _ _ h => nomatch h) fun _ => ?_
              · obtain ⟨⟨hP, hout⟩, hnew⟩ := hP
                have hkey := JobDeadLetter.new_exhausted hnew
                rw [(h s hP).2.id] at hkey
                exact ((hout.2 outbox rfl).1).taken hkey
              · refine terminate_benign fun s hs hP => ?_
                obtain ⟨⟨⟨hP, hout⟩, hnew⟩, hpub⟩ := hP
                obtain ⟨row, hrow, hshows⟩ := (h s hP).2.ended hend
                have hkey := JobDeadLetter.new_exhausted hnew
                rw [(h s hP).2.id] at hkey
                refine (h s hP).1.discardable
                  (Or.inr (Or.inl ((hpub _ hkey).settled hs.reachable strict)))
                  (Or.inl ⟨row, hrow, ?_⟩)
                rw [hshows.job] at hend
                exact hend
            · next hmatch =>
                exact keeps_absurd fun s _ hP => hmatch (hP.2.2 outbox rfl).2
  · next hstate =>
      refine confirmAck_benign fun s hs hP => (h s hP).1.retirable (Or.inr (Or.inl ?_))
      obtain ⟨row, hrow, hshows⟩ := (h s hP).2.ended hend
      rw [hshows.job] at hend hstate
      exact (ended_unmarked hs.reachable hrow hend (Or.inl hstate)).settled strict

/-- **Cancelled before any claim.** The job has ended when the routine returns. -/
theorem finalizeQueuedCancellation_benign {snap : JobSchedulingSnapshot}
    (hlease : snap.lease = none) (hpending : snap.pendingOutcome = some .cancelled)
    (hattempts : snap.deliveryAttempts = 0)
    (h : ∀ s, P s → s.Saw cfg.maxRunAttempts snap.job.id snap) :
    Keeps cfg strict DispatcherError.Benign P (Dispatcher.finalizeQueuedCancellation snap)
      fun _ s => s.db.Settled strict snap.job.id := by
  unfold Dispatcher.finalizeQueuedCancellation
  extract_lets rest
  have hwaits : ∀ s, P s → s.Waits snap.job.id .cancelled 0 snap.job.state.rank := by
    intro s hP
    rw [← hattempts]
    exact (h s hP).waits hlease hpending
  have hrest : ∀ u, Keeps cfg strict DispatcherError.Benign
      (fun s => s.Waits snap.job.id .cancelled 0 JobState.cleaningUp.rank) (rest u)
      fun _ s => s.db.Settled strict snap.job.id := by
    intro u
    refine .bind (.try_ (snapshot_reads (R := fun refreshed s =>
      refreshed.any (fun job => decide (job.job.state = .cleaningUp)) = false →
        s.Waits snap.job.id .cancelled 0 JobState.cancelled.rank) ?_ ?_)
      fun _ _ _ h => nomatch h) fun refreshed => ?_
    · rintro s hs ⟨row, hrow, _⟩ hnone
      rw [hnone] at hrow
      cases hrow
    · intro s snap' row hs _ hw hrow hshows hany
      refine hw.ended (fun row' hrow' hcleaning => ?_) .cancelled
      obtain rfl := Option.some.inj (hrow.symm.trans hrow')
      have hstate : snap'.job.state = .cleaningUp := by
        rw [hshows.job]
        exact hcleaning
      simp [hstate] at hany
    · split
      · refine .bind (.try_ (finalizer_keeps (fun eventId => ⟨Or.inr ⟨rfl, rfl⟩, Or.inl rfl⟩)
          (fun s _ hs => hs.1) fun _ => rfl) fun _ _ _ h => nomatch h) fun _ => ?_
        exact .pure fun s hs hw => hw.2.settled hs
      · next hany =>
          exact .pure fun s hs hw => (hw.2 (Bool.not_eq_true _ ▸ hany)).settled hs
  split
  · refine .bind (.try_ (finalizer_keeps (fun eventId => ⟨Or.inl ⟨rfl, rfl⟩, Or.inl rfl⟩)
      (fun s _ hP => hwaits s hP) fun _ => rfl) fun _ _ _ h => nomatch h) fun _ => ?_
    exact (hrest ()).pre fun s _ hs => hs.2
  · next hstate =>
      refine (hrest ()).pre fun s _ hP => ?_
      obtain ⟨row, hrow, hparked, hp, ha, hrank⟩ := hwaits s hP
      refine ⟨row, hrow, hparked, hp, ha, Nat.le_trans ?_ hrank⟩
      exact (h s hP).state hlease (by rw [hpending]; rfl) hstate

/-- The younger of two messages of one job stays. -/
theorem bindOrAckDuplicate_benign {j : JobId} {w : WorkerId} {l : LeaseId} {n : Nat}
    (h : ∀ s, P s → s.Canon n j) :
    Keeps cfg strict DispatcherError.Benign P (Dispatcher.bindOrAckDuplicate j w l n) anyState := by
  unfold Dispatcher.bindOrAckDuplicate
  extract_lets bindHere
  have hbind : Keeps cfg strict DispatcherError.Benign P bindHere anyState :=
    .seq (.lift (bind_runs fun s _ hP => h s hP)) fun _ => progress_benign n
  refine .bind binding_keeps.attempt fun r => ?_
  cases r with
  | error e => exact hbind.pre fun s _ hP => hP.1
  | ok existing =>
      simp only
      split
      · next hlt =>
          exact .lift (ackDuplicate_runs fun s _ hP =>
            (h s hP.1).retirable (Or.inr ⟨_, hlt, hP.2 existing rfl⟩))
      · split
        · next hlt =>
            refine .seq (.lift (ackDuplicate_runs fun s _ hP =>
              (hP.2 existing rfl).retirable (Or.inr ⟨_, hlt, h s hP.1⟩))) fun _ => ?_
            exact hbind.pre fun s _ hP => hP.1
        · exact hbind.pre fun s _ hP => hP.1

/-- The entry waits for a canonical message of its job. -/
def Cluster.Buffers (s : Cluster) (entry : FairEntry PendingDelivery) : Prop :=
  entry.payload.queued.jobId = entry.jobId ∧ s.Canon entry.payload.streamSequence entry.jobId

instance {cfg : Config} {strict : Bool} (entry : FairEntry PendingDelivery) :
    (discipline cfg strict).Stable fun s => s.Buffers entry :=
  ⟨fun _ _ hs _ hl h => ⟨h.1, Cluster.Later.canon hl hs.reachable h.2⟩⟩

theorem requeue_benign {entry : FairEntry PendingDelivery} (h : ∀ s, P s → s.Buffers entry) :
    Keeps cfg strict DispatcherError.Benign P (Dispatcher.requeue entry) anyState := by
  have hpush : Runs cfg strict P (act (.memory (.fairPush entry))) anyState :=
    runs_access fun s _ hP => h s hP
  exact .try_ (hpush.keeps fun _ _ _ _ => trivial) fun _ _ _ h => nomatch h

/-- The younger of two messages of one job is buffered. -/
theorem bufferDelivery_benign {queued : JobQueued} {n : Nat} (snap : JobSchedulingSnapshot)
    (lane : PriorityLane) (h : ∀ s, P s → s.Canon n queued.jobId)
    (headers : List (String × String)) :
    Keeps cfg strict DispatcherError.Benign P
      (Dispatcher.bufferDelivery queued snap lane n headers) anyState := by
  unfold Dispatcher.bufferDelivery
  extract_lets replace
  have hreplace : ∀ existing : FairEntry PendingDelivery, existing.payload.queued.jobId =
      queued.jobId → Keeps cfg strict DispatcherError.Benign P (replace existing) anyState := by
    intro existing hjob
    refine .seq (.lift (runs_access fun s _ hP => ⟨hjob, h s hP⟩))
      fun _ => ?_
    refine .seq (progress_benign n) fun _ => .seq (.lift runs_now) fun at_ => ?_
    refine .seq (.lift (runs_access fun s _ hP => ⟨hjob, h s hP⟩))
      fun _ => ?_
    exact .pure fun _ _ _ => trivial
  have hget : Runs cfg strict P (act (.memory (.fairGet queued.jobId))) fun entry? s =>
      ∀ entry, entry? = some entry → entry.payload.queued.jobId = queued.jobId ∧
        s.Canon entry.payload.streamSequence queued.jobId := by
    refine runs_memory (fun _ _ _ => trivial) fun s hs _ entry hentry => ?_
    obtain ⟨hmem, hjob⟩ := FairQueue.get?_mem hentry
    have hbuffered := hs.buffered entry hmem
    rw [hjob] at hbuffered
    exact hbuffered
  refine .bind (.lift hget) fun entry? => ?_
  cases entry? with
  | none =>
      refine .seq (.lift runs_now) fun _ => .seq (.lift runs_now) fun _ => ?_
      exact requeue_benign fun s hP => ⟨rfl, h s hP.1⟩
  | some existing =>
      have hjob : Keeps cfg strict DispatcherError.Benign (fun s => P s ∧ ∀ entry,
          some existing = some entry → entry.payload.queued.jobId = queued.jobId ∧
            s.Canon entry.payload.streamSequence queued.jobId) (replace existing) anyState :=
        fun s hs hP => hreplace existing (hP.2 existing rfl).1 s hs hP.1
      simp only
      split
      · exact hjob
      · split
        · next hlt =>
            refine .seq (.lift (ackDuplicate_runs fun s _ hP => ?_)) fun _ => hjob
            exact (hP.2 existing rfl).2.retirable (Or.inr ⟨_, hlt, h s hP.1⟩)
        · next hne hlt =>
            refine .lift (ackDuplicate_runs fun s _ hP => ?_)
            refine (h s hP.1).retirable (Or.inr ⟨_, ?_, (hP.2 existing rfl).2⟩)
            omega

/-- The message of a cancelled job goes when the job has ended. -/
theorem finalizeCancellation_benign {n : Nat} {j : JobId} {snap : JobSchedulingSnapshot}
    (hlease : snap.lease = none) (hpending : snap.pendingOutcome = some .cancelled)
    (hattempts : snap.deliveryAttempts = 0)
    (h : ∀ s, P s → s.Names n j ∧ s.Saw cfg.maxRunAttempts j snap) :
    Keeps cfg strict DispatcherError.Benign P
      (do Dispatcher.finalizeQueuedCancellation snap; Dispatcher.confirmAck n) anyState := by
  refine .bind (finalizeQueuedCancellation_benign hlease hpending hattempts fun s hP => ?_)
    fun _ => ?_
  · rw [(h s hP).2.id]
    exact (h s hP).2
  · refine confirmAck_benign fun s _ hP => (h s hP.1).1.retirable (Or.inr (Or.inl ?_))
    rw [← (h s hP.1).2.id]
    exact hP.2

/-- An inconsistent message of a live job goes after a redrive and the letter about it. -/
theorem inconsistent_benign {n attempt : Nat} {j : JobId} {snap : JobSchedulingSnapshot}
    {named : Option JobId} {project : Option ProjectId}
    (h : ∀ s, P s → s.Names n j ∧ s.Saw cfg.maxRunAttempts j snap)
    (headers : List (String × String)) :
    Keeps cfg strict DispatcherError.Benign P
      (do
        Dispatcher.redriveCanonical snap.queued headers n
        Dispatcher.deadLetterDelivery cfg n attempt named project .canonicalJobInconsistent headers)
      anyState := by
  refine .bind (redrive_keeps (fun _ _ h => nomatch h) (fun s _ hP => h s hP) headers) fun _ => ?_
  refine deadLetterDelivery_benign (by decide)
    (fun _ _ hnew => JobDeadLetter.new_inconsistent hnew) (fun s _ hP hpub => ?_) headers
  exact (h s hP.1).1.discardable (Or.inr (Or.inr hP.2)) (Or.inr hpub)

/-- **Deliveries.** -/
theorem acceptDelivery_benign {n : Nat} {message : QueueMessage}
    (h : ∀ s, P s → s.Stores n message) :
    Keeps cfg strict DispatcherError.Benign P (Dispatcher.acceptDelivery cfg n message)
      anyState := by
  unfold Dispatcher.acceptDelivery
  cases hpayload : message.payload with
  | oversized | unparsable =>
      refine deadLetterDelivery_benign (by decide)
        (fun _ _ hnew => JobDeadLetter.new_malformed hnew) (fun s _ hP hpub => ?_) _
      exact (h s hP).discardable (by rw [hpayload]; rfl) hpub
  | jobQueued queued =>
      have hnames : ∀ s, P s → s.Names n queued.jobId :=
        fun s hP => ⟨message, h s hP, by rw [hpayload]; rfl⟩
      simp only [decodeQueuePayload]
      refine .bind (.try_ (snapshot_named fun s _ hP => hnames s hP) fun _ _ _ h => by cases h)
        fun out => ?_
      cases out with
      | none =>
          refine deadLetterDelivery_benign (by decide)
            (fun _ _ hnew => JobDeadLetter.new_inconsistent hnew) (fun s _ hP hpub => ?_) _
          exact (hnames s hP.1).discardable (Or.inl (hP.2.2 rfl)) (Or.inr hpub)
      | some snap =>
          refine .seq (.lift runs_now) fun at_ => ?_
          have hsaw : ∀ s, (P s ∧ (∀ snap', some snap = some snap' →
              s.Saw cfg.maxRunAttempts queued.jobId snap') ∧
              (some snap = none → s.Orphan n queued.jobId)) →
              s.Names n queued.jobId ∧ s.Saw cfg.maxRunAttempts queued.jobId snap :=
            fun s hP => ⟨hnames s hP.1, hP.2.1 snap rfl⟩
          have hspec := classifyCanonicalDelivery_spec queued snap at_
          generalize classifyCanonicalDelivery queued snap at_ = decision at hspec ⊢
          have hcanon : queued = snap.queued → ∀ s, (P s ∧ (∀ snap', some snap = some snap' →
              s.Saw cfg.maxRunAttempts queued.jobId snap') ∧
              (some snap = none → s.Orphan n queued.jobId)) → s.Canon n queued.jobId :=
            fun heq s hP => (hsaw s hP).2.canon (h s hP.1) (heq ▸ hpayload)
          cases decision with
          | ackTerminal => exact finishTerminalDelivery_benign hspec hsaw _
          | finalizeCancellation =>
              exact finalizeCancellation_benign hspec.2.1 hspec.1 hspec.2.2 hsaw
          | rebind lease => exact bindOrAckDuplicate_benign (hcanon hspec)
          | holdForReconciliation =>
              simp only
              split
              · exact bindOrAckDuplicate_benign (hcanon hspec)
              · exact progress_benign n
          | deadLetter reason =>
              obtain rfl : reason = .canonicalJobInconsistent := hspec
              exact inconsistent_benign hsaw _
          | buffer lane => exact bufferDelivery_benign snap lane (hcanon hspec) _

/-- What the loop logs of a delivery is not about a marker. -/
theorem deliver_runs {n : Nat} {message : QueueMessage} (h : ∀ s, P s → s.Stores n message) :
    Runs cfg strict P (Dispatcher.deliver cfg n message)
      fun r _ => ∀ e, r = .error e → e.Benign := by
  refine Triple.bind (acceptDelivery_benign h) fun r => ?_
  cases r with
  | ok u => exact Triple.done fun _ _ _ e he => nomatch he
  | error e =>
      refine Triple.seq (runs_exchange fun _ _ _ => trivial) fun _ => ?_
      refine Triple.done fun _ _ hP e' he' => ?_
      exact hP.2.2 e' he'

/-! ## Dispatch -/

theorem progressIfDue_benign (entry : FairEntry PendingDelivery) :
    Keeps cfg strict DispatcherError.Benign P (Dispatcher.progressIfDue cfg entry)
      fun entry' _ => entry'.jobId = entry.jobId ∧
        entry'.payload.queued = entry.payload.queued ∧
        entry'.payload.streamSequence = entry.payload.streamSequence := by
  refine .seq (.lift runs_now) fun at_ => ?_
  split
  · refine .seq (progress_benign _) fun _ => .seq (.lift runs_now) fun at_' => ?_
    exact .pure fun _ _ _ => ⟨rfl, rfl, rfl⟩
  · exact .pure fun _ _ _ => ⟨rfl, rfl, rfl⟩

theorem hold_benign {entry : FairEntry PendingDelivery} (h : ∀ s, P s → s.Buffers entry) :
    Keeps cfg strict DispatcherError.Benign P (Dispatcher.hold cfg entry) anyState := by
  refine .bind (progressIfDue_benign entry) fun entry' => ?_
  refine requeue_benign fun s hP => ?_
  obtain ⟨hs, hjob, hqueued, hseq⟩ := hP
  obtain ⟨hname, hcanon⟩ := h s hs
  unfold Cluster.Buffers
  rw [hjob, hqueued, hseq]
  exact ⟨hname, hcanon⟩

/-- A claim returns the job it was made for. -/
theorem claim_keeps (j : JobId) (w : WorkerId) (l : LeaseId) (leaseExpiresAt : Time)
    (options : ClaimJobOptions) :
    Keeps cfg strict anyError P (Repository.claimJobWithOptions j w l leaseExpiresAt options)
      fun claim _ => claim.jobId = j := by
  refine Triple.seq runs_draw fun draw => ?_
  refine keeps_call _ (fun _ _ _ => allows_of_isPlain rfl rfl fun _ _ h => nomatch h) ?_
  intro s t claim s' _ _ hc _ _
  obtain ⟨_, _, _, _, _, _, _, _, _, _, _, _, hjob, _⟩ := claimJobWithOptions_commits hc
  exact hjob

theorem claimFirst_benign {entry : FairEntry PendingDelivery} (h : ∀ s, P s → s.Buffers entry)
    (workers : List WorkerStatus) :
    Keeps cfg strict DispatcherError.Benign P (Dispatcher.claimFirst cfg entry workers)
      anyState := by
  induction workers with
  | nil => exact hold_benign h
  | cons worker rest ih =>
      refine .seq (.lift runs_draw) fun d => .seq (.lift runs_now) fun at_ => ?_
      have hclaim (expires : Time) (options : ClaimJobOptions) : Runs cfg strict P
          (Repository.claimJobWithOptions entry.jobId worker.workerId d.leaseId expires options)
          fun r _ => ∀ claim, r = .ok claim → claim.jobId = entry.jobId :=
        Triple.conseq (claim_keeps _ _ _ _ _) (fun _ _ hP => hP) fun _ _ _ hr => hr.1
      refine .bind (.lift (hclaim _ _)) fun r => ?_
      cases r with
      | ok claim =>
          simp only
          refine .seq (.lift (bind_runs fun s _ hP => ?_)) fun _ => ?_
          · rw [hP.2 claim rfl]
            exact (h s hP.1).2
          · refine .seq (progress_benign _) fun _ => .seq (.lift (runs_outside _)) fun _ => ?_
            exact .pure fun _ _ _ => trivial
      | error error =>
          split
          · next heq => cases heq
          · exact hold_benign fun s hP => h s hP.1
          · split
            · exact ih.pre fun s _ hP => hP.1
            · exact .fail fun _ h => nomatch h

/-- **Dispatch.** -/
theorem dispatchOne_benign :
    Keeps cfg strict DispatcherError.Benign P (Dispatcher.dispatchOne cfg) anyState := by
  unfold Dispatcher.dispatchOne
  refine .seq (.lift runs_now) fun at_ => ?_
  have hpop : Runs cfg strict P (act (.memory (.fairPop at_))) fun entry? s =>
      ∀ entry, entry? = some entry → s.Buffers entry := by
    refine runs_memory (fun _ _ _ => trivial) fun s hs _ entry hentry => ?_
    exact hs.buffered entry ((FairQueue.mem_pop rfl).1 entry hentry)
  refine .bind (.lift hpop) fun entry? => ?_
  cases entry? with
  | none => exact .pure fun _ _ _ => trivial
  | some entry =>
      have hbuffers : ∀ s, (P s ∧ ∀ entry', some entry = some entry' → s.Buffers entry') →
          s.Buffers entry := fun s hP => hP.2 entry rfl
      -- the job of a buffered entry exists
      refine .bind (.try_ (snapshot_reads (R := fun out s => ∃ snap, out = some snap ∧
        s.Saw cfg.maxRunAttempts entry.jobId snap) (fun s _ hP hnone => ?_)
        fun s snap row hs _ _ hrow hshows => ⟨snap, rfl, hs.saw hrow hshows⟩)
        fun _ _ _ h => nomatch h) fun out => ?_
      · obtain ⟨_, row, _, hrow, _⟩ := (hbuffers s hP).2
        rw [hnone] at hrow
        cases hrow
      cases out with
      | none =>
          refine keeps_absurd fun s _ hP => ?_
          obtain ⟨snap, hsnap, _⟩ := hP.2
          cases hsnap
      | some snap =>
          have hsaw : ∀ s, ((P s ∧ ∀ entry', some entry = some entry' → s.Buffers entry') ∧
              ∃ snap', some snap = some snap' ∧ s.Saw cfg.maxRunAttempts entry.jobId snap') →
              s.Names entry.payload.streamSequence entry.jobId ∧
                s.Saw cfg.maxRunAttempts entry.jobId snap := by
            rintro s ⟨hP, snap', heq, hsaw⟩
            obtain rfl := Option.some.inj heq
            exact ⟨(hbuffers s hP).2.names, hsaw⟩
          refine .seq (.lift runs_now) fun at_' => ?_
          have hspec := classifyCanonicalDelivery_spec entry.payload.queued snap at_'
          generalize classifyCanonicalDelivery entry.payload.queued snap at_' = decision
            at hspec ⊢
          cases decision with
          | ackTerminal => exact finishTerminalDelivery_benign hspec hsaw _
          | finalizeCancellation =>
              exact finalizeCancellation_benign hspec.2.1 hspec.1 hspec.2.2 hsaw
          | rebind lease => exact bindOrAckDuplicate_benign fun s hP => (hbuffers s hP.1).2
          | holdForReconciliation => exact hold_benign fun s hP => hbuffers s hP.1
          | deadLetter reason =>
              obtain rfl : reason = .canonicalJobInconsistent := hspec
              exact inconsistent_benign hsaw _
          | buffer lane =>
              refine .seq (.lift runs_now) fun at_'' => ?_
              refine .seq (.try_ (keeps_query (.workersMatching _ _ _ _)
                fun _ _ _ _ _ _ _ => trivial) fun _ _ _ h => nomatch h) fun workers => ?_
              split
              · exact hold_benign fun s hP => hbuffers s hP.1
              · exact claimFirst_benign (fun s hP => hbuffers s hP.1) workers

end Dispatcher

end RunAnywhere
