import RunAnywhere.Scheduler.Deliveries

/-!
# What advisories keep

The advisory recovery deletes the message JetStream gave up on only when its job has ended
without a marker, after the marker of the job or the letter about the message was
published, or after a redrive.
-/

namespace RunAnywhere

open Logic Machine

/-- The error is not one about a marker. -/
def AdvisoryError.Benign (e : AdvisoryError) : Prop :=
  ∀ eventKey, e ≠ .invalidExhaustionMarker eventKey

section Advisory

variable {cfg : Config} {strict : Bool} {P : Cluster → Prop}
  [(discipline cfg strict).Stable P]

theorem ackAdvisory_benign :
    Keeps cfg strict AdvisoryError.Benign P AdvisoryRecovery.confirmAck anyState :=
  .try_ ((runs_outside .ackAdvisory).keeps fun _ _ _ _ => trivial) fun _ _ _ h => nomatch h

/-- The source is deleted, and the advisory acknowledged. -/
theorem deleteAndFinish_benign {n : Nat}
    (h : ∀ s, s.Sound cfg.maxRunAttempts strict → P s → s.Discardable strict n) :
    Keeps cfg strict AdvisoryError.Benign P
      (do .try_ (Dlq.deleteSource n) .dlq; AdvisoryRecovery.confirmAck) anyState :=
  .seq (.try_ (deleteSource_keeps h) fun _ _ _ h => nomatch h) fun _ => ackAdvisory_benign

/-- The source is deleted after a letter was published. -/
theorem deadLetterAndFinish_benign {n attempt : Nat} {j : Option JobId} {project : Option ProjectId}
    {reason : JobDeadLetterReason} (key : String)
    (hkey : ∀ at_ d, JobDeadLetter.new j project (some n) (max attempt 1) reason at_ = .ok d →
      d.idempotencyKey = .ok key)
    (htaken : ∀ s d, P s → d.reason = reason → d.idempotencyKey = .ok key → s.Taken d)
    (h : ∀ s, s.Sound cfg.maxRunAttempts strict → P s → s.db.Published key →
      s.Discardable strict n) (headers : List (String × String)) :
    Keeps cfg strict AdvisoryError.Benign P
      (AdvisoryRecovery.deadLetterAndFinish cfg n attempt j project reason headers) anyState := by
  refine .seq (.lift runs_now) fun at_ => ?_
  refine .bind keeps_expect fun deadLetter => ?_
  refine .bind (.try_ (ensurePublished_keeps (fun s _ hP => ?_) _ _) fun _ _ _ h => nomatch h)
    fun _ => ?_
  · refine htaken s deadLetter hP.1 ?_ (hkey at_ _ hP.2)
    rw [JobDeadLetter.new_eq hP.2]
  · exact deleteAndFinish_benign fun s hs hP => h s hs hP.1.1 (hP.2 key (hkey at_ _ hP.1.2))

/-- The letter of a marked job. -/
theorem exhausted_benign {n : Nat} {j : JobId} {snap : JobSchedulingSnapshot}
    {project : Option ProjectId}
    (h : ∀ s, P s → s.Saw cfg.maxRunAttempts j snap ∧ s.HasMarker j snap.deliveryAttempts)
    (hset : ∀ s, s.Sound cfg.maxRunAttempts strict → P s → s.db.Settled strict j →
      s.Discardable strict n) (headers : List (String × String)) :
    Keeps cfg strict AdvisoryError.Benign P
      (AdvisoryRecovery.deadLetterAndFinish cfg n (max snap.deliveryAttempts 1) (some snap.job.id)
        project .attemptsExhausted headers) anyState := by
  refine deadLetterAndFinish_benign (exhaustionEventKey snap.job.id snap.deliveryAttempts)
    (fun at_ d hnew => ?_) (fun s d hP _ hkey => ?_) (fun s hs hP hpub => ?_) headers
  · rw [JobDeadLetter.new_exhausted hnew, exhaustionEventKey_max]
  · rw [(h s hP).1.id] at hkey
    exact (h s hP).2.taken hkey
  · rw [(h s hP).1.id] at hpub
    exact hset s hs hP (hpub.settled hs.reachable strict)

/-- The marker read: a job counts as given up when it is marked, and one that has ended
without counting so is settled. -/
theorem recoveryMarked_benign {j : JobId} {snap : JobSchedulingSnapshot}
    (h : ∀ s, P s → s.Saw cfg.maxRunAttempts j snap) :
    Keeps cfg strict AdvisoryError.Benign P
      (do
        match ← Routine.try_ (Repository.getOutboxMessage
            (exhaustionEventKey snap.job.id (max snap.deliveryAttempts 1))) .repository with
        | some marker =>
            if isMatchingExhaustionMarker marker snap.job.id (max snap.deliveryAttempts 1) then
              pure (decide (cfg.maxRunAttempts ≤ snap.deliveryAttempts))
            else .fail (.invalidExhaustionMarker
              (exhaustionEventKey snap.job.id (max snap.deliveryAttempts 1)))
        | none => pure false : TaskOr AdvisoryError Bool)
      fun marked s => (marked = true → s.HasMarker j snap.deliveryAttempts) ∧
        (marked = false → snap.job.state.isTerminal = true → s.db.Settled strict j) := by
  refine .bind (.try_ (outboxMessage_keeps (R := fun out s =>
    (out = none → snap.job.state.isTerminal = true → s.db.Settled strict j) ∧
    ∀ outbox, out = some outbox → s.HasMarker j snap.deliveryAttempts ∧
      isMatchingExhaustionMarker outbox snap.job.id (max snap.deliveryAttempts 1) = true ∧
      (snap.job.state.isTerminal = true → cfg.maxRunAttempts ≤ snap.deliveryAttempts))
    fun s hs hP => ?_) fun _ _ _ h => nomatch h) fun out => ?_
  · rw [(h s hP).id]
    refine ⟨fun hnone hend => ?_, fun outbox hsome => ?_⟩
    · obtain ⟨row, hrow, hshows⟩ := (h s hP).ended hend
      rw [hshows.job] at hend
      refine Db.EndedUnmarked.settled ⟨row, hrow, hend, ?_⟩ strict
      rw [← hshows.attempts, ← exhaustionEventKey_max]
      exact Option.map_eq_none_iff.mp hnone
    · obtain ⟨message, hmessage, rfl⟩ := Option.map_eq_some_iff.mp hsome
      have hmarked := marked_invariant _ s.db hs.reachable
      obtain ⟨hmatch, _, _, _, e, he, hex⟩ := hmarked.marker j _ message hmessage
      refine ⟨⟨message, exhaustionEventKey_max j _ ▸ hmessage⟩, hmatch, fun hend => ?_⟩
      obtain ⟨row, hrow, hshows⟩ := (h s hP).ended hend
      obtain ⟨row', hrow', _, _, _, hlimit, _⟩ := hmarked.exhausted j e he hex
      obtain rfl := Option.some.inj (hrow.symm.trans hrow')
      rw [hshows.attempts]
      exact hlimit
  · cases out with
    | none =>
        exact .pure fun s _ hP => ⟨fun h => (nomatch h), fun _ => hP.2.1 rfl⟩
    | some marker =>
        simp only
        split
        · refine .pure fun s _ hP => ⟨fun _ => (hP.2.2 marker rfl).1, fun hlow hend => ?_⟩
          exact absurd ((hP.2.2 marker rfl).2.2 hend) (of_decide_eq_false hlow)
        · next hmatch =>
            exact keeps_absurd fun s _ hP => hmatch (hP.2.2 marker rfl).2.1

/-- **Advisories.** -/
theorem settle_benign {n : Nat} {raw : QueueMessage} (h : ∀ s, P s → s.Stores n raw) :
    Keeps cfg strict AdvisoryError.Benign P (AdvisoryRecovery.settle cfg n raw) anyState := by
  unfold AdvisoryRecovery.settle
  cases hpayload : raw.payload with
  | oversized | unparsable =>
      refine deadLetterAndFinish_benign _ (fun _ _ hnew => JobDeadLetter.new_malformed hnew)
        (fun s d _ hreason _ => taken_of_ne (by rw [hreason]; decide)) (fun s _ hP hpub => ?_) _
      exact (h s hP).discardable (by rw [hpayload]; rfl) hpub
  | jobQueued queued =>
      have hnames : ∀ s, P s → s.Names n queued.jobId :=
        fun s hP => ⟨raw, h s hP, by rw [hpayload]; rfl⟩
      simp only [decodeQueuePayload]
      refine .bind (.try_ (snapshot_named fun s _ hP => hnames s hP) fun _ _ _ h => by cases h)
        fun out => ?_
      cases out with
      | none =>
          refine deadLetterAndFinish_benign _ (fun _ _ hnew => JobDeadLetter.new_inconsistent hnew)
            (fun s d _ hreason _ => taken_of_ne (by rw [hreason]; decide))
            (fun s _ hP hpub => ?_) _
          exact (hnames s hP.1).discardable (Or.inl (hP.2.2 rfl)) (Or.inr hpub)
      | some snap =>
          have hsaw : ∀ s, (P s ∧ (∀ snap', some snap = some snap' →
              s.Saw cfg.maxRunAttempts queued.jobId snap') ∧
              (some snap = none → s.Orphan n queued.jobId)) →
              s.Names n queued.jobId ∧ s.Saw cfg.maxRunAttempts queued.jobId snap :=
            fun s hP => ⟨hnames s hP.1, hP.2.1 snap rfl⟩
          have hcanon : queued = snap.queued → ∀ s, (P s ∧ (∀ snap', some snap = some snap' →
              s.Saw cfg.maxRunAttempts queued.jobId snap') ∧
              (some snap = none → s.Orphan n queued.jobId)) → s.Canon n queued.jobId :=
            fun heq s hP => (hsaw s hP).2.canon (h s hP.1) (heq ▸ hpayload)
          simp only
          refine .bind (recoveryMarked_benign fun s hP => (hsaw s hP).2) fun marked => ?_
          split
          · next hend =>
              -- the job has ended: its message needs no letter of its own
              have hended : ∀ s : Cluster, s.Saw cfg.maxRunAttempts queued.jobId snap →
                  ∃ row, s.db.job? queued.jobId = some row ∧ row.state.isTerminal = true := by
                intro s hs
                obtain ⟨row, hrow, hshows⟩ := hs.ended hend
                rw [hshows.job] at hend
                exact ⟨row, hrow, hend⟩
              cases marked with
              | true =>
                  refine exhausted_benign (fun s hP => ⟨(hsaw s hP.1).2, hP.2.1 rfl⟩)
                    (fun s _ hP hset => ?_) _
                  exact (hsaw s hP.1).1.discardable (Or.inr (Or.inl hset))
                    (Or.inl (hended s (hsaw s hP.1).2))
              | false =>
                  refine deleteAndFinish_benign fun s _ hP => ?_
                  exact (hsaw s hP.1).1.discardable (Or.inr (Or.inl (hP.2.2 rfl hend)))
                    (Or.inl (hended s (hsaw s hP.1).2))
          · split
            · refine .bind (redrive_keeps (fun _ _ h => by cases h)
                (fun s _ hP => hsaw s hP.1) _) fun _ => ?_
              refine deadLetterAndFinish_benign _
                (fun _ _ hnew => JobDeadLetter.new_inconsistent hnew)
                (fun s d _ hreason _ => taken_of_ne (by rw [hreason]; decide))
                (fun s _ hP hpub => ?_) _
              exact (hsaw s hP.1.1).1.discardable (Or.inr (Or.inr hP.2)) (Or.inr hpub)
            · next hsame =>
                have heq : queued = snap.queued := not_not.mp hsame
                split
                · next hexhausted =>
                    refine exhausted_benign
                      (fun s hP => ⟨(hsaw s hP.1).2, hP.2.1 hexhausted.2.2⟩)
                      (fun s _ hP hset => ?_) _
                    exact (hcanon heq s hP.1).discardable (Or.inl hset)
                · refine .bind (redrive_keeps (fun _ _ h => by cases h)
                    (fun s _ hP => hsaw s hP.1) _) fun _ => ?_
                  refine deleteAndFinish_benign fun s _ hP => ?_
                  exact (hcanon heq s hP.1.1).discardable (Or.inr hP.2)

theorem handle_benign (notice : Option ConsumerAdvisory) :
    Keeps cfg strict AdvisoryError.Benign P (AdvisoryRecovery.handle cfg notice) anyState := by
  unfold AdvisoryRecovery.handle
  cases notice with
  | none => exact ackAdvisory_benign
  | some advisory =>
      simp only
      split
      · exact ackAdvisory_benign
      · have hread : Runs cfg strict P (act (.stream (.getRawMessage advisory.streamSeq)))
            fun r s => ∀ raw, r = .ok raw → s.Stores advisory.streamSeq raw := by
          refine runs_stream (fun _ _ _ => trivial) fun s c r s' _ _ hrun _ _ raw hraw => ?_
          subst hraw
          simp only [StreamCall.run] at hrun
          repeat' split at hrun
          all_goals cases hrun
          assumption
        refine .bind (.lift hread) fun r => ?_
        split
        · next raw => exact settle_benign fun s hP => hP.2 raw rfl
        · exact ackAdvisory_benign
        · exact .fail fun _ h => by cases h

end Advisory

end RunAnywhere
