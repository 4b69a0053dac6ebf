import RunAnywhere.Scheduler.Requests

/-!
# The exhaustion marker

The key of a dead letter is built by recovery, by the contracts and by three readers, and
each clamps the attempt in its own way. All of them mean the same row: the one marker of
the jobs recovery gave up on (`marked_invariant`).
-/

namespace RunAnywhere

open Logic Machine

/-- Readers that clamp the attempt alike find the same row and accept it alike. -/
theorem marker_readings {j : JobId} {a b : Nat} (h : max a 1 = max b 1) (message : OutboxMessage) :
    exhaustionEventKey j a = exhaustionEventKey j b ∧
      isMatchingExhaustionMarker message j a = isMatchingExhaustionMarker message j b := by
  have hkey : exhaustionEventKey j a = exhaustionEventKey j b := by
    rw [← exhaustionEventKey_max, h, exhaustionEventKey_max]
  refine ⟨hkey, ?_⟩
  unfold isMatchingExhaustionMarker
  rw [hkey, h]

/-- **All readers agree on the exhaustion marker.** In every reachable pool

* a job is on the recovery-exhausted path if and only if the key of its delivery attempts,
  clamped in any way, finds a row that is accepted as its marker;
* no component reports an invalid marker;
* letters of exhausted jobs are under these keys only, one for a job, and a component
  enqueues another under a taken key only;

and the key of a valid letter is determined by what the letter is about, and determines it;
it is neither a job identifier nor a webhook key. -/
theorem exhaustion_marker_agreement {cfg : Config}
    {p : Pool Cluster Action Action.Res Request Report}
    (hp : (scheduler cfg fun _ _ => True).Reachable p) :
    (∀ j row a, p.state.db.job? j = some row → max a 1 = max row.deliveryAttempts 1 →
      (p.state.db.RecoveryExhausted j row ↔
        ∃ message, p.state.db.message? (exhaustionEventKey j a) = some message ∧
          isMatchingExhaustionMarker (message.intoMessage (exhaustionEventKey j a)) j a = true)) ∧
    (∀ th ∈ p.threads, ∀ report, th.rest = .done report → report.Benign) ∧
    (∀ key message deadLetter, p.state.db.message? key = some message →
      message.subject = jobsDeadSubject → message.payload = .jobDeadLetter deadLetter →
      deadLetter.reason = .attemptsExhausted → ∃ j row, deadLetter.jobId = some j ∧
        p.state.db.job? j = some row ∧ key = exhaustionEventKey j row.deliveryAttempts) ∧
    (∀ th ∈ p.threads, ∀ deadLetter headers key k,
      th.rest = .act (.call (.enqueueJobDeadLetter deadLetter headers)) k →
      deadLetter.reason = .attemptsExhausted → deadLetter.idempotencyKey = .ok key →
        (p.state.db.message? key).isSome = true) ∧
    (∀ d d' : JobDeadLetter, d.validate = .ok () → d'.validate = .ok () →
      (d.idempotencyKey = d'.idempotencyKey ↔ d.reason = d'.reason ∧ d.SameSubject d')) ∧
    ∀ (d : JobDeadLetter) key, d.idempotencyKey = .ok key →
      (∀ j : JobId, key ≠ j.val) ∧
        ∀ event webhook : String, key ≠ "webhook:" ++ event ++ ":" ++ webhook := by
  have hr := scheduler_reachable hp
  have hs := scheduler_sound hr
  refine ⟨fun j row a hrow ha => ?_, fun th hth report hrest => ?_, ?_, ?_, ?_, ?_⟩
  · have hiff := (marked_invariant _ _ hs.reachable).iff hrow
    have hkey : exhaustionEventKey j a = exhaustionEventKey j row.deliveryAttempts := by
      rw [← exhaustionEventKey_max, ha, exhaustionEventKey_max]
    rw [hiff, hkey]
    simp only [(marker_readings (j := j) ha _).2]
  · exact (scheduler_respects cfg false).finished (boot_sound cfg false) hr hth hrest
  · intro key message deadLetter hm hsub hpay hreason
    exact exhausted_letter_key hs.reachable hm hsub hpay hreason
  · intro th hth deadLetter headers key k hrest hreason hkey
    have hallowed := (scheduler_respects cfg false).allowed (boot_sound cfg false) hr hth hrest
      fun h => nomatch h
    exact hallowed.1.marked deadLetter headers key rfl hreason hkey
  · exact fun d d' => JobDeadLetter.idempotencyKey_eq_iff
  · intro d key hkey
    have hd := JobDeadLetter.idempotencyKey_startsWith hkey
    refine ⟨fun j => startsWith_ne hd j.startsWith (by decide), fun event webhook => ?_⟩
    have hw : startsWith 'w' "webhook:" := by decide
    exact startsWith_ne hd (startsWith_append (startsWith_append (startsWith_append hw))) (by decide)

theorem exhaustion_marker_agreement_exhausted : ∃ p row,
    (scheduler (Sample.config 1) fun _ _ => True).Reachable p ∧
    p.state.db.job? Sample.job = some row ∧ row.deliveryAttempts = 1 ∧
    p.state.db.RecoveryExhausted Sample.job row := by
  have hpool : (Sample.pool? (Sample.config 1) Sample.exhausted).any (fun p =>
      (p.state.db.job? Sample.job).any fun row => decide (row.deliveryAttempts = 1) &&
        (p.state.db.message? (exhaustionEventKey Sample.job 1)).any fun message =>
          isMatchingExhaustionMarker
            (message.intoMessage (exhaustionEventKey Sample.job 1)) Sample.job 1) = true := by
    decide +kernel
  obtain ⟨p, hp, hat⟩ := (Option.any_eq_true _ _).mp hpool
  obtain ⟨row, hrow, hat⟩ := (Option.any_eq_true _ _).mp hat
  obtain ⟨hattempts, hat⟩ := Bool.and_eq_true_iff.mp hat
  obtain ⟨message, hmessage, hmatch⟩ := (Option.any_eq_true _ _).mp hat
  have hattempts := of_decide_eq_true hattempts
  have hr := Sample.reachable hp
  refine ⟨p, row, hr, hrow, hattempts, ?_⟩
  exact ((exhaustion_marker_agreement hr).1 Sample.job row 1 hrow (by rw [hattempts])).mpr
    ⟨message, hmessage, hmatch⟩

end RunAnywhere
