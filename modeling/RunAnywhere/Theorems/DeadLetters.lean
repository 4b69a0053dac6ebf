import RunAnywhere.Theorems.Queue

/-!
# Dead letters come before retirement

A job that recovery gave up on keeps a source message until its marker is published, and a
malformed or inconsistent message stays until the letter about it is
(`Cluster.Discardable`). One path breaks the order. The leader ends such a job as
`infra_failed` before the marker is published; when a superseded worker then asks for the
same transition, its compare-and-swap is lost, `classify_replayed_transition` reads back the
state it asked for, and acknowledges the source under a binding that recovery left. The
other components ask for the marker first, so the order holds in the runs without such a
read (`Cluster.Clear`).
-/

namespace RunAnywhere

open Logic Machine

/-- Recovery gave up on the job, and its marker is not published. -/
def Db.AwaitsLetter (db : Db) (j : JobId) : Prop :=
  ∃ a marker, db.message? (exhaustionEventKey j a) = some marker ∧ marker.publishedAt = none

/-- A job whose marker waits is there, and it is not settled. -/
theorem Db.AwaitsLetter.not_settled {m : Nat} {db : Db} (hr : (components m).Reachable db)
    {j : JobId} (h : db.AwaitsLetter j) : ∃ row, db.job? j = some row ∧ ¬ db.Settled true j := by
  obtain ⟨a, marker, hmarker, hwaits⟩ := h
  obtain ⟨_, row, hrow, hmax, _⟩ := (marked_invariant m db hr).marker j a marker hmarker
  have hkey : exhaustionEventKey j row.deliveryAttempts = exhaustionEventKey j a := by
    rw [← exhaustionEventKey_max, hmax, exhaustionEventKey_max]
  refine ⟨row, hrow, ?_⟩
  rintro ⟨row', hrow', ⟨_, hend⟩ | ⟨message, hmessage, hpub⟩⟩
  · obtain ⟨row'', hrow'', _, hnone⟩ := hend rfl
    obtain rfl := Option.some.inj (hrow.symm.trans hrow'')
    rw [hkey, hmarker] at hnone
    cases hnone
  · obtain rfl := Option.some.inj (hrow.symm.trans hrow')
    rw [hkey, hmarker] at hmessage
    obtain rfl := Option.some.inj hmessage
    rw [hwaits] at hpub
    cases hpub

/-- Message `n` is not the last one of a job whose marker waits: a younger live message
carries the payload of the job. -/
def Cluster.Spare (s : Cluster) (n : Nat) : Prop := ∀ j, s.Names n j → s.db.AwaitsLetter j →
  ∃ row k, s.db.job? j = some row ∧ n < k ∧ s.queue.Carries k j row

/-- A message that may be retired is not the last one. -/
theorem Cluster.Sound.spare {m n : Nat} {s : Cluster} (h : s.Sound m true)
    (hn : s.Retirable true n) : s.Spare n := by
  intro j hj hawaits
  obtain ⟨row, hrow, hset⟩ := hawaits.not_settled h.reachable
  have hexists : ¬ s.Orphan n j := by
    intro ho
    have hnone := ho.2
    rw [hrow] at hnone
    cases hnone
  rcases hn.named j hj hexists with hs | hnew
  · exact absurd hs hset
  · obtain ⟨k, hlt, hk⟩ := h.carried_of_newer hrow hset hnew
    exact ⟨row, k, hrow, hlt, hk⟩

/-- Letters come before retirement. -/
structure LettersFirst (p : Pool Cluster Action Action.Res Request Report) : Prop where
  /-- no message that was retired is the last one of a job whose marker waits -/
  retired : ∀ n ∈ p.state.queue.retired, p.state.Spare n
  /-- nor is one that a thread is about to acknowledge, to terminate or to delete -/
  retires : ∀ th ∈ p.threads, ∀ x k, th.rest = .act (.stream x) k → ∀ n, x.Retires n →
    p.state.Spare n
  /-- a malformed or inconsistent message that a thread is about to terminate or to delete
  has its letter published -/
  discards : ∀ th ∈ p.threads, ∀ x k, th.rest = .act (.stream x) k → ∀ n, x.Discards n →
    p.state.Recorded n

/-- What a component may retire. -/
theorem Cluster.Allows.retirable {m n : Nat} {strict : Bool} {s : Cluster} {x : StreamCall}
    (h : s.Allows m strict (.stream x)) (hx : x.Retires n) : s.Retirable strict n := by
  cases x with
  | doubleAck k =>
      obtain rfl : k = n := hx
      exact h
  | term k | deleteMessage k =>
      obtain rfl : k = n := hx
      exact Discardable.toRetirable h
  | _ => cases hx

theorem Cluster.Allows.recorded {m n : Nat} {strict : Bool} {s : Cluster} {x : StreamCall}
    (h : s.Allows m strict (.stream x)) (hx : x.Discards n) : s.Recorded n := by
  cases x with
  | term k | deleteMessage k =>
      obtain rfl : k = n := hx
      exact Discardable.toRecorded h
  | _ => cases hx

/-- **Dead letters come before retirement** in every run in which no transition to
`infra_failed` is replayed against an ended job whose marker waits. -/
theorem dead_letters_first {cfg : Config} {p : Pool Cluster Action Action.Res Request Report}
    (hp : (scheduler cfg Cluster.Clear).Reachable p) : LettersFirst p := by
  have hr : (scheduler cfg (discipline cfg true).cond).Reachable p :=
    TSys.Reachable.mono (T := scheduler cfg Cluster.Clear)
      (U := scheduler cfg (discipline cfg true).cond) (fun _ hi => hi)
      (fun _ _ _ hstep => ⟨hstep.1, fun x hx _ => hstep.2 x hx⟩) hp
  have hs := scheduler_sound hr
  have hallows : ∀ th ∈ p.threads, ∀ x k, th.rest = .act (.stream x) k →
      p.state.Allows cfg.maxRunAttempts true (.stream x) := by
    intro th hth x k hrest
    exact (scheduler_respects cfg true).allowed (boot_sound cfg true) hr hth hrest
      fun _ => trivial
  refine ⟨fun n hn => hs.spare (hs.retired n hn), ?_, ?_⟩
  · intro th hth x k hrest n hx
    exact hs.spare ((hallows th hth x k hrest).retirable hx)
  · intro th hth x k hrest n hx
    exact (hallows th hth x k hrest).recorded hx

/-! ## Evaluation -/

/-- A check of `Cluster.Clear` that looks at the action only. -/
def Sample.isClear : Cluster → Action → Bool
  | _, .query (.schedulingSnapshot _ (some .infraFailed)) => false
  | _, _ => true

theorem Sample.clear_of_isClear {s : Cluster} {x : Action} (h : Sample.isClear s x = true) :
    s.Clear x := by
  unfold Cluster.Clear
  split
  · cases h
  · trivial

/-- The marker of the job is there, and it is not published. -/
def Sample.isMarked (p : Pool Cluster Action Action.Res Request Report) : Bool :=
  (p.state.db.message? (exhaustionEventKey Sample.job 1)).any fun marker =>
    decide (marker.publishedAt = none)

theorem Sample.awaitsLetter {p : Pool Cluster Action Action.Res Request Report}
    (h : Sample.isMarked p = true) : p.state.db.AwaitsLetter Sample.job := by
  obtain ⟨marker, hmarker, hwaits⟩ := (Option.any_eq_true _ _).mp h
  exact ⟨1, marker, hmarker, of_decide_eq_true hwaits⟩

theorem dead_letters_first_exhausted : ∃ p, (scheduler (Sample.config 1) Cluster.Clear).Reachable p ∧
    p.state.db.AwaitsLetter Sample.job ∧ LettersFirst p := by
  have hpool : (Sample.pool? (Sample.config 1) Sample.exhausted).any Sample.isMarked = true := by
    decide +kernel
  have hmeets : (machine (Sample.config 1)).replayMeets Sample.isClear
      ⟨Cluster.boot (Sample.config 1) Sample.catalog, []⟩ Sample.exhausted = true := by
    decide +kernel
  obtain ⟨p, hp, hat⟩ := (Option.any_eq_true _ _).mp hpool
  have hboot : (scheduler (Sample.config 1) Cluster.Clear).Reachable
      ⟨Cluster.boot (Sample.config 1) Sample.catalog, []⟩ := .init ⟨⟨Sample.catalog, rfl⟩, rfl⟩
  have hr : (scheduler (Sample.config 1) Cluster.Clear).Reachable p :=
    hboot.run ((machine (Sample.config 1)).replayMeets_run
      (fun _ _ h => Sample.clear_of_isClear h) hp hmeets)
  exact ⟨p, hr, Sample.awaitsLetter hat, dead_letters_first hr⟩

/-- The leader ends the job as `infra_failed`; its marker is not published yet. -/
def Sample.ended : List (Cmd Request Choice Outer) :=
  Sample.exhausted ++ Sample.goes 0 500 2 5 ++ Sample.goes 0 500 3 2 ++ Sample.goes 0 500 4 3

/-- What the worker whose lease ran out asks for after all. -/
def Sample.late : JobStateTransitionRequest :=
  ⟨Sample.job, Sample.worker, Sample.lease', .cleaningUp, .infraFailed,
    ⟨some .infraFailed, true, true⟩⟩

/-- The late transition is found to be done, and the source message is acknowledged. -/
def Sample.acknowledged : List (Cmd Request Choice Outer) :=
  Sample.ended ++ [.spawn (.transition 3 Sample.worker (some Sample.late))] ++
    Sample.goes 1 501 6 5

/-- The only message of the job is retired, and the marker of the job is not published. -/
def Sample.isLost (p : Pool Cluster Action Action.Res Request Report) : Bool :=
  Sample.isMarked p && decide (1 ∈ p.state.queue.retired) &&
    decide (p.state.queue.log.length = 1) && (p.state.queue.message? 1).any fun message =>
      decide (message.payload.jobId? = some Sample.job)

theorem letter_after_retirement : ∃ p,
    (scheduler (Sample.config 1) fun _ _ => True).Reachable p ∧ 1 ∈ p.state.queue.retired ∧
    p.state.db.AwaitsLetter Sample.job ∧ ¬ LettersFirst p := by
  have hpool : (Sample.pool? (Sample.config 1) Sample.acknowledged).any Sample.isLost = true := by
    decide +kernel
  obtain ⟨p, hp, hat⟩ := (Option.any_eq_true _ _).mp hpool
  simp only [Sample.isLost, Bool.and_eq_true, decide_eq_true_eq] at hat
  obtain ⟨⟨⟨hmarker, hretired⟩, hlength⟩, hnames⟩ := hat
  obtain ⟨message, hmessage, hjob⟩ := (Option.any_eq_true _ _).mp hnames
  have hawaits := Sample.awaitsLetter hmarker
  refine ⟨p, Sample.reachable hp, hretired, hawaits, fun hfirst => ?_⟩
  obtain ⟨row, k, _, hlt, _, younger, hyounger, _⟩ :=
    hfirst.retired 1 hretired Sample.job ⟨message, hmessage, of_decide_eq_true hjob⟩ hawaits
  -- the log ends with message 1
  have hle := (WorkQueue.message?_le hyounger).2
  omega

end RunAnywhere
