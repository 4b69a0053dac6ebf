import RunAnywhere.Scheduler.Rules

/-!
# What a snapshot is good for

A component decides by a snapshot it read some time ago. What it may still rely on:

* the canonical payload (`Cluster.Saw.queued`) and the row of an ended job
  (`Cluster.Saw.ended`);
* for a snapshot without a lease but with an outcome, that the job waits for its finalizer
  (`Cluster.Saw.waits`), and that it is marked if the outcome is `infra_failed`
  (`Cluster.Saw.marked`).

The finalizers' unfenced transitions move a waiting job on (`finalizer_keeps`).
-/

namespace RunAnywhere

open Logic Machine

/-! ## Reading -/

section Reading

variable {cfg : Config} {strict : Bool} {P : Cluster → Prop}
  [(discipline cfg strict).Stable P]

/-- A read of a snapshot. -/
theorem snapshot_reads {j : JobId} {replayed : Option JobState}
    {R : Option JobSchedulingSnapshot → Cluster → Prop}
    [∀ a, (discipline cfg strict).Stable (R a)]
    (hnone : ∀ s, s.Sound cfg.maxRunAttempts strict → P s → s.db.job? j = none → R none s)
    (hsome : ∀ s snap row, s.Sound cfg.maxRunAttempts strict →
      (strict = true → s.Clear (.query (.schedulingSnapshot j replayed))) → P s →
      s.db.job? j = some row → snap.Shows j row → R (some snap) s) :
    Keeps cfg strict anyError P (act (.query (.schedulingSnapshot j replayed))) R := by
  refine keeps_query (.schedulingSnapshot j replayed) fun s out db' hs hc hP hread => ?_
  obtain ⟨hmissing, hshown⟩ := getJobSchedulingSnapshot_commits hread
  cases out with
  | none => exact hnone s hs hP (hmissing rfl)
  | some snap =>
      obtain ⟨row, hrow, hshows⟩ := hshown snap rfl
      exact hsome s snap row hs hc hP hrow hshows

/-- A snapshot of the present row was read. -/
theorem Cluster.Sound.saw {m : Nat} {s : Cluster} (hs : s.Sound m strict) {j : JobId}
    {row : JobRow} {snap : JobSchedulingSnapshot} (hrow : s.db.job? j = some row)
    (hshows : snap.Shows j row) : s.Saw m j snap :=
  ⟨s.db, row, hs.reachable, .refl m s.db, hrow, hshows⟩

/-- A snapshot, if there is one, is of a row. -/
theorem snapshot_saw {j : JobId} {replayed : Option JobState} :
    Keeps cfg strict anyError P (act (.query (.schedulingSnapshot j replayed)))
      fun out s => ∀ snap, out = some snap → s.Saw cfg.maxRunAttempts j snap := by
  refine snapshot_reads (fun _ _ _ _ snap h => by cases h) ?_
  intro s snap row hs _ _ hrow hshows snap' h
  cases h
  exact hs.saw hrow hshows

/-- A missing job makes the message that names it an orphan. -/
theorem snapshot_named {n : Nat} {j : JobId} {replayed : Option JobState}
    (h : ∀ s, s.Sound cfg.maxRunAttempts strict → P s → s.Names n j) :
    Keeps cfg strict anyError P (act (.query (.schedulingSnapshot j replayed)))
      fun out s => (∀ snap, out = some snap → s.Saw cfg.maxRunAttempts j snap) ∧
        (out = none → s.Orphan n j) := by
  refine snapshot_reads (fun s hs hP hnone => ⟨fun snap h => (by cases h), fun _ => ?_⟩) ?_
  · exact ⟨h s hs hP, hnone⟩
  · intro s snap row hs _ _ hrow hshows
    refine ⟨fun snap' h => ?_, fun h => (by cases h)⟩
    cases h
    exact hs.saw hrow hshows

end Reading

/-! ## Relying on a snapshot -/

/-- Job `j` waits for its finalizer with outcome `o`, at `rank` or beyond it. -/
def Cluster.Waits (s : Cluster) (j : JobId) (o : JobOutcome) (attempts rank : Nat) : Prop :=
  ∃ row, s.db.job? j = some row ∧ row.Parked ∧ row.pendingOutcome = some o ∧
    row.deliveryAttempts = attempts ∧ rank ≤ row.state.rank

instance {cfg : Config} {strict : Bool} (j : JobId) (o : JobOutcome) (attempts rank : Nat) :
    (discipline cfg strict).Stable fun s => s.Waits j o attempts rank := by
  refine ⟨fun s s' hs _ hl h => ?_⟩
  obtain ⟨row, hrow, hparked, hpending, hattempts, hrank⟩ := h
  obtain ⟨row', hrow', hrests⟩ := (Cluster.Later.db hl).parked hs.reachable hrow hparked
  exact ⟨row', hrow', hrests.parked, hrests.pending.trans hpending,
    hrests.attempts.trans hattempts, Nat.le_trans hrank hrests.rank⟩

/-- A row is under the marker key of job `j`. -/
def Cluster.HasMarker (s : Cluster) (j : JobId) (attempts : Nat) : Prop :=
  ∃ message, s.db.message? (exhaustionEventKey j attempts) = some message

instance {cfg : Config} {strict : Bool} (j : JobId) (attempts : Nat) :
    (discipline cfg strict).Stable fun s => s.HasMarker j attempts := by
  refine ⟨fun s s' _ _ hl h => ?_⟩
  obtain ⟨message, hmessage⟩ := h
  obtain ⟨message', hmessage', _⟩ := (Cluster.Later.db hl).message hmessage
  exact ⟨message', hmessage'⟩

namespace Cluster.Saw

variable {m : Nat} {strict : Bool} {s : Cluster} {j : JobId} {snap : JobSchedulingSnapshot}

theorem id (h : s.Saw m j snap) : snap.job.id = j := by
  obtain ⟨_, _, _, _, _, hshows⟩ := h
  rw [hshows.job]
  rfl

theorem queued (h : s.Saw m j snap) :
    ∃ row, s.db.job? j = some row ∧ snap.queued = row.queued j := by
  obtain ⟨db, row, hr, hl, hrow, hshows⟩ := h
  obtain ⟨row', hrow', hqueued⟩ := hl.queued hr hrow
  exact ⟨row', hrow', hshows.queued.trans hqueued.symm⟩

theorem ended (h : s.Saw m j snap) (hend : snap.job.state.isTerminal = true) :
    ∃ row, s.db.job? j = some row ∧ snap.Shows j row := by
  obtain ⟨db, row, hr, hl, hrow, hshows⟩ := h
  rw [hshows.job] at hend
  exact ⟨row, hl.terminal hr hrow hend, hshows⟩

/-- A job whose snapshot has an outcome but no lease waits for its finalizer. -/
theorem waits (h : s.Saw m j snap) (hlease : snap.lease = none) {o : JobOutcome}
    (hpending : snap.pendingOutcome = some o) :
    s.Waits j o snap.deliveryAttempts snap.job.state.rank := by
  obtain ⟨db, row, hr, hl, hrow, hshows⟩ := h
  have hr' := components_reachable hr
  have hp : row.pendingOutcome = some o := hshows.pending.symm.trans hpending
  have hparked := (driven_invariant db hr' j row hrow).parked
    (shape_invariant _ db hr' j row hrow) (hshows.unleased hlease) (by rw [hp]; rfl)
  obtain ⟨row', hrow', hrests⟩ := hl.parked hr hrow hparked
  refine ⟨row', hrow', hrests.parked, hrests.pending.trans hp,
    hrests.attempts.trans hshows.attempts.symm, ?_⟩
  rw [hshows.job]
  exact hrests.rank

/-- Such a job is on its way past collection, or has ended. -/
theorem state (h : s.Saw m j snap) (hlease : snap.lease = none)
    (hpending : snap.pendingOutcome.isSome = true)
    (hstate : snap.job.state ≠ .collectingArtifacts) :
    JobState.cleaningUp.rank ≤ snap.job.state.rank := by
  obtain ⟨db, row, hr, _, hrow, hshows⟩ := h
  have hr' := components_reachable hr
  have hparked := (driven_invariant db hr' j row hrow).parked
    (shape_invariant _ db hr' j row hrow) (hshows.unleased hlease) (hshows.pending ▸ hpending)
  rw [hshows.job] at hstate ⊢
  show JobState.cleaningUp.rank ≤ row.state.rank
  rcases hparked.state with hcollecting | hcleaning | hend
  · exact absurd hcollecting hstate
  · rw [hcleaning]
  · cases hs : row.state <;> rw [hs] at hend <;> first | decide | cases hend

/-- A job that waits to end as `infra_failed` is marked. -/
theorem marked (h : s.Saw m j snap) (hlease : snap.lease = none)
    (hpending : snap.pendingOutcome = some .infraFailed)
    (hlive : snap.job.state.isTerminal = false) : s.HasMarker j snap.deliveryAttempts := by
  obtain ⟨db, row, hr, hl, hrow, hshows⟩ := h
  rw [hshows.job] at hlive
  obtain ⟨e, he, hex⟩ := givenUp_invariant m db hr j row hrow (hshows.unleased hlease)
    (hshows.pending.symm.trans hpending) hlive
  obtain ⟨row', hrow', _, _, _, _, _, hsome⟩ := (marked_invariant m db hr).exhausted j e he hex
  obtain rfl := Option.some.inj (hrow.symm.trans hrow')
  obtain ⟨message, hmessage⟩ := Option.isSome_iff_exists.mp hsome
  obtain ⟨message', hmessage', _⟩ := hl.message hmessage
  exact ⟨message', by rw [hshows.attempts]; exact hmessage'⟩

end Cluster.Saw

/-! ## Settling -/

/-- A job that ended in another way than by giving it up is not marked. -/
theorem ended_unmarked {m : Nat} {db : Db} (hr : (components m).Reachable db) {j : JobId}
    {row : JobRow} (hrow : db.job? j = some row) (hend : row.state.isTerminal = true)
    (h : row.state ≠ .infraFailed ∨ row.workerId.isSome = true) : db.EndedUnmarked j := by
  refine ⟨row, hrow, hend, ?_⟩
  cases hm : db.message? (exhaustionEventKey j row.deliveryAttempts) with
  | none => rfl
  | some message =>
      exfalso
      obtain ⟨_, _, _, _, e, he, hex⟩ := (marked_invariant m db hr).marker j _ message hm
      obtain ⟨row', hrow', _, hworker, hpending, _⟩ :=
        (marked_invariant m db hr).exhausted j e he hex
      obtain rfl := Option.some.inj (hrow.symm.trans hrow')
      rcases h with hstate | hsome
      · have hshape := shape_invariant _ db (components_reachable hr) j row hrow
        rw [(hshape.terminal hend).2.1] at hpending
        cases hs : row.state <;> rw [hs] at hpending hstate <;>
          first | exact hstate rfl | cases hpending
      · rw [hworker] at hsome
        cases hsome

/-- A waiting job past its cleanup has ended. -/
theorem Cluster.Waits.ended {s : Cluster} {j : JobId} {o : JobOutcome} {attempts : Nat}
    (h : s.Waits j o attempts JobState.cleaningUp.rank)
    (hne : ∀ row, s.db.job? j = some row → row.state ≠ .cleaningUp) (target : JobState) :
    s.Waits j o attempts target.rank := by
  obtain ⟨row, hrow, hparked, hpending, hattempts, hrank⟩ := h
  refine ⟨row, hrow, hparked, hpending, hattempts, ?_⟩
  have hstate := hne row hrow
  cases hs : row.state <;> rw [hs] at hrank hstate <;>
    first
    | exact absurd rfl hstate
    | exact absurd hrank (by decide)
    | cases target <;> decide

/-- A job that waited for `cancelled` and has ended is settled. -/
theorem Cluster.Waits.settled {m : Nat} {strict : Bool} {s : Cluster}
    (hs : s.Sound m strict) {j : JobId} {attempts : Nat}
    (h : s.Waits j .cancelled attempts JobState.cancelled.rank) : s.db.Settled strict j := by
  obtain ⟨row, hrow, _, hpending, _, hrank⟩ := h
  have hend : row.state.isTerminal = true := by
    cases hstate : row.state <;> rw [hstate] at hrank <;>
      first | rfl | exact absurd hrank (by decide)
  refine (ended_unmarked hs.reachable hrow hend (Or.inl fun hstate => ?_)).settled strict
  have hshape := shape_invariant _ s.db (components_reachable hs.reachable) j row hrow
  rw [(hshape.terminal hend).2.1, hstate] at hpending
  cases hpending

/-! ## The finalizers -/

section Finalizers

variable {cfg : Config} {strict : Bool} {P : Cluster → Prop}
  [(discipline cfg strict).Stable P]

/-- **Finalizers.** An unfenced transition of a waiting job moves it to its target. -/
theorem finalizer_keeps {j : JobId} {source target : JobState} {evidence : TransitionEvidence}
    {payload : List (String × EventValue)} {o : JobOutcome} {attempts rank : Nat}
    (hissued : ∀ eventId,
      (Op.transitionJobState j source target evidence none payload eventId).Issued)
    (h : ∀ s, s.Sound cfg.maxRunAttempts strict → P s → s.Waits j o attempts rank)
    (hpayload : payload ∈ emptyQueuePayloads → attempts = 0) :
    Keeps cfg strict anyError P
      (Repository.transitionJobState j source target evidence none payload)
      fun _ s => s.Waits j o attempts target.rank := by
  refine Triple.seq runs_draw fun draw => ?_
  refine keeps_call _ (fun s hs hP => ⟨⟨hissued _, trivial, ?_, ?_⟩, rfl, ?_⟩) ?_
  · intro j' source' target' evidence' payload' eventId' hop row hrow
    cases hop
    obtain ⟨row', hrow', hparked, _, hattempts, _⟩ := h s hs hP
    obtain rfl := Option.some.inj (hrow.symm.trans hrow')
    exact ⟨hparked.lease, fun hmem => hattempts.trans (hpayload hmem)⟩
  · intro deadLetter headers key hop
    cases hop
  · intro id d hop
    cases hop
  · intro s t job s' hs hP hc hs' hl
    obtain ⟨row, hrow, hparked, hpending, hattempts, _⟩ := h s hs hP
    obtain ⟨row', hrow', hrests⟩ := hl.db.parked hs.reachable hrow hparked
    obtain ⟨row₀, _, _, _, _, hstored⟩ := transitionJobState_stores hc
    obtain rfl := Option.some.inj (hrow'.symm.trans hstored)
    exact ⟨_, hrow', hrests.parked, hrests.pending.trans hpending,
      hrests.attempts.trans hattempts, Nat.le_refl target.rank⟩

end Finalizers

end RunAnywhere
