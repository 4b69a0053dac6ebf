import RunAnywhere.Scheduler.Deliveries

/-!
# What a reconciliation pass keeps

The reconciler's recoveries, its unfenced transitions and its two ways to retire the source
of an exhausted job keep to the discipline: a job is finalized while it waits for it, and a
source goes after the marker of its job was published.
-/

namespace RunAnywhere

open Logic Machine

/-- The error is not one about a marker. -/
def ReconcilerError.Benign (e : ReconcilerError) : Prop :=
  ∀ eventKey, e ≠ .invalidExhaustionMarker eventKey

section Reconciler

variable {cfg : Config} {strict : Bool} {P : Cluster → Prop}
  [(discipline cfg strict).Stable P]

theorem recoverStaleJob_keeps (stale : StaleJob) :
    Keeps cfg strict anyError P (Repository.recoverStaleJob stale cfg.maxRunAttempts)
      anyState := by
  refine Triple.seq runs_draw fun draw => ?_
  refine keeps_call _ (fun s hs hP => ⟨⟨trivial, rfl, ?_, ?_⟩, rfl, ?_⟩)
    fun _ _ _ _ _ _ _ _ _ => trivial
  · intro j source target evidence payload eventId hop
    cases hop
  · intro deadLetter headers key hop
    cases hop
  · intro id d hop
    cases hop

theorem recoverAll_benign (stale : List StaleJob) :
    Keeps cfg strict ReconcilerError.Benign P (Reconciler.recoverAll cfg stale) anyState := by
  induction stale with
  | nil => exact .pure fun _ _ _ => trivial
  | cons stale rest ih =>
      refine .seq (.try_ (recoverStaleJob_keeps stale) fun _ _ _ h => nomatch h)
        fun disposition => ?_
      cases disposition with
      | requeued job => exact .bind nak_keeps.attempt fun _ => ih.pre fun _ _ hP => hP.1
      | finalizing job =>
          exact .seq (.lift (runs_access fun _ _ _ => trivial)) fun _ => ih
      | cancelling job =>
          exact .seq (.lift (runs_access fun _ _ _ => trivial)) fun _ => ih
      | lostRace => exact ih

/-- Runtimes are observed and reaped without a trace in the cluster. -/
theorem reconcileEach_runs (at_ : Time) (resources : List RuntimeResource)
    (remaining : List JobId) :
    Runs cfg strict P (Reconciler.reconcileEach cfg at_ resources remaining) anyState := by
  induction resources generalizing remaining with
  | nil => exact .done fun _ _ _ => trivial
  | cons resource rest ih =>
      have howner : Runs cfg strict P (Reconciler.runtimeOwnership resource) anyState := by
        refine Triple.seq (Keeps.runs snapshot_saw) fun out => ?_
        repeat' split
        all_goals exact .done fun _ _ _ => trivial
      refine Triple.seq howner fun ownership => ?_
      refine Triple.seq (runs_access fun _ _ _ => trivial) fun unsafeSince => ?_
      split
      · refine Triple.seq (runs_outside (.reap resource)) fun r => ?_
        split
        · exact Triple.seq (runs_access fun _ _ _ => trivial) fun _ => ih remaining
        · exact Triple.seq (runs_access fun _ _ _ => trivial) fun _ => ih remaining
        · exact ih _
        · exact ih _
      all_goals exact ih _

theorem reconcileRuntimes_keeps (at_ : Time) :
    Keeps cfg strict anyError P (Reconciler.reconcileRuntimes cfg at_) anyState := by
  have hlist : Runs cfg strict P (act (.outside .inventory)) anyState := runs_outside .inventory
  refine .seq (.try_ (hlist.keeps fun _ _ _ _ => trivial) fun _ _ => trivial) fun resources => ?_
  refine .seq (.lift (reconcileEach_runs at_ resources [])) fun remaining => ?_
  exact .seq (.lift (runs_access fun _ _ _ => trivial)) fun _ => .pure fun _ _ _ => trivial

/-- The sources of a cancelled job that has ended are acknowledged. -/
theorem acknowledgeCancelled_benign {j : JobId}
    (h : ∀ s, s.Sound cfg.maxRunAttempts strict → P s → s.db.Settled strict j) (rounds : Nat) :
    Keeps cfg strict ReconcilerError.Benign P (Reconciler.acknowledgeCancelled rounds j)
      anyState := by
  rw [acknowledgeCancelled_eq]
  refine .seq (.lift (runs_access fun _ _ _ => trivial)) fun lease? => ?_
  cases lease? with
  | none => exact .pure fun _ _ _ => trivial
  | some lease =>
      refine .bind (confirmAck_keeps h rounds).attempt fun r => ?_
      split
      · exact .lift runs_stop
      · exact .lift runs_stop
      · exact .pure fun _ _ _ => trivial

/-- The source of an exhausted job goes after its marker was published. -/
theorem retireExhausted_benign {snap : JobSchedulingSnapshot}
    (h : ∀ s, P s → s.HasMarker snap.job.id snap.deliveryAttempts) :
    Keeps cfg strict ReconcilerError.Benign P (Reconciler.retireExhausted cfg snap) anyState := by
  refine .seq (.lift runs_now) fun at_ => ?_
  refine .bind keeps_expect fun deadLetter => ?_
  refine .bind (.try_ (ensurePublished_keeps (fun s _ hP => ?_) _ _) fun _ _ _ h => nomatch h)
    fun _ => ?_
  · exact (h s hP.1).taken (JobDeadLetter.new_exhausted hP.2)
  · refine .seq (.lift (runs_access fun _ _ _ => trivial)) fun lease? => ?_
    cases lease? with
    | none => exact .pure fun _ _ _ => trivial
    | some lease =>
        refine .bind take_keeps.attempt fun r => ?_
        cases r with
        | ok b =>
            refine .try_ (retireDelivery_keeps fun s hs hP => ?_) fun _ _ _ h => nomatch h
            obtain ⟨⟨⟨_, hnew⟩, hpub⟩, hcanon⟩ := hP
            refine (hcanon b rfl).discardable (Or.inl ?_)
            exact (hpub _ (JobDeadLetter.new_exhausted hnew)).settled hs.reachable strict
        | error e => exact .pure fun _ _ _ => trivial

theorem finalizerTransition_benign {j : JobId} {source target : JobState} {o : JobOutcome}
    {cleanup : Bool} {payload : List (String × EventValue)} {attempts rank : Nat}
    (hedge : source = .collectingArtifacts ∧ target = .cleaningUp ∨
      source = .cleaningUp ∧ target.terminalOutcome = some o)
    (ho : o = .cancelled ∨ o = .infraFailed) (hpayload : payload ∉ emptyQueuePayloads)
    (h : ∀ s, P s → s.Waits j o attempts rank) :
    Keeps cfg strict ReconcilerError.Benign P
      (Reconciler.finalizerTransition j source target o cleanup payload)
      fun _ s => s.Waits j o attempts target.rank := by
  refine .bind (.try_ (finalizer_keeps (fun eventId => ⟨hedge, ?_⟩) (fun s _ hP => h s hP)
    fun hmem => absurd hmem hpayload) fun _ _ _ h => nomatch h) fun _ => ?_
  · rcases ho with rfl | rfl
    · exact Or.inl rfl
    · exact Or.inr rfl
  · exact .pure fun _ _ hP => hP.2

/-- The first half of a finalization takes a waiting job out of collection. -/
theorem collect_benign {j : JobId} {o : JobOutcome} {snap : JobSchedulingSnapshot}
    (ho : o = .cancelled ∨ o = .infraFailed) (hlease : snap.lease = none)
    (hpending : snap.pendingOutcome = some o)
    (h : ∀ s, P s → s.Saw cfg.maxRunAttempts j snap) :
    Keeps cfg strict ReconcilerError.Benign P (do
        if snap.job.state = .collectingArtifacts then
          Reconciler.finalizerTransition j .collectingArtifacts .cleaningUp o false
            [("finalizer", .text "confirmed_empty_or_unrecoverable")]
          match ← Reconciler.snapshot j with
          | some refreshed => pure refreshed
          | none => .lift stop
        else pure snap : TaskOr ReconcilerError JobSchedulingSnapshot)
      fun snap' s => snap'.job.id = j ∧ snap'.deliveryAttempts = snap.deliveryAttempts ∧
        s.Waits j o snap.deliveryAttempts JobState.cleaningUp.rank ∧
        (o = .infraFailed → snap'.job.state = .cleaningUp →
          s.HasMarker j snap.deliveryAttempts) := by
  have hmarked : ∀ s, P s → snap.job.state.isTerminal = false → o = .infraFailed →
      s.HasMarker j snap.deliveryAttempts := by
    intro s hP hlive hinfra
    subst hinfra
    exact (h s hP).marked hlease hpending hlive
  split
  · next hstate =>
      refine .bind (finalizerTransition_benign (Or.inl ⟨rfl, rfl⟩) ho (by decide)
        fun s hP => (h s hP).waits hlease hpending) fun _ => ?_
      refine .bind (.try_ (snapshot_reads (R := fun out s => ∀ snap', out = some snap' →
        s.Saw cfg.maxRunAttempts j snap' ∧ snap'.deliveryAttempts = snap.deliveryAttempts)
        (fun _ _ _ _ snap' hout => by cases hout) ?_) fun _ _ _ h => nomatch h) fun out => ?_
      · intro s snap' row hs _ hP hrow hshows snap'' hout
        cases hout
        refine ⟨hs.saw hrow hshows, ?_⟩
        -- the job is parked: its attempts stay
        obtain ⟨row', hrow', _, _, hattempts, _⟩ := hP.2
        obtain rfl := Option.some.inj (hrow.symm.trans hrow')
        rw [hshows.attempts, hattempts]
      · cases out with
        | none => exact .lift runs_stop
        | some refreshed =>
            refine .pure fun s _ hs => ?_
            obtain ⟨⟨hP, hwaits⟩, hread⟩ := hs
            obtain ⟨hsaw, hattempts⟩ := hread refreshed rfl
            exact ⟨hsaw.id, hattempts, hwaits,
              fun hinfra _ => hmarked s hP (by rw [hstate]; rfl) hinfra⟩
  · next hstate =>
      refine .pure fun s _ hP => ⟨(h s hP).id, rfl, ?_, fun hinfra hcleaning => ?_⟩
      · obtain ⟨row, hrow, hparked, hp, hattempts, hrank⟩ := (h s hP).waits hlease hpending
        have hbeyond := (h s hP).state hlease (by rw [hpending]; rfl) hstate
        exact ⟨row, hrow, hparked, hp, hattempts, Nat.le_trans hbeyond hrank⟩
      · exact hmarked s hP (by rw [hcleaning]; rfl) hinfra

/-- A job is finalized while it waits for it. -/
theorem finalizeJob_benign (rounds : Nat) (j : JobId) :
    Keeps cfg strict ReconcilerError.Benign P (Reconciler.finalizeJob cfg rounds j) anyState := by
  refine .bind (.try_ snapshot_saw fun _ _ _ h => nomatch h) fun out => ?_
  cases out with
  | none => exact .pure fun _ _ _ => trivial
  | some snap =>
      simp only
      split
      · next outcome hlease hpending =>
          cases outcome with
          | cancelled =>
              refine .bind (collect_benign (Or.inl rfl) hlease hpending
                fun s hP => hP.2 snap rfl) fun snap' => ?_
              split
              · exact .pure fun _ _ _ => trivial
              · refine .bind (finalizerTransition_benign (Or.inr ⟨rfl, rfl⟩) (Or.inl rfl)
                  (by decide) fun s hP => hP.2.2.2.1) fun _ => ?_
                refine .seq (acknowledgeCancelled_benign (fun s hs hP => ?_) rounds)
                  fun _ => .pure fun _ _ _ => trivial
                exact hP.2.settled hs
          | infraFailed =>
              refine .bind (collect_benign (Or.inr rfl) hlease hpending
                fun s hP => hP.2 snap rfl) fun snap' => ?_
              split
              · exact .pure fun _ _ _ => trivial
              · next hcleaning =>
                refine .bind (finalizerTransition_benign (Or.inr ⟨rfl, rfl⟩) (Or.inr rfl)
                  (by decide) fun s hP => hP.2.2.2.1) fun _ => ?_
                refine .seq (retireExhausted_benign fun s hP => ?_)
                  fun _ => .pure fun _ _ _ => trivial
                obtain ⟨⟨_, hid, hattempts, _, hmarker⟩, _⟩ := hP
                rw [hid, hattempts]
                exact hmarker rfl (not_not.mp hcleaning)
          | passed | failed | timedOut => exact .pure fun _ _ _ => trivial
      · exact .pure fun _ _ _ => trivial

theorem finalizeAll_benign (rounds : Nat) (runtimeJobs : List JobId) (ids : List JobId)
    (finalized : Nat) :
    Keeps cfg strict ReconcilerError.Benign P
      (Reconciler.finalizeAll cfg rounds runtimeJobs ids finalized) anyState := by
  induction ids generalizing finalized with
  | nil => exact .pure fun _ _ _ => trivial
  | cons j rest ih =>
      unfold Reconciler.finalizeAll
      split
      · exact ih finalized
      · exact .seq (finalizeJob_benign rounds j) fun done => ih _

theorem finalizeReadyJobs_benign (rounds : Nat) (runtimeJobs : List JobId) :
    Keeps cfg strict ReconcilerError.Benign P
      (Reconciler.finalizeReadyJobs cfg rounds runtimeJobs) anyState := by
  refine .seq (.try_ (keeps_query (R := anyState) (.finalizableJobs Reconciler.batch)
    fun _ _ _ _ _ _ _ => trivial) fun _ _ _ h => nomatch h) fun ids => ?_
  exact finalizeAll_benign rounds runtimeJobs ids 0

/-- The source of a job whose marker is published goes. -/
theorem retireMarked_benign {j : JobId} {lease : LeaseGuard} {α : Type}
    {rest : TaskOr ReconcilerError α} {Q : α → Cluster → Prop} (h : ∀ s, P s → s.db.Settled strict j)
    (hrest : Keeps cfg strict ReconcilerError.Benign P rest Q) :
    Keeps cfg strict ReconcilerError.Benign P (do
        match ← (AckRegistry.take j lease.workerId lease.leaseId).attempt with
        | .ok b => .try_ (Dlq.retireDelivery b) .dlq
        | .error _ => pure ()
        let _ ← act (.memory (.exhaustedRemove j))
        rest : TaskOr ReconcilerError α) Q := by
  have hremove : Keeps cfg strict ReconcilerError.Benign P
      (do let _ ← act (.memory (.exhaustedRemove j)); rest) Q :=
    .seq (.lift (runs_access fun _ _ _ => trivial)) fun _ => hrest
  refine .bind take_keeps.attempt fun r => ?_
  split
  · next b =>
      refine .seq (.try_ (retireDelivery_keeps fun s _ hP => ?_) fun _ _ _ h => nomatch h)
        fun _ => hremove.pre fun _ _ hP => hP.1
      exact (hP.2 b rfl).discardable (Or.inl (h s hP.1))
  · exact hremove.pre fun _ _ hP => hP.1

/-- What is under a marker key is a marker, and a published one settles its job. -/
theorem retireAll_benign (pending : List (JobId × LeaseGuard)) :
    Keeps cfg strict ReconcilerError.Benign P (Reconciler.retireAll cfg pending) anyState := by
  induction pending with
  | nil => exact .pure fun _ _ _ => trivial
  | cons head rest ih =>
      obtain ⟨j, lease⟩ := head
      refine .seq (.try_ (snapshot_saw.conseq (fun _ _ hP => hP) fun _ _ _ _ => trivial)
        fun _ _ _ h => nomatch h) fun out => ?_
      cases out with
      | none => exact ih
      | some snap =>
          simp only
          split
          · exact ih
          · refine .bind (.try_ (outboxMessage_keeps (R := fun out s => ∀ marker,
              out = some marker → isMatchingExhaustionMarker marker j snap.deliveryAttempts = true ∧
                (marker.publishedAt.isSome = true → s.db.Settled strict j)) ?_)
              fun _ _ _ h => nomatch h) fun out => ?_
            · intro s hs _ marker hout
              obtain ⟨row, hrow, rfl⟩ := Option.map_eq_some_iff.mp hout
              have hmatch := ((marked_invariant _ s.db hs.reachable).marker j _ row hrow).1
              refine ⟨hmatch, fun hpublished => ?_⟩
              exact Db.Published.settled hs.reachable ⟨row, hrow, hpublished⟩ strict
            · cases out with
              | none => exact ih.pre fun _ _ hP => hP.1
              | some marker =>
                  simp only
                  split
                  · next hmatch =>
                      refine keeps_absurd fun s _ hP => ?_
                      rw [(hP.2 marker rfl).1] at hmatch
                      cases hmatch
                  · split
                    · exact ih.pre fun _ _ hP => hP.1
                    · next hpublished =>
                        have hsome : marker.publishedAt.isSome = true := by
                          cases hm : marker.publishedAt with
                          | none => exact absurd (by rw [hm]; rfl) hpublished
                          | some _ => rfl
                        exact retireMarked_benign (fun s hP => (hP.2 marker rfl).2 hsome)
                          (ih.pre fun _ _ hP => hP.1)

theorem retirePublishedExhausted_benign :
    Keeps cfg strict ReconcilerError.Benign P (Reconciler.retirePublishedExhausted cfg)
      anyState :=
  .seq (.lift (runs_access fun _ _ _ => trivial)) fun pending => retireAll_benign pending

/-- **Reconciliation passes** keep to the discipline and report no invalid marker. -/
theorem runOnce_benign (rounds : Nat) :
    Keeps cfg strict ReconcilerError.Benign P (Reconciler.runOnce cfg rounds) anyState := by
  have hstale (criteria : StaleJobCriteria) :
      Keeps cfg strict anyError P (Repository.findStaleJobs criteria) anyState :=
    keeps_query (.staleJobs criteria) fun _ _ _ _ _ _ _ => trivial
  have hsessions : Runs cfg strict P (act (.outside .endDebugSessions)) anyState :=
    runs_outside .endDebugSessions
  refine .seq (.lift runs_now) fun at_ => ?_
  refine .seq (.try_ (hstale _) fun _ _ _ h => nomatch h) fun stale => ?_
  refine .seq (recoverAll_benign stale) fun _ => ?_
  refine .seq ((reconcileRuntimes_keeps at_).attempt.conseq (fun _ _ hP => hP)
    fun _ _ _ _ => trivial) fun inventory => ?_
  extract_lets rest
  have hrest : ∀ u, Keeps cfg strict ReconcilerError.Benign P (rest u) anyState := by
    intro u
    refine .seq (.try_ (hsessions.keeps fun _ _ _ _ => trivial) fun _ _ _ h => nomatch h)
      fun _ => ?_
    refine .seq (.try_ (publishReady_keeps cfg.dispatcherId) fun _ _ _ h => nomatch h)
      fun _ => ?_
    exact retirePublishedExhausted_benign
  cases inventory with
  | ok runtimeJobs => exact .seq (finalizeReadyJobs_benign rounds runtimeJobs) fun _ => hrest ()
  | error error => exact hrest ()

end Reconciler

end RunAnywhere
