import RunAnywhere.Scheduler.Delivery

/-!
# A cancelled job stays cancelled

A pending cancellation is the one outcome no call replaces: results and transitions
must agree with it, and recovery keeps it and sends the job to the finalizer instead of
the queue. What follows of the row holds in every continuation, whoever finalizes it.
-/

namespace RunAnywhere

open Logic

/-- Job `j` has a cancellation pending, or ended in it. -/
def Db.Cancelling (db : Db) (j : JobId) : Prop :=
  ∃ row, db.job? j = some row ∧ row.pendingOutcome = some .cancelled

/-- **One step.** A pending cancellation stays. -/
theorem Db.Cancelling.step {Allowed : Op → Prop} {db db' : Db} {call : Call} {j : JobId}
    (h : db.Cancelling j) (hreach : (repository Allowed).Reachable db)
    (hstep : (repository Allowed).step db call db') : db'.Cancelling j := by
  obtain ⟨row, hrow, hp⟩ := h
  rcases repository_step_rows hstep j with ⟨hsame, _⟩ | ⟨new, hnew, hchange⟩
  · exact ⟨row, hsame.trans hrow, hp⟩
  · rw [hrow] at hchange
    rcases hchange.pendingOutcome (shape_invariant Allowed db hreach j row hrow) hp with
      hkeep | hreplaced
    · exact ⟨new, hnew, hkeep⟩
    · exact absurd rfl hreplaced.notCancelled

/-- **Run.** A pending cancellation stays in every continuation. -/
theorem Db.Cancelling.run {Allowed : Op → Prop} {db db' : Db} {calls : List Call} {j : JobId}
    (h : db.Cancelling j) (hreach : (repository Allowed).Reachable db)
    (hrun : (repository Allowed).Run db calls db') : db'.Cancelling j :=
  hrun.preserves (fun _ _ _ hs hc hstep => Db.Cancelling.step hc hs hstep) hreach h

/-- A cancellation that committed leaves a cancellation pending. -/
theorem requestJobCancellation_cancelling {j : JobId} {eventId : JobEventId} {t : DbTime}
    {db db' : Db} {out : JobMutation}
    (h : (requestJobCancellation j eventId t).Commits db out db') : db'.Cancelling j := by
  obtain ⟨row, hrow, _, hcase⟩ := requestJobCancellation_commits h
  rcases hcase with ⟨hp, _, rfl⟩ | ⟨hc, _, _, _, _, _, _, hjobs, _⟩
  · exact ⟨row, hrow, hp⟩
  · refine ⟨row.cancelRequested, ?_, rfl⟩
    unfold Db.job?
    rw [hjobs]
    exact Table.row?_put_self _ _ _ _

/-! ## What a pending cancellation rules out -/

/-- A claim of a job outside the queue fails and changes nothing. -/
theorem claim_not_queued {db : Db} {j : JobId} {row : JobRow} (hrow : db.job? j = some row)
    (hq : row.state ≠ .queued) (w : WorkerId) (l : LeaseId) (expires : Time)
    (options : ClaimJobOptions) (eventId : JobEventId) (t : DbTime) :
    ∃ e, (claimJobWithOptions j w l expires options eventId t).exec db = (.error e, db) := by
  rcases Tx.exec_cases (claimJobWithOptions j w l expires options eventId t) db with
    ⟨claim, db', hc, _⟩ | ⟨e, _, he⟩
  · obtain ⟨row', _, _, _, hrow', hqueued, _⟩ := claimJobWithOptions_commits hc
    obtain rfl := Option.some.inj (hrow.symm.trans hrow')
    exact absurd hqueued hq
  · exact ⟨e, he⟩

/-- A heartbeat does not extend the lease of a job with a pending outcome, and leaves
its row. -/
theorem heartbeat_pending {db db' : Db} {j : JobId} {row : JobRow} {o : JobOutcome}
    (hrow : db.job? j = some row) (hp : row.pendingOutcome = some o) {heartbeat : WorkerHeartbeat}
    {leaseTtl : Int} {t : DbTime} {receipt : HeartbeatReceipt}
    (h : (recordHeartbeat heartbeat leaseTtl t).Commits db receipt db') :
    (∀ l, ⟨j, l⟩ ∉ receipt.extended) ∧ db'.job? j = some row := by
  obtain ⟨_, _, _, _, _, rfl, _, _, hreceipt, hjobs⟩ := recordHeartbeat_commits h
  have hguard : ∀ l, extendGuard heartbeat.workerId l t.clock row = false := by
    intro l
    by_contra hg
    have hnone := (extendGuard_iff.mp (Bool.not_eq_false _ |>.mp hg)).2.2.2.1
    rw [hp] at hnone
    cases hnone
  refine ⟨fun l hmem => ?_, ?_⟩
  · rw [hreceipt.extended, List.mem_filter] at hmem
    have hout := of_decide_eq_true hmem.2
    simp only [hrow, extensionOutcome, Option.any_some, hguard, Bool.false_eq_true, if_false] at hout
    split at hout <;> cases hout
  · have hx : extendable heartbeat.workerId t.clock heartbeat.leaseExtends j row = false := by
      by_contra hx
      obtain ⟨e, _, _, hg⟩ := extendable_iff.mp (Bool.not_eq_false _ |>.mp hx)
      rw [hguard] at hg
      cases hg
    rw [hjobs, hrow]
    simp [JobRow.afterHeartbeat, hx]

/-- A delivery of a job with a pending outcome is not buffered. -/
theorem classifyCanonicalDelivery_pending {snap : JobSchedulingSnapshot} {o : JobOutcome}
    (hp : snap.pendingOutcome = some o) (queued : JobQueued) (now : Time) (lane : PriorityLane) :
    classifyCanonicalDelivery queued snap now ≠ .buffer lane := by
  unfold classifyCanonicalDelivery
  intro h
  split at h
  · cases h
  split at h
  · cases h
  split at h
  · cases h
  split at h
  · split at h <;> cases h
  · split at h
    · next hbuffer =>
        rw [hp] at hbuffer
        cases hbuffer.2.1
    · cases h

/-- A repeated cancellation answers with the job as it is, or with a conflict if the job
has ended; nothing changes. -/
theorem requestJobCancellation_again {db : Db} {j : JobId} {row : JobRow}
    (hrow : db.job? j = some row) (hp : row.pendingOutcome = some .cancelled)
    (eventId : JobEventId) (t : DbTime) :
    (requestJobCancellation j eventId t).exec db =
      (if row.state.isTerminal then .error (.conflict "cannot cancel a terminal job")
        else .ok ⟨row.intoJob j, false, none⟩, db) := by
  have hlock : (lockJob j).Commits db (some row) db := lockJob_commits.mpr ⟨hrow, rfl⟩
  have hfound : (Tx.okOr (some row) (.notFound "job" j.val) : RepoTx JobRow).Commits db row db :=
    Tx.okOr_commits.mpr ⟨rfl, rfl⟩
  have hstart : requestJobCancellation j eventId t db = (do
      .require (!row.state.isTerminal) (.conflict "cannot cancel a terminal job")
      pure ⟨row.intoJob j, false, none⟩ : RepoTx JobMutation) db := by
    unfold requestJobCancellation
    rw [Tx.bind_of_commits hlock, Tx.bind_of_commits hfound, hp]
  unfold Tx.exec
  rw [hstart]
  cases row.state.isTerminal <;> rfl

/-- **Cancelled for good.** Once a cancellation of job `j` has committed, in every
continuation: the cancellation is pending, the job is never in the queue and cannot be
claimed, no delivery of it is buffered, no heartbeat extends its lease, it ends as
cancelled if it ends, and cancelling it again changes nothing. -/
theorem cancelled_for_good (Allowed : Op → Prop) {db₀ db₁ db : Db} {j : JobId}
    {eventId : JobEventId} {t : DbTime} {out : JobMutation} {calls : List Call}
    (hreach : (repository Allowed).Reachable db₀)
    (hcancel : (repository Allowed).step db₀ ⟨.requestJobCancellation j eventId, t, .ok out⟩ db₁)
    (hrun : (repository Allowed).Run db₁ calls db) :
    ∃ row, db.job? j = some row ∧ row.pendingOutcome = some .cancelled ∧ row.state ≠ .queued ∧
      (row.state.isTerminal = true → row.state = .cancelled ∧ row.outcome = some .cancelled) ∧
      (∀ w l expires options eventId t, ∃ e,
        (claimJobWithOptions j w l expires options eventId t).exec db = (.error e, db)) ∧
      (∀ snap db', (getJobSchedulingSnapshot j).Commits db (some snap) db' →
        ∀ queued now lane, classifyCanonicalDelivery queued snap now ≠ .buffer lane) ∧
      (∀ heartbeat leaseTtl t receipt db',
        (recordHeartbeat heartbeat leaseTtl t).Commits db receipt db' →
        (∀ l, ⟨j, l⟩ ∉ receipt.extended) ∧ db'.job? j = some row) ∧
      ∀ eventId t, (requestJobCancellation j eventId t).exec db =
        (if row.state.isTerminal then .error (.conflict "cannot cancel a terminal job")
          else .ok ⟨row.intoJob j, false, none⟩, db) := by
  have hc : (requestJobCancellation j eventId t).Commits db₀ out db₁ :=
    Tx.commits_of_exec hcancel.2
  have hreach₁ : (repository Allowed).Reachable db₁ := .step hreach hcancel
  obtain ⟨row, hrow, hp⟩ := (requestJobCancellation_cancelling hc).run hreach₁ hrun
  have hshape := shape_invariant Allowed db (hreach₁.run hrun) j row hrow
  have hq : row.state ≠ .queued := by
    intro hq
    rw [(hshape.queued hq).2.2.1] at hp
    cases hp
  refine ⟨row, hrow, hp, hq, fun ht => ?_, claim_not_queued hrow hq, ?_, ?_,
    requestJobCancellation_again hrow hp⟩
  · obtain ⟨hout, hpending, _⟩ := hshape.terminal ht
    rw [hp] at hpending
    refine ⟨?_, hout.trans hpending.symm⟩
    cases hs : row.state <;> rw [hs] at hpending <;> first | rfl | cases hpending
  · intro snap db' hsnap queued now lane
    obtain ⟨row', hrow', hshows⟩ := (getJobSchedulingSnapshot_commits hsnap).2 snap rfl
    obtain rfl := Option.some.inj (hrow.symm.trans hrow')
    exact classifyCanonicalDelivery_pending (hshows.pending.trans hp) queued now lane
  · intro heartbeat leaseTtl t receipt db' hbeat
    exact heartbeat_pending hrow hp hbeat

/-- A claimed job is cancelled, and its abandoned lease is recovered: the job is on its
way to the finalizer. -/
theorem cancelled_for_good_recovered :
    let cancel : Op := .requestJobCancellation Sample.job (Sample.event 2)
    let db₁ := ((cancel.tx (Sample.at_ 4)).exec (Sample.after Sample.claimed)).2
    let db := db₁.replay [(Sample.recover .collectingArtifacts 3 3, Sample.at_ 250)]
    ∃ row, db.job? Sample.job = some row ∧ row.pendingOutcome = some .cancelled ∧
      row.state ≠ .queued := by
  intro cancel db₁ db
  have hreach : (repository fun _ => True).Reachable (Sample.after Sample.claimed) :=
    Sample.after_reachable fun _ _ => trivial
  have hok : ((cancel.tx (Sample.at_ 4)).exec (Sample.after Sample.claimed)).1.isOk = true := by
    decide +kernel
  obtain ⟨calls, _, hrun⟩ := @Db.replay_run (fun _ => True)
    [(Sample.recover .collectingArtifacts 3 3, Sample.at_ 250)] (fun _ _ => trivial) db₁
  cases hans : ((cancel.tx (Sample.at_ 4)).exec (Sample.after Sample.claimed)).1 with
  | error e => rw [hans] at hok; cases hok
  | ok out =>
      have hstep := @repository_step_answer (fun _ => True) cancel trivial _ _ _ hans
      obtain ⟨row, hrow, hp, hq, _⟩ := cancelled_for_good (fun _ => True) hreach hstep hrun
      exact ⟨row, hrow, hp, hq⟩

end RunAnywhere
