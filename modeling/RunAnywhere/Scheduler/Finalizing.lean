import Mathlib.Data.String.Basic
import RunAnywhere.Logic.Ordered
import RunAnywhere.Logic.Trace
import RunAnywhere.Repository.Failures
import RunAnywhere.Scheduler.Discipline
import RunAnywhere.Scheduler.Finalizers

/-!
# The two halves of a pass

A pass of the reconciler first recovers stale leases and looks at the runtimes, then it
finalizes jobs and does the rest (`runOnce_eq`):

* **calls** — `Action.succeeds`: what a pass asks of the outside is answered; a transition
  may be refused by the database;
* **one job** — alone with the database the finalizer ends the job if it is on the finalizer
  path without a lease, and leaves it as it was otherwise (`finalizeJob_alone`);
* **the loop** — it does so with every job it was given that keeps no runtime
  (`finalizeAll_alone`), and nothing after it touches a job (`conclude_alone`).
-/

namespace RunAnywhere

open Logic Prog

/-! ## The program -/

theorem Prog.bind_assoc {α β γ : Type} (p : Task α) (f : α → Task β) (g : β → Task γ) :
    (p >>= f) >>= g = p >>= fun a => f a >>= g := by
  induction p with
  | done a => rfl
  | act x k ih =>
      show Prog.act x _ = Prog.act x _
      congr 1
      funext r
      exact ih r

theorem Routine.bind_assoc {ε α β γ : Type} (p : TaskOr ε α) (f : α → TaskOr ε β)
    (g : β → TaskOr ε γ) : (p >>= f) >>= g = p >>= fun a => f a >>= g := by
  refine (Prog.bind_assoc (α := Except ε α) p _ _).trans ?_
  show Prog.bind p _ = Prog.bind p _
  congr 1
  funext r
  cases r with
  | ok a => rfl
  | error e => rfl

namespace Reconciler

/-- A pass up to the inventory and the removals: the jobs that keep a runtime. -/
def survey (cfg : Config) : TaskOr ReconcilerError (Except String (List JobId)) := do
  let at_ ← now
  let staleJobs ← .try_ (Repository.findStaleJobs
    ⟨at_, at_ - (cfg.timing.staleWorkerThreshold : Int), batch⟩) .repository
  recoverAll cfg staleJobs
  (reconcileRuntimes cfg at_).attempt

/-- What a pass does after the finalizable jobs. -/
def wrapUp (cfg : Config) : TaskOr ReconcilerError Unit := do
  let _ ← .try_ (act (.outside .endDebugSessions)) .repository
  let _ ← .try_ (Dlq.publishReady cfg.dispatcherId) .dlq
  retirePublishedExhausted cfg

/-- A pass after the inventory. -/
def conclude (cfg : Config) (rounds : Nat) :
    Except String (List JobId) → TaskOr ReconcilerError Unit
  | .ok runtimeJobs => do
      let _ ← finalizeReadyJobs cfg rounds runtimeJobs
      wrapUp cfg
  | .error _ => wrapUp cfg

end Reconciler

theorem runOnce_eq (cfg : Config) (rounds : Nat) : Reconciler.runOnce cfg rounds =
    (Reconciler.survey cfg >>= Reconciler.conclude cfg rounds) := by
  unfold Reconciler.survey
  simp only [Routine.bind_assoc]
  rfl

/-! ## Calls -/

/-- What a pass asks for is answered: queries and calls, the inventory, the audit of debug
sessions. The database may refuse a transition. -/
def Action.succeeds : (x : Action) → x.Res → Bool
  | .query _, r => r.isOk
  | .call (.transitionJobState _ _ _ _ _ _ _), r =>
      match r with
      | .error (.sqlx _) => false
      | _ => true
  | .call _, r => r.isOk
  | .outside .inventory, r => r.isOk
  | .outside .endDebugSessions, r => r.isOk
  | _, _ => true

/-- The action is performed with nothing else running, and succeeds. -/
def Unhindered (cfg : Config) (s : Cluster) (x : Action) (r : x.Res) (s' : Cluster) : Prop :=
  (machine cfg).Exec s x r s' ∧ x.succeeds r = true

section Calls

variable {cfg : Config} {s s' : Cluster} {x : Action} {j : JobId}

theorem StreamCall.run_db (s : Cluster) (c : Choice) (x : StreamCall) :
    (x.run s c).2.db = s.db := by
  have hexchange (fate : Fate) (f : WorkQueue → WorkQueue) : (s.exchange fate f).db = s.db := by
    unfold Cluster.exchange
    split
    · rfl
    · rfl
  cases x with
  | publish m => exact hexchange _ _
  | publishDead m => rfl
  | doubleAck n => exact hexchange _ _
  | term n => exact hexchange _ _
  | progress n => rfl
  | nak n => rfl
  | deleteMessage n =>
      simp only [StreamCall.run]
      split
      · exact hexchange _ _
      · split
        · exact hexchange _ _
        · rfl
  | getRawMessage n =>
      simp only [StreamCall.run]
      split
      · split
        · split
          · rfl
          · rfl
        · rfl
      · rfl

/-- An action leaves job `j` alone, or is a call that changes its row. -/
theorem exec_job {r : x.Res} (h : (machine cfg).Exec s x r s') (j : JobId) :
    s'.db.job? j = s.db.job? j ∨ ∃ op t row, x = .call op ∧ s'.db.job? j = some row ∧
      RowChange op t j (s.db.job? j) row := by
  cases x with
  | query q =>
      obtain ⟨rfl, _⟩ := exec_query h
      exact Or.inl rfl
  | call op =>
      rcases exec_call h with ⟨rfl, _⟩ | ⟨t, answer, hexec, _⟩
      · exact Or.inl rfl
      · obtain ⟨hexec, _⟩ := execute_eq hexec
        rcases Tx.exec_cases (op.tx t) s.db with ⟨out, db', hc, he⟩ | ⟨e, _, he⟩
        · obtain rfl := (Prod.mk.inj (he.symm.trans hexec)).2
          rcases Op.rows hc j with ⟨hsame, _⟩ | ⟨row, hrow, hchange⟩
          · exact Or.inl hsame
          · exact Or.inr ⟨op, t, row, rfl, hrow, hchange⟩
        · rw [← (Prod.mk.inj (he.symm.trans hexec)).2]
          exact Or.inl rfl
  | stream y =>
      obtain ⟨c, hrun⟩ := exec_stream h
      have hdb : (y.run s c).2.db = s.db := StreamCall.run_db s c y
      rw [hrun] at hdb
      exact Or.inl (congrArg (Db.job? · j) hdb)
  | memory y =>
      obtain ⟨_, rfl⟩ := exec_memory h
      exact Or.inl rfl
  | outside y =>
      obtain rfl := exec_outside h
      exact Or.inl rfl
  | stop => exact nomatch r

/-- An action aside touches no job. -/
theorem exec_aside {r : x.Res} (h : (machine cfg).Exec s x r s') (hx : x.Aside) (j : JobId) :
    s'.db.job? j = s.db.job? j := by
  rcases exec_job h j with hsame | ⟨op, t, row, rfl, _, hchange⟩
  · exact hsame
  · generalize s.db.job? j = old at hchange
    cases hchange with
    | create | cancel | claim | transition | result | heartbeat | recover => cases hx

end Calls

/-! ## Up to the inventory -/

section Survey

variable {E : ReconcilerError → Prop}

/-- A query of the pass is answered. -/
theorem query_fails (q : Query) :
    Fails (fun x r => x.succeeds r = true) E (.try_ (act (.query q)) .repository) := by
  refine .try_ fun r hr e he => ?_
  subst he
  cases hr

theorem recoverStaleJob_fails (stale : StaleJob) (m : Nat) :
    Fails (fun x r => x.succeeds r = true) E
      (.try_ (Repository.recoverStaleJob stale m) .repository) := by
  refine .try_ (.bind (Ends.trivial _) fun d _ r hr e he => ?_)
  subst he
  cases hr

theorem recoverAll_fails (cfg : Config) (stale : List StaleJob) :
    Fails (fun x r => x.succeeds r = true) E (Reconciler.recoverAll cfg stale) := by
  induction stale with
  | nil => exact .pure ()
  | cons stale rest ih =>
      refine .andThen (recoverStaleJob_fails stale _) fun disposition => ?_
      cases disposition with
      | requeued job => exact .andThen (.attempt _) fun _ => ih
      | finalizing job => exact .andThen (.lift _) fun _ => ih
      | cancelling job => exact .andThen (.lift _) fun _ => ih
      | lostRace => exact ih

theorem reconcileRuntimes_fails {E : String → Prop} (cfg : Config) (at_ : Time) :
    Fails (fun x r => x.succeeds r = true) E (Reconciler.reconcileRuntimes cfg at_) := by
  refine .andThen (.try_ fun r hr e he => ?_) fun resources => ?_
  · subst he
    cases hr
  · exact .andThen (.lift _) fun _ => .andThen (.lift _) fun _ => .pure _

/-- **Up to the inventory.** When its calls succeed a pass comes to the finalizable jobs. -/
theorem survey_ends (cfg : Config) : Ends (fun (x : Action) r => x.succeeds r = true)
    (fun r => ∃ kept, r = .ok (.ok kept)) (Reconciler.survey cfg) := by
  refine Fails.ends (.lift _) fun at_ => Fails.ends (query_fails _) fun stale => ?_
  refine Fails.ends (recoverAll_fails cfg stale) fun _ => ?_
  have hruntimes : Fails (fun x r => x.succeeds r = true) (fun _ => False)
      (Reconciler.reconcileRuntimes cfg at_) := reconcileRuntimes_fails cfg at_
  refine Ends.bind (p := Reconciler.reconcileRuntimes cfg at_) hruntimes fun r hr => ?_
  cases r with
  | ok kept => exact ⟨kept, rfl⟩
  | error e => exact absurd rfl (hr e)

end Survey

/-! ## One job -/

/-- The job is on the finalizer path of the leader: it collects or cleans up, without a lease,
towards an outcome of the leader. -/
def JobRow.Finalizable (row : JobRow) : Prop :=
  (row.state = .collectingArtifacts ∨ row.state = .cleaningUp) ∧ row.leaseId = none ∧
    (row.pendingOutcome = some .cancelled ∨ row.pendingOutcome = some .infraFailed)

def Db.Finalizable (db : Db) (j : JobId) : Prop := ∃ row, db.job? j = some row ∧ row.Finalizable

/-- The job is terminal. -/
def Db.Ended (db : Db) (j : JobId) : Prop :=
  ∃ row, db.job? j = some row ∧ row.state.isTerminal = true

/-- What the finalizer makes of job `j`: it ends the job if it is finalizable, and touches
nothing else. -/
structure Db.Finalizes (j : JobId) (db db' : Db) : Prop where
  others : ∀ k, k ≠ j → db'.job? k = db.job? k
  ends : db.Finalizable j → db'.Ended j
  spares : ¬ db.Finalizable j → db'.job? j = db.job? j

section Finalizer

variable {cfg : Config} {s s' : Cluster} {j : JobId} {steps : List Step}

/-- The finalizer's reading of a job. -/
theorem snapshot_alone {r : Except ReconcilerError (Option JobSchedulingSnapshot)}
    (h : (Reconciler.snapshot j).Trace (Unhindered cfg) s steps s' (.done r)) :
    s' = s ∧ ((r = .ok none ∧ s.db.job? j = none) ∨
      ∃ snap row, r = .ok (some snap) ∧ s.db.job? j = some row ∧ snap.Shows j row) := by
  obtain ⟨answer, rfl, hact⟩ := Trace.map_done h
  obtain ⟨⟨hexec, hok⟩, _⟩ := Trace.perform_done hact
  obtain ⟨rfl, hanswer⟩ := exec_query hexec
  refine ⟨rfl, ?_⟩
  cases answer with
  | error e => cases hok
  | ok out =>
      rcases hanswer with hread | hlost
      · generalize hexec : ((Query.schedulingSnapshot j none).tx.exec s'.db) = result at hread
        obtain ⟨a, db'⟩ := result
        subst hread
        obtain ⟨hnone, hsome⟩ := getJobSchedulingSnapshot_commits (Tx.commits_of_exec hexec)
        cases out with
        | none => exact Or.inl ⟨rfl, hnone rfl⟩
        | some snap =>
            obtain ⟨row, hrow, hshows⟩ := hsome snap rfl
            exact Or.inr ⟨snap, row, rfl, hrow, hshows⟩
      · cases hlost

/-- An edge of the finalizer is one call. -/
theorem finalizerTransition_done {σ : Type} {exec : σ → (x : Action) → x.Res → σ → Prop}
    {s s' : σ} {source target : JobState} {outcome : JobOutcome} {cleanup : Bool}
    {payload : List (String × EventValue)} {r : Except ReconcilerError Unit}
    (h : (Reconciler.finalizerTransition j source target outcome cleanup payload).Trace exec s
      steps s' (.done r)) :
    ∃ d s₁ answer, exec s (.outside .draw) d s₁ ∧
      exec s₁ (.call (.transitionJobState j source target ⟨some outcome, true, cleanup⟩ none
        payload d.eventId)) answer s' ∧
      r = (answer.mapError ReconcilerError.repository).map fun _ => () := by
  obtain ⟨d, s₁, _, hdraw, rfl, hcalls⟩ := Trace.act_done h
  obtain ⟨answer, s₂, _, hexec, rfl, hend⟩ := Trace.act_done hcalls
  cases answer with
  | ok job =>
      obtain ⟨rfl, rfl, hr⟩ := Trace.of_done hend
      exact ⟨d, s₁, _, hdraw, hexec, Prog.done.inj hr⟩
  | error e =>
      obtain ⟨rfl, rfl, hr⟩ := Trace.of_done hend
      exact ⟨d, s₁, _, hdraw, hexec, Prog.done.inj hr⟩

/-- An edge of the finalizer, on a row that stands at its source with its outcome. -/
theorem finalizerTransition_alone {source target : JobState} {outcome : JobOutcome}
    {cleanup : Bool} {payload : List (String × EventValue)} {r : Except ReconcilerError Unit}
    (h : (Reconciler.finalizerTransition j source target outcome cleanup payload).Trace
      (Unhindered cfg) s steps s' (.done r))
    (hvalid : validateTransition source target ⟨some outcome, true, cleanup⟩ = .ok ())
    {row : JobRow} (hrow : s.db.job? j = some row) (hstate : row.state = source)
    (hpending : row.pendingOutcome = some outcome) :
    r = .ok () ∧ (∃ t, s'.db.job? j =
      some (row.transitioned target ⟨some outcome, true, cleanup⟩ t)) ∧
      ∀ k, k ≠ j → s'.db.job? k = s.db.job? k := by
  obtain ⟨d, s₁, answer, hdraw, ⟨hexec, hsucceeds⟩, hr⟩ := finalizerTransition_done h
  have hok (e : SqlxError) : answer ≠ .error (.sqlx e) := by
    rintro rfl
    cases hsucceeds
  obtain rfl := exec_outside hdraw.1
  have hjobs (k : JobId) (hk : k ≠ j) : s'.db.job? k = s₁.db.job? k := by
    rcases exec_job hexec k with hsame | ⟨op, t, row', hop, _, hchange⟩
    · exact hsame
    · obtain rfl := Action.call.inj hop
      generalize s₁.db.job? k = old at hchange
      cases hchange with
      | transition => exact absurd rfl hk
  rcases exec_call hexec with ⟨_, hlost⟩ | ⟨t, answer', hcall, hanswer⟩
  · exact absurd hlost (hok _)
  obtain rfl : answer = answer' := hanswer.resolve_right (hok _)
  obtain ⟨hcall, _⟩ := execute_eq hcall
  have hguard : transitionGuard source ⟨some outcome, true, cleanup⟩ none t row = true :=
    transitionGuard_iff.mpr ⟨hstate, Or.inr (Or.inr hpending), fun _ hnone => nomatch hnone⟩
  rcases Tx.exec_cases _ s₁.db with ⟨out, db', hc, he⟩ | ⟨e, hfail, he⟩
  · obtain ⟨rfl, rfl⟩ := Prod.mk.inj (he.symm.trans hcall)
    obtain ⟨row', hrow', _, _, _, hstored⟩ := transitionJobState_stores hc
    obtain rfl := Option.some.inj (hrow.symm.trans hrow')
    exact ⟨hr, ⟨t, hstored⟩, hjobs⟩
  · obtain ⟨rfl, _⟩ := Prod.mk.inj (he.symm.trans hcall)
    obtain ⟨e', rfl⟩ := transitionJobState_sqlx _ _ hvalid hrow hguard e hfail
    exact absurd rfl (hok e')

/-- A part aside touches no job. -/
theorem aside_alone {α : Type} {p q : Task α} (hp : All Action.Aside p)
    (h : p.Trace (Unhindered cfg) s steps s' q) (k : JobId) : s'.db.job? k = s.db.job? k :=
  h.keeps (P := fun t => t.db.job? k = s.db.job? k) hp
    (fun _ _ _ _ hx hexec hsame => (exec_aside hexec.1 hx k).trans hsame) rfl

/-- The error is one of the dead-letter publisher. -/
def ReconcilerError.IsDlq (e : ReconcilerError) : Prop := ∃ e', e = .dlq e'

theorem acknowledgeCancelled_fails (φ : (x : Action) → x.Res → Prop) (rounds : Nat) (j : JobId) :
    Fails φ ReconcilerError.IsDlq (Reconciler.acknowledgeCancelled rounds j) := by
  rw [acknowledgeCancelled_eq]
  refine .andThen (.lift _) fun lease? => ?_
  cases lease? with
  | none => exact .pure ()
  | some lease =>
      refine .andThen (.attempt _) fun r => ?_
      split
      · exact .lift _
      · exact .lift _
      · exact .pure ()

theorem retireExhausted_fails (φ : (x : Action) → x.Res → Prop) (cfg : Config)
    (snap : JobSchedulingSnapshot) :
    Fails φ ReconcilerError.IsDlq (Reconciler.retireExhausted cfg snap) := by
  refine .andThen (.lift _) fun at_ => .andThen ?_ fun deadLetter => ?_
  · unfold expect
    split
    · exact .pure _
    · exact .lift _
  · refine .andThen (.try_of _ fun e => ⟨e, rfl⟩) fun _ => .andThen (.lift _) fun lease? => ?_
    cases lease? with
    | none => exact .pure ()
    | some lease =>
        refine .andThen (.attempt _) fun r => ?_
        cases r with
        | ok b => exact .try_of _ fun e => ⟨e, rfl⟩
        | error e => exact .pure ()

/-- The edges of the finalizer are valid. -/
theorem leader_edge {outcome : JobOutcome} (h : outcome = .cancelled ∨ outcome = .infraFailed) :
    validateTransition .collectingArtifacts .cleaningUp ⟨some outcome, true, false⟩ = .ok () ∧
      validateTransition .cleaningUp (if outcome = .cancelled then .cancelled else .infraFailed)
        ⟨some outcome, true, true⟩ = .ok () := by
  rcases h with rfl | rfl
  · exact ⟨rfl, rfl⟩
  · exact ⟨rfl, rfl⟩

/-- The first half of the finalizer. -/
theorem collected_alone {outcome : JobOutcome} {snap : JobSchedulingSnapshot} {row : JobRow}
    {r : Except ReconcilerError JobSchedulingSnapshot}
    (h : (Reconciler.collected j outcome snap).Trace (Unhindered cfg) s steps s' (.done r))
    (houtcome : outcome = .cancelled ∨ outcome = .infraFailed) (hrow : s.db.job? j = some row)
    (hshows : snap.Shows j row) (hpending : row.pendingOutcome = some outcome) :
    ∃ snap' row', r = .ok snap' ∧ s'.db.job? j = some row' ∧ snap'.Shows j row' ∧
      row'.pendingOutcome = some outcome ∧ (∀ k, k ≠ j → s'.db.job? k = s.db.job? k) ∧
      ((row.state = .collectingArtifacts ∧ row'.state = .cleaningUp) ∨
        (row.state ≠ .collectingArtifacts ∧ row' = row)) := by
  have hstate : snap.job.state = row.state := by rw [hshows.job]; rfl
  unfold Reconciler.collected at h
  rw [hstate] at h
  by_cases hcollects : row.state = .collectingArtifacts
  · rw [if_pos hcollects] at h
    rcases h.andThen_done with ⟨e, _, herror⟩ | ⟨u, s₁, _, _, hedge, hrest, _⟩
    · exact nomatch (finalizerTransition_alone herror (leader_edge houtcome).1 hrow hcollects
        hpending).1
    · obtain ⟨_, ⟨t, hrow₁⟩, hothers⟩ := finalizerTransition_alone hedge (leader_edge houtcome).1
        hrow hcollects hpending
      rcases hrest.andThen_done with ⟨e, _, herror⟩ | ⟨found, s₂, _, _, hread, hend, _⟩
      · obtain ⟨_, ⟨hr, _⟩ | ⟨_, _, hr, _⟩⟩ := snapshot_alone herror
        · cases hr
        · cases hr
      · obtain ⟨rfl, ⟨_, hnone⟩ | ⟨snap', row', hfound, hrow', hshows'⟩⟩ := snapshot_alone hread
        · rw [hrow₁] at hnone
          cases hnone
        · obtain rfl := Except.ok.inj hfound
          obtain rfl := Option.some.inj (hrow₁.symm.trans hrow')
          obtain ⟨_, rfl, hr⟩ := Trace.of_done hend
          exact ⟨snap', _, Prog.done.inj hr, hrow₁, hshows', rfl, hothers, Or.inl ⟨hcollects, rfl⟩⟩
  · rw [if_neg hcollects] at h
    obtain ⟨_, rfl, hr⟩ := Trace.of_done h
    exact ⟨snap, row, Prog.done.inj hr, hrow, hshows, hpending, fun _ _ => rfl,
      Or.inr ⟨hcollects, rfl⟩⟩

/-- The second half: the row of a job that cleans up becomes terminal. -/
theorem ended_alone {rounds : Nat} {outcome : JobOutcome} {snap : JobSchedulingSnapshot}
    {row : JobRow} {r : Except ReconcilerError Bool}
    (h : (Reconciler.ended cfg rounds j outcome snap).Trace (Unhindered cfg) s steps s' (.done r))
    (hdlq : ∀ e, r ≠ .error (.dlq e)) (houtcome : outcome = .cancelled ∨ outcome = .infraFailed)
    (hrow : s.db.job? j = some row) (hshows : snap.Shows j row)
    (hpending : row.pendingOutcome = some outcome) :
    (∃ done, r = .ok done) ∧ (∀ k, k ≠ j → s'.db.job? k = s.db.job? k) ∧
      ((row.state = .cleaningUp ∧ s'.db.Ended j) ∨
        (row.state ≠ .cleaningUp ∧ s'.db.job? j = s.db.job? j)) := by
  have hstate : snap.job.state = row.state := by rw [hshows.job]; rfl
  unfold Reconciler.ended at h
  rw [hstate] at h
  by_cases hcleans : row.state = .cleaningUp
  · rw [if_neg (not_not_intro hcleans)] at h
    rcases h.andThen_done with ⟨e, _, herror⟩ | ⟨u, s₁, _, _, hedge, hrest, _⟩
    · exact nomatch (finalizerTransition_alone herror (leader_edge houtcome).2 hrow hcleans
        hpending).1
    obtain ⟨_, ⟨t, hrow₁⟩, hothers⟩ := finalizerTransition_alone hedge (leader_edge houtcome).2
      hrow hcleans hpending
    have hterminal : (if outcome = .cancelled then JobState.cancelled
        else .infraFailed).isTerminal = true := by
      rcases houtcome with rfl | rfl
      · rfl
      · rfl
    -- what follows only acknowledges or publishes
    have hpart {part : TaskOr ReconcilerError Unit} {tail : List Step}
        (haside : All Action.Aside part)
        (hfails : Fails (fun x r => x.succeeds r = true) ReconcilerError.IsDlq part)
        (h : (part >>= fun _ => pure true : TaskOr ReconcilerError Bool).Trace (Unhindered cfg) s₁
          tail s' (.done r)) : (∃ done, r = .ok done) ∧ ∀ k, s'.db.job? k = s₁.db.job? k := by
      have hall : All Action.Aside (part >>= fun _ => pure true : TaskOr ReconcilerError Bool) :=
        haside.andThen fun _ => True.intro
      refine ⟨?_, aside_alone hall h⟩
      rcases h.andThen_done with ⟨e, hr, herror⟩ | ⟨_, _, _, _, _, hend, _⟩
      · obtain ⟨e', rfl⟩ := herror.ends hfails (fun _ _ _ _ hexec => hexec.2) e rfl
        exact absurd hr (hdlq e')
      · exact ⟨true, Prog.done.inj (Trace.of_done hend).2.2⟩
    have hrest' : (∃ done, r = .ok done) ∧ ∀ k, s'.db.job? k = s₁.db.job? k := by
      split at hrest
      · exact hpart (acknowledgeCancelled_aside rounds j) (acknowledgeCancelled_fails _ _ _) hrest
      · exact hpart (retireExhausted_aside cfg snap) (retireExhausted_fails _ _ _) hrest
    refine ⟨hrest'.1, fun k hk => (hrest'.2 k).trans (hothers k hk), Or.inl ⟨hcleans, ?_⟩⟩
    exact ⟨_, (hrest'.2 j).trans hrow₁, hterminal⟩
  · rw [if_pos hcleans] at h
    obtain ⟨_, rfl, hr⟩ := Trace.of_done h
    exact ⟨⟨false, Prog.done.inj hr⟩, fun _ _ => rfl, Or.inr ⟨hcleans, rfl⟩⟩

/-- Both halves, on a job without a lease towards an outcome of the leader. -/
theorem halves_alone {rounds : Nat} {outcome : JobOutcome} {snap : JobSchedulingSnapshot}
    {row : JobRow} {r : Except ReconcilerError Bool}
    (h : (Reconciler.collected j outcome snap >>= Reconciler.ended cfg rounds j outcome).Trace
      (Unhindered cfg) s steps s' (.done r))
    (hdlq : ∀ e, r ≠ .error (.dlq e)) (houtcome : outcome = .cancelled ∨ outcome = .infraFailed)
    (hrow : s.db.job? j = some row) (hshows : snap.Shows j row) (hlease : row.leaseId = none)
    (hpending : row.pendingOutcome = some outcome) :
    (∃ done, r = .ok done) ∧ s.db.Finalizes j s'.db := by
  rcases h.andThen_done with ⟨e, _, herror⟩ | ⟨snap', s₁, _, _, hfirst, hsecond, _⟩
  · obtain ⟨_, _, hr, _⟩ := collected_alone herror houtcome hrow hshows hpending
    cases hr
  obtain ⟨_, row', hr, hrow', hshows', hpending', hothers, hcases⟩ :=
    collected_alone hfirst houtcome hrow hshows hpending
  obtain rfl := Except.ok.inj hr
  obtain ⟨hdone, hothers', hend⟩ := ended_alone hsecond hdlq houtcome hrow' hshows' hpending'
  have hready : row.state = .collectingArtifacts ∨ row.state = .cleaningUp →
      s.db.Finalizable j := by
    intro hstate
    rcases houtcome with rfl | rfl
    · exact ⟨row, hrow, hstate, hlease, Or.inl hpending⟩
    · exact ⟨row, hrow, hstate, hlease, Or.inr hpending⟩
  refine ⟨hdone, fun k hk => (hothers' k hk).trans (hothers k hk), ?_, fun hnot => ?_⟩
  · rintro ⟨row₀, hrow₀, hstate, _⟩
    obtain rfl := Option.some.inj (hrow.symm.trans hrow₀)
    rcases hend with ⟨_, hended⟩ | ⟨hother, _⟩
    · exact hended
    · rcases hcases with ⟨_, hcleans⟩ | ⟨hcollects, rfl⟩
      · exact absurd hcleans hother
      · exact absurd (hstate.resolve_left hcollects) hother
  · rcases hcases with ⟨hcollects, _⟩ | ⟨_, rfl⟩
    · exact absurd (hready (Or.inl hcollects)) hnot
    · rcases hend with ⟨hcleans, _⟩ | ⟨_, hsame⟩
      · exact absurd (hready (Or.inr hcleans)) hnot
      · rw [hsame, hrow', hrow]

/-- A job that is passed over. -/
theorem passed_alone {r : Except ReconcilerError Bool} (hnot : ¬ s.db.Finalizable j)
    (h : (pure false : TaskOr ReconcilerError Bool).Trace (Unhindered cfg) s steps s' (.done r)) :
    (∃ done, r = .ok done) ∧ s.db.Finalizes j s'.db := by
  obtain ⟨_, rfl, hr⟩ := Trace.of_done h
  exact ⟨⟨false, Prog.done.inj hr⟩, fun _ _ => rfl, fun hready => absurd hready hnot, fun _ => rfl⟩

/-- **One job.** Alone, the finalizer ends a finalizable job and leaves every other as it was. -/
theorem finalizeJob_alone {rounds : Nat} {r : Except ReconcilerError Bool}
    (h : (Reconciler.finalizeJob cfg rounds j).Trace (Unhindered cfg) s steps s' (.done r))
    (hdlq : ∀ e, r ≠ .error (.dlq e)) : (∃ done, r = .ok done) ∧ s.db.Finalizes j s'.db := by
  rw [finalizeJob_eq] at h
  rcases h.andThen_done with ⟨e, _, herror⟩ | ⟨found, s₁, _, _, hread, hrest, _⟩
  · obtain ⟨_, ⟨hr, _⟩ | ⟨_, _, hr, _⟩⟩ := snapshot_alone herror
    · cases hr
    · cases hr
  obtain ⟨rfl, ⟨hfound, hnone⟩ | ⟨snap, row, hfound, hrow, hshows⟩⟩ := snapshot_alone hread
  · obtain rfl := Except.ok.inj hfound
    refine passed_alone ?_ hrest
    rintro ⟨row, hrow, _⟩
    rw [hnone] at hrow
    cases hrow
  obtain rfl := Except.ok.inj hfound
  -- what the snapshot says of a finalizable job
  have hready : s₁.db.Finalizable j → snap.lease = none ∧
      (snap.pendingOutcome = some .cancelled ∨ snap.pendingOutcome = some .infraFailed) := by
    rintro ⟨row', hrow', _, hlease, hpending⟩
    obtain rfl := Option.some.inj (hrow.symm.trans hrow')
    rw [hshows.pending]
    exact ⟨hshows.leaseId_eq_none_iff.mp hlease, hpending⟩
  simp only at hrest
  split at hrest
  · next outcome hlease hpending =>
      have hunleased := hshows.unleased hlease
      rw [hpending] at hready
      rw [hshows.pending] at hpending
      split at hrest
      · exact halves_alone hrest hdlq (Or.inl rfl) hrow hshows hunleased hpending
      · exact halves_alone hrest hdlq (Or.inr rfl) hrow hshows hunleased hpending
      · next hcancelled hinfra =>
          refine passed_alone (fun h => ?_) hrest
          rcases (hready h).2 with ho | ho
          · exact hcancelled (Option.some.inj ho)
          · exact hinfra (Option.some.inj ho)
  · next hno =>
      refine passed_alone (fun h => ?_) hrest
      obtain ⟨hlease, ho | ho⟩ := hready h
      · exact hno _ hlease ho
      · exact hno _ hlease ho

end Finalizer

/-! ## The scan -/

/-- The rows the scan selects: jobs that collect or clean up towards an outcome of the
leader, leased or not. -/
def Db.candidates (db : Db) : List (JobId × JobRow) :=
  (db.jobs.rows.map fun x => (x.1, x.2.val)).filter fun x =>
    (decide (x.2.state = .collectingArtifacts) || decide (x.2.state = .cleaningUp)) &&
      (decide (x.2.pendingOutcome = some .cancelled) ||
        decide (x.2.pendingOutcome = some .infraFailed))

/-- The place of a row in the order of the scan. -/
def scanKey (x : JobId × JobRow) : Time ×ₗ String := toLex (x.2.createdAt, x.1.val)

/-- How many candidates the scan comes to before job `j` with this row. -/
def Db.ahead (db : Db) (j : JobId) (row : JobRow) : Nat :=
  Logic.ahead scanKey db.candidates (scanKey (j, row))

section Scan

variable {db : Db} {j : JobId} {row : JobRow}

theorem Db.mem_candidates : (j, row) ∈ db.candidates ↔ db.job? j = some row ∧
    (row.state = .collectingArtifacts ∨ row.state = .cleaningUp) ∧
    (row.pendingOutcome = some .cancelled ∨ row.pendingOutcome = some .infraFailed) := by
  unfold Db.candidates
  rw [List.mem_filter, Bool.and_eq_true, Bool.or_eq_true, Bool.or_eq_true]
  simp only [decide_eq_true_eq]
  exact and_congr_left fun _ => Table.mem_values_iff

theorem JobRow.Finalizable.candidate (h : row.Finalizable) (hrow : db.job? j = some row) :
    (j, row) ∈ db.candidates :=
  Db.mem_candidates.mpr ⟨hrow, h.1, h.2.2⟩

theorem candidates_keys (db : Db) : (db.candidates.map scanKey).Nodup := by
  have hids : (db.candidates.map Prod.fst).Nodup :=
    (Table.nodup_values db.jobs).sublist (List.filter_sublist.map _)
  -- rows with the same key have the same identifier
  have hval : (db.candidates.map fun x => x.1.val).Nodup := by
    have hmap := hids.map (f := Ident.val) fun a b hab => Ident.ext hab
    rwa [List.map_map] at hmap
  refine List.Nodup.of_map (fun k : Time ×ₗ String => (ofLex k).2) ?_
  rw [List.map_map]
  exact hval

/-- **The scan** returns the candidates that fewer than `limit` candidates are ahead of. -/
theorem mem_finalizableJobs {limit : Nat} {ids : List JobId} {db' : Db}
    (h : (finalizableJobs limit).Commits db ids db') :
    j ∈ ids ↔ ∃ row, (j, row) ∈ db.candidates ∧ db.ahead j row < limit := by
  obtain ⟨hids, _⟩ := Tx.read_commits.mp h
  subst hids
  have horder (a b : JobId × JobRow) : (a.2.createdAt < b.2.createdAt ∨
      (a.2.createdAt = b.2.createdAt ∧ a.1.val ≤ b.1.val)) ↔ scanKey a ≤ scanKey b :=
    (Prod.Lex.toLex_le_toLex (x := (a.2.createdAt, a.1.val)) (y := (b.2.createdAt, b.1.val))).symm
  rw [List.mem_map]
  constructor
  · rintro ⟨⟨j', row⟩, hmem, rfl⟩
    exact ⟨row, (mem_take_insertionSort horder (candidates_keys db)).mp hmem⟩
  · rintro ⟨row, hrow⟩
    exact ⟨(j, row), (mem_take_insertionSort horder (candidates_keys db)).mpr hrow, rfl⟩

end Scan

/-! ## The loop -/

section Loop

variable {cfg : Config} {rounds : Nat} {s s' : Cluster} {j : JobId} {steps : List Step}
  {kept : List JobId}

theorem Db.Finalizable.congr {db db' : Db} (h : db.Finalizable j)
    (hsame : db'.job? j = db.job? j) : db'.Finalizable j := by
  obtain ⟨row, hrow, hready⟩ := h
  exact ⟨row, hsame.trans hrow, hready⟩

theorem Db.Ended.congr {db db' : Db} (h : db.Ended j) (hsame : db'.job? j = db.job? j) :
    db'.Ended j := by
  obtain ⟨row, hrow, hend⟩ := h
  exact ⟨row, hsame.trans hrow, hend⟩

theorem Db.Ended.not_finalizable {db : Db} (h : db.Ended j) : ¬ db.Finalizable j := by
  rintro ⟨row, hrow, hstate, _⟩
  obtain ⟨row', hrow', hend⟩ := h
  obtain rfl := Option.some.inj (hrow.symm.trans hrow')
  rcases hstate with hstate | hstate
  · rw [hstate] at hend
    cases hend
  · rw [hstate] at hend
    cases hend

/-- What the loop over `ids` makes of the jobs. -/
structure Db.FinalizesAll (kept ids : List JobId) (db db' : Db) : Prop where
  ends : ∀ j ∈ ids, j ∉ kept → db.Finalizable j → db'.Ended j
  others : ∀ j, db'.job? j = db.job? j ∨ (j ∈ ids ∧ db'.Ended j)

theorem Db.FinalizesAll.skip {db db' : Db} {rest : List JobId}
    (h : db.FinalizesAll kept rest db') (hj : j ∈ kept) : db.FinalizesAll kept (j :: rest) db' := by
  refine ⟨fun k hk hfree hready => ?_, fun k => ?_⟩
  · rcases List.mem_cons.mp hk with rfl | hrest
    · exact absurd hj hfree
    · exact h.ends k hrest hfree hready
  · exact (h.others k).imp_right fun hk => ⟨List.mem_cons_of_mem _ hk.1, hk.2⟩

/-- One more job before the others. -/
theorem Db.Finalizes.cons {db db₁ db' : Db} {rest : List JobId} (h : db.Finalizes j db₁)
    (hrest : db₁.FinalizesAll kept rest db') : db.FinalizesAll kept (j :: rest) db' := by
  -- an ended job stays ended
  have hlasts {k : JobId} (hend : db₁.Ended k) : db'.Ended k := by
    rcases hrest.others k with hsame | ⟨_, hended⟩
    · exact hend.congr hsame
    · exact hended
  refine ⟨fun k hk hfree hready => ?_, fun k => ?_⟩
  · by_cases hkj : k = j
    · subst hkj
      exact hlasts (h.ends hready)
    · have hmem : k ∈ rest := (List.mem_cons.mp hk).resolve_left hkj
      exact hrest.ends k hmem hfree (hready.congr (h.others k hkj))
  · rcases hrest.others k with hsame | ⟨hmem, hended⟩
    · by_cases hkj : k = j
      · subst hkj
        by_cases hready : db.Finalizable k
        · exact Or.inr ⟨List.mem_cons_self, (h.ends hready).congr hsame⟩
        · exact Or.inl (hsame.trans (h.spares hready))
      · exact Or.inl (hsame.trans (h.others k hkj))
    · exact Or.inr ⟨List.mem_cons_of_mem _ hmem, hended⟩

/-- **The loop.** Alone, it ends every finalizable job it was given that keeps no runtime. -/
theorem finalizeAll_alone {ids : List JobId} {n : Nat} {r : Except ReconcilerError Nat}
    (h : (Reconciler.finalizeAll cfg rounds kept ids n).Trace (Unhindered cfg) s steps s' (.done r))
    (hdlq : ∀ e, r ≠ .error (.dlq e)) :
    (∃ m, r = .ok m) ∧ s.db.FinalizesAll kept ids s'.db := by
  induction ids generalizing n s steps with
  | nil =>
      obtain ⟨_, rfl, hr⟩ := Trace.of_done h
      exact ⟨⟨n, Prog.done.inj hr⟩, fun _ hk => absurd hk List.not_mem_nil,
        fun _ => Or.inl rfl⟩
  | cons j rest ih =>
      unfold Reconciler.finalizeAll at h
      split at h
      · next hkept =>
          obtain ⟨hr, hall⟩ := ih h
          exact ⟨hr, hall.skip (List.contains_iff_mem.mp hkept)⟩
      · rcases h.andThen_done with ⟨e, hr, herror⟩ | ⟨done, s₁, _, _, hone, hrest, _⟩
        · have hnodlq : ∀ e', (.error e : Except ReconcilerError Bool) ≠ .error (.dlq e') := by
            intro e' he
            obtain rfl := Except.error.inj he
            exact hdlq e' hr
          obtain ⟨⟨_, hdone⟩, _⟩ := finalizeJob_alone herror hnodlq
          cases hdone
        · obtain ⟨_, hfinal⟩ := finalizeJob_alone hone fun _ he => by cases he
          obtain ⟨hr, hall⟩ := ih hrest
          exact ⟨hr, hfinal.cons hall⟩

/-- The scan, then the loop over what it returned. -/
theorem finalizeReadyJobs_alone {r : Except ReconcilerError Nat}
    (h : (Reconciler.finalizeReadyJobs cfg rounds kept).Trace (Unhindered cfg) s steps s' (.done r))
    (hdlq : ∀ e, r ≠ .error (.dlq e)) : (∃ m, r = .ok m) ∧ ∃ ids,
      (finalizableJobs Reconciler.batch).Commits s.db ids s.db ∧
        s.db.FinalizesAll kept ids s'.db := by
  have hscan {r : Except ReconcilerError (List JobId)} {s₁ : Cluster} {steps : List Step}
      (h : (Routine.try_ (act (.query (.finalizableJobs Reconciler.batch)))
        ReconcilerError.repository).Trace (Unhindered cfg) s steps s₁ (.done r)) :
      s₁ = s ∧ ∃ ids, r = .ok ids ∧
        (finalizableJobs Reconciler.batch).Commits s.db ids s.db := by
    obtain ⟨answer, rfl, hact⟩ := Trace.map_done h
    obtain ⟨⟨hexec, hok⟩, _⟩ := Trace.perform_done hact
    obtain ⟨rfl, hread | hlost⟩ := exec_query hexec
    · cases answer with
      | error e => cases hok
      | ok ids =>
          have hval : (finalizableJobs Reconciler.batch).exec s₁.db = (.ok ids, s₁.db) :=
            Prod.ext hread.symm rfl
          exact ⟨rfl, ids, rfl, Tx.commits_of_exec hval⟩
    · rw [hlost] at hok
      cases hok
  rcases h.andThen_done with ⟨e, _, herror⟩ | ⟨ids, s₁, _, _, hread, hrest, _⟩
  · obtain ⟨_, _, hr, _⟩ := hscan herror
    cases hr
  · obtain ⟨rfl, ids', hr, hids⟩ := hscan hread
    obtain rfl := Except.ok.inj hr
    obtain ⟨hdone, hall⟩ := finalizeAll_alone hrest hdlq
    exact ⟨hdone, ids, hids, hall⟩

/-- **A pass after the inventory.** Alone, it ends the finalizable jobs without a runtime that
fewer than a batch of candidates are ahead of, and no other. -/
theorem conclude_alone {r : Except ReconcilerError Unit}
    (h : (Reconciler.conclude cfg rounds (.ok kept)).Trace (Unhindered cfg) s steps s' (.done r))
    (hdlq : ∀ e, r ≠ .error (.dlq e)) {row : JobRow} (hrow : s.db.job? j = some row)
    (hready : row.Finalizable) (hfree : j ∉ kept) :
    s'.db.Ended j ↔ s.db.ahead j row < Reconciler.batch := by
  have hfinalizable : s.db.Finalizable j := ⟨row, hrow, hready⟩
  -- the scan, then the loop, then nothing that touches a job
  have hloop : ∃ ids, (finalizableJobs Reconciler.batch).Commits s.db ids s.db ∧
      s.db.FinalizesAll kept ids s'.db := by
    rcases Trace.andThen_done (p := Reconciler.finalizeReadyJobs cfg rounds kept) h with
      ⟨e, rfl, herror⟩ | ⟨n, s₁, _, _, hready, hrest, _⟩
    · have hnodlq : ∀ e', (.error e : Except ReconcilerError Nat) ≠ .error (.dlq e') := by
        intro e' he
        obtain rfl := Except.error.inj he
        exact hdlq e' rfl
      obtain ⟨⟨_, hdone⟩, _⟩ := finalizeReadyJobs_alone herror hnodlq
      cases hdone
    · obtain ⟨_, ids, hscan, hall⟩ := finalizeReadyJobs_alone hready fun _ he => nomatch he
      have hsame := aside_alone (aside_of_plain (afterRuntimes_plain cfg)) hrest
      refine ⟨ids, hscan, fun k hk hfree hfinal => (hall.ends k hk hfree hfinal).congr (hsame k),
        fun k => ?_⟩
      rcases hall.others k with hk | ⟨hmem, hended⟩
      · exact Or.inl ((hsame k).trans hk)
      · exact Or.inr ⟨hmem, hended.congr (hsame k)⟩
  obtain ⟨ids, hscan, hall⟩ := hloop
  constructor
  · intro hended
    by_contra hmany
    have hmem : j ∉ ids := by
      rw [mem_finalizableJobs hscan]
      rintro ⟨row', hcandidate, hfew⟩
      obtain rfl := Option.some.inj (hrow.symm.trans (Db.mem_candidates.mp hcandidate).1)
      exact hmany hfew
    rcases hall.others j with hsame | ⟨hin, _⟩
    · exact hended.not_finalizable (hfinalizable.congr hsame)
    · exact hmem hin
  · intro hfew
    refine hall.ends j ?_ hfree hfinalizable
    exact (mem_finalizableJobs hscan).mpr ⟨row, hready.candidate hrow, hfew⟩

end Loop

end RunAnywhere
