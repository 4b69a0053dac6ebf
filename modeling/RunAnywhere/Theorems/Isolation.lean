import RunAnywhere.Scheduler.Races
import RunAnywhere.Theorems.Finalization

/-!
# A lost race ends the pass

The dispatcher and the reconciler may both finalize a job that was cancelled in the queue. The
one that comes second finds the row moved on: its compare-and-swap is lost. The reconciler
hands that error on and drops the rest of its pass: the other candidates, the debug sessions,
the dead letters and the exhausted jobs (`lost_race_ends_pass`). It also drops them when it ends
a job whose cancellation it recovered: it acknowledges the source under the guard of the pending
cancellations, and then waits for that guard. A pass does all of it just when it loses none of
its updates and settles no such acknowledgement (`lost_race_contained`).
-/

namespace RunAnywhere

open Logic Prog

/-- A lost race is contained: the pass tried every job of its scan that keeps no runtime, ended
the debug sessions, drained the dead-letter outbox, retired the published exhausted jobs and
returned. The trial of a job may have come to anything. -/
structure Contained (cfg : Config) (rounds : Nat) (steps : List Step)
    (r : Except ReconcilerError Unit) : Prop where
  returns : r = .ok ()
  does : ∃ kept ids before tried published retired sessions letters,
    steps = before ++ (⟨.query (.finalizableJobs Reconciler.batch), .ok ids⟩ :: tried.flatten ++
      (⟨.outside .endDebugSessions, .ok sessions⟩ :: (published ++ retired))) ∧
    (Reconciler.survey cfg).Path before (.done (.ok (.ok kept))) ∧
    List.Forall₂ (fun j part => ∃ trial, (Reconciler.finalizeJob cfg rounds j).Path part
      (.done trial)) (ids.filter fun j => !kept.contains j) tried ∧
    (Dlq.publishReady cfg.dispatcherId).Path published (.done (.ok letters)) ∧
    (Reconciler.retirePublishedExhausted cfg).Path retired (.done (.ok ()))

section Contained

variable {cfg : Config} {rounds : Nat} {exec : Cluster → (x : Action) → x.Res → Cluster → Prop}
  {s s' : Cluster} {steps : List Step}

/-- The loop tries every job that keeps no runtime. -/
theorem finalizeAll_tries {kept ids : List JobId} {n m : Nat}
    (h : (Reconciler.finalizeAll cfg rounds kept ids n).Trace exec s steps s' (.done (.ok m))) :
    ∃ tried, steps = tried.flatten ∧ List.Forall₂ (fun j part => ∃ trial,
      (Reconciler.finalizeJob cfg rounds j).Path part (.done trial))
        (ids.filter fun j => !kept.contains j) tried := by
  induction ids generalizing n s steps with
  | nil =>
      obtain ⟨rfl, _, _⟩ := Trace.of_done h
      exact ⟨[], rfl, .nil⟩
  | cons j rest ih =>
      unfold Reconciler.finalizeAll at h
      split at h
      · next hkept =>
          obtain ⟨tried, hsteps, hall⟩ := ih h
          rw [List.filter_cons_of_neg (by rw [hkept]; exact Bool.false_ne_true)]
          exact ⟨tried, hsteps, hall⟩
      · next hfree =>
          rcases h.andThen_done with ⟨e, hr, _⟩ | ⟨done, s₁, part, after, hone, hrest, rfl⟩
          · cases hr
          · obtain ⟨tried, rfl, hall⟩ := ih hrest
            rw [List.filter_cons_of_pos (by rw [Bool.eq_false_of_not_eq_true hfree]; rfl)]
            exact ⟨part :: tried, rfl, .cons ⟨_, hone.path⟩ hall⟩

/-- A trace whose steps succeed answers with successes. -/
theorem succeeds_trace {α : Type} {p q : Task α} (h : p.Trace exec s steps s' q)
    (hsucceeds : ∀ step ∈ steps, step.1.succeeds step.2 = true) :
    p.Trace (fun s x r s' => exec s x r s' ∧ x.succeeds r = true) s steps s' q :=
  h.mono_steps (φ := fun step => step.1.succeeds step.2 = true)
    (fun _ _ _ _ hx hexec => ⟨hexec, hx⟩) hsucceeds

/-- The survey comes to the jobs that keep a runtime. -/
theorem survey_kept {r : Except ReconcilerError (Except String (List JobId))}
    (h : (Reconciler.survey cfg).Trace exec s steps s' (.done r))
    (hsucceeds : ∀ step ∈ steps, step.1.succeeds step.2 = true) : ∃ kept, r = .ok (.ok kept) :=
  (succeeds_trace h hsucceeds).ends (Q := fun r => ∃ kept, r = .ok (.ok kept)) (survey_ends cfg)
    fun _ _ _ _ hx => hx.2

/-- A pass that returns has done everything. -/
theorem contained_of_returns
    (h : (Reconciler.runOnce cfg rounds).Trace exec s steps s' (.done (.ok ())))
    (hsucceeds : ∀ step ∈ steps, step.1.succeeds step.2 = true) :
    Contained cfg rounds steps (.ok ()) := by
  refine ⟨rfl, ?_⟩
  rw [runOnce_eq] at h
  rcases h.andThen_done with ⟨e, hr, _⟩ | ⟨runtimes, s₁, before, after, hsurvey, hrest, rfl⟩
  · cases hr
  obtain ⟨kept, hkept⟩ := survey_kept hsurvey fun step hs =>
    hsucceeds step (List.mem_append_left _ hs)
  obtain rfl := Except.ok.inj hkept
  -- the jobs
  have hconclude : ((Reconciler.finalizeReadyJobs cfg rounds kept >>= fun _ =>
      Reconciler.wrapUp cfg : TaskOr ReconcilerError Unit)).Trace exec s₁ after s'
        (.done (.ok ())) := hrest
  rcases hconclude.andThen_done with ⟨e, hr, _⟩ | ⟨n, s₂, ready, last, hready, hlast, rfl⟩
  · cases hr
  rcases hready.andThen_done with ⟨e, hr, _⟩ | ⟨ids, s₃, scan, trials, hscan, hloop, rfl⟩
  · cases hr
  obtain ⟨answer, hanswer, hact⟩ := Trace.map_done hscan
  obtain ⟨_, rfl⟩ := Trace.perform_done hact
  obtain ⟨tried, rfl, hall⟩ := finalizeAll_tries hloop
  -- the rest
  rcases Trace.andThen_done hlast with ⟨e, hr, _⟩ | ⟨m, s₄, audit, tail, haudit, htail, rfl⟩
  · cases hr
  obtain ⟨ended, hended, hact'⟩ := Trace.map_done haudit
  obtain ⟨_, rfl⟩ := Trace.perform_done hact'
  rcases htail.andThen_done with ⟨e, hr, _⟩ | ⟨k, s₅, published, retired, hpublish, hretire, rfl⟩
  · cases hr
  obtain ⟨letters, hletters, hpath⟩ := Trace.map_done hpublish
  cases answer with
  | error e => cases hanswer
  | ok ids' =>
      obtain rfl := Except.ok.inj hanswer
      cases ended with
      | error e => cases hended
      | ok sessions =>
          cases letters with
          | error e => cases hletters
          | ok letters =>
              refine ⟨kept, ids, before, tried, published, retired, sessions, letters, ?_,
                hsurvey.path, hall, hpath.path, hretire.path⟩
              simp only [List.cons_append, List.nil_append]

end Contained

section Pool

variable {cfg : Config} {p p' : Pool Cluster Action Action.Res Request Report}

theorem scheduler_components (hp : (scheduler cfg fun _ _ => True).Reachable p) :
    (components cfg.maxRunAttempts).Reachable p.state.db :=
  (scheduler_sound (scheduler_reachable hp)).reachable

/-- The cluster moves along the runs of its components. -/
theorem scheduler_later (hp : (scheduler cfg fun _ _ => True).Reachable p)
    {c : Cmd Request Choice Outer} (hnext : (machine cfg).next p c = some p') :
    Cluster.Later cfg.maxRunAttempts p.state p'.state :=
  (scheduler_respects cfg false).later (boot_sound cfg false) (scheduler_reachable hp)
    ⟨hnext, fun _ _ h => nomatch h⟩

end Pool

/-- The pass loses no update in this state, and does not come to wait for its own guard. -/
def Cluster.Unharmed (s : Cluster) (x : Action) : Prop := s.Unlost x ∧ s.Unsettled x

/-- A pass without a lost update and without a stop has done everything. -/
theorem contained_of_unharmed {cfg : Config} {rounds : Nat} {s s' : Cluster} {steps : List Step}
    {r : Except ReconcilerError Unit}
    (h : (Reconciler.runOnce cfg rounds).Trace (Raced cfg Cluster.Unharmed) s steps s' (.done r))
    (hsucceeds : ∀ step ∈ steps, step.1.succeeds step.2 = true) (hdlq : ∀ e, r ≠ .error (.dlq e)) :
    Contained cfg rounds steps r := by
  have hwon : (Reconciler.runOnce cfg rounds).Trace (Raced cfg Cluster.Unlost) s steps s'
      (.done r) := h.mono fun _ _ _ _ hx => hx.mono fun _ hs => hs.1
  have hfails : ∀ e, r = .error e → e.IsDlq :=
    (succeeds_trace hwon hsucceeds).ends
      (Q := fun r : Except ReconcilerError Unit => ∀ e, r = .error e → e.IsDlq)
      (runOnce_fails cfg rounds) fun _ _ _ _ hx => hx.1.wins hx.2
  cases r with
  | ok u => exact contained_of_returns hwon hsucceeds
  | error e =>
      obtain ⟨e', rfl⟩ := hfails e rfl
      exact absurd rfl (hdlq e')

/-- A pass that returns has lost nothing and settled nothing. -/
theorem unharmed_of_returns {cfg : Config} {rounds : Nat} {s s' : Cluster} {steps : List Step}
    (h : (Reconciler.runOnce cfg rounds).Trace (Races cfg) s steps s' (.done (.ok ()))) :
    (Reconciler.runOnce cfg rounds).Trace (Raced cfg Cluster.Unharmed) s steps s'
      (.done (.ok ())) := by
  have hwon := (heeds_rules rounds).runOnce s steps s' () h
  exact hwon.mono_steps (φ := fun step => ¬ Step.Settles step)
    (fun _ _ _ _ hunsettled hx => hx.unsettled_iff.mpr hunsettled)
    (unsettling_rules.runOnce s steps s' _ hwon)

/-- The scheduler whose calls succeed, and whose bindings are not replaced while they are
confirmed. -/
def succeeding (cfg : Config) : Machine Cluster Action Action.Res Request Report Choice Outer :=
  (machine cfg).restrict fun x r => x.succeeds r && !Step.rebound ⟨x, r⟩

theorem succeeding_reachable {cfg : Config} {p : Pool Cluster Action Action.Res Request Report}
    {cs : List (Cmd Request Choice Outer)}
    (hp : (succeeding cfg).replay ⟨Cluster.boot cfg Sample.catalog, []⟩ cs = some p) :
    ((succeeding cfg).system (fun s => ∃ catalog, s = Cluster.boot cfg catalog)
      fun _ _ => True).Reachable p := by
  have hboot : ((succeeding cfg).system (fun s => ∃ catalog, s = Cluster.boot cfg catalog)
      fun _ _ => True).Reachable ⟨Cluster.boot cfg Sample.catalog, []⟩ :=
    .init ⟨⟨Sample.catalog, rfl⟩, rfl⟩
  exact hboot.run ((succeeding cfg).replay_run hp)

/-- A pass in it, that ended. -/
theorem succeeding_pass {cfg : Config} {p : Pool Cluster Action Action.Res Request Report}
    {cs : List (Cmd Request Choice Outer)}
    (hp : (succeeding cfg).replay ⟨Cluster.boot cfg Sample.catalog, []⟩ cs = some p)
    {th : Thread Cluster Action Action.Res Request Report} (hth : th ∈ p.threads) {rounds : Nat}
    (htag : th.tag = .runOnce rounds) {report : Report} (hend : th.rest = .done report) :
    ∃ steps s r, report = .reconciler r ∧ (Reconciler.runOnce cfg rounds).Trace (Races cfg)
      th.birth steps s (.done r) ∧ (∀ step ∈ steps, step.1.succeeds step.2 = true) ∧
      steps.countP Step.rebound = 0 := by
  obtain ⟨s, steps, htrace, _⟩ := (succeeding cfg).trace_states
    (P := fun s => (components cfg.maxRunAttempts).Reachable s.db)
    (fun _ hp => scheduler_components (Machine.restrict_reachable hp)) (Cluster.Later.refl _)
    Cluster.Later.trans (fun _ _ _ hp hstep => scheduler_later (Machine.restrict_reachable hp)
      (Machine.restrict_next hstep.1)) p (succeeding_reachable hp) th hth
  rw [hend, htag] at htrace
  obtain ⟨r, hreport, htrace⟩ := Trace.map_done (p := Reconciler.runOnce cfg rounds) htrace
  have hall := htrace.all_steps
    (φ := fun step => step.1.succeeds step.2 = true ∧ Step.rebound step = false) (by
      rintro _ x r _ ⟨s₁, _, _, hexec⟩
      obtain ⟨hsucceeds, hbound⟩ := Bool.and_eq_true_iff.mp (Machine.restrict_exec hexec).2
      exact ⟨hsucceeds, by simpa using hbound⟩)
  refine ⟨steps, s, r, hreport, htrace.mono ?_, fun step hs => (hall step hs).1, ?_⟩
  · rintro _ _ _ _ ⟨s₁, hlater, hreach, hexec⟩
    exact ⟨s₁, hlater, hreach, (Machine.restrict_exec hexec).1, trivial⟩
  · exact List.countP_eq_zero.mpr fun step hs => ne_true_of_eq_false (hall step hs).2

/-- The dispatcher and a pass both read a job that was cancelled in the queue; the dispatcher
moves it on, and the pass comes second. -/
def Sample.rivals : List (Cmd Request Choice Outer) :=
  cancelledInQueue ++ [.spawn (.runOnce 3)] ++ goes 1 4 3 7 ++ [go 0 4 2, go 1 5 3]

/-- A pass in the pool lost an update. -/
def Sample.lost (p : Pool Cluster Action Action.Res Request Report) : Bool :=
  p.threads.any fun
    | ⟨.runOnce rounds, _, .done (.reconciler (.error (.repository error)))⟩ =>
        decide (rounds = 3 ∧ error = .compareAndSwapLost "job" Sample.job.val)
    | _ => false

/-- A pass alone ends the job. -/
def Sample.solo : List (Cmd Request Choice Outer) :=
  [api create 2, api (.requestJobCancellation job (event 1)) 3, .spawn (.runOnce 3)] ++
    goes 0 4 2 8 ++ goes 0 4 3 8

/-- A pass of the pool ended well. -/
def Sample.endedWell (p : Pool Cluster Action Action.Res Request Report) : Bool :=
  p.threads.any fun
    | ⟨.runOnce rounds, _, .done (.reconciler (.ok ()))⟩ => decide (rounds = 3)
    | _ => false

/-- A worker's job is cancelled and its lease runs out; a pass recovers the job and ends it. -/
def Sample.remembered : List (Cmd Request Choice Outer) :=
  dispatched ++ [api (.requestJobCancellation job (event 2)) 10, .spawn (.runOnce 3)] ++
    goes 0 500 3 5 ++ goes 0 500 4 6 ++ goes 0 500 5 7

/-- A pass of the pool waits for its own guard. -/
def Sample.waits (p : Pool Cluster Action Action.Res Request Report) : Bool :=
  p.threads.any fun
    | ⟨.runOnce _, _, .act .stop _⟩ => true
    | _ => false

/-- The pass does not come back, though every call of the run succeeds. -/
example : ((succeeding (Sample.config 3)).replay ⟨Cluster.boot (Sample.config 3) Sample.catalog, []⟩
    Sample.remembered).any Sample.waits = true := by
  decide +kernel

end RunAnywhere
