import RunAnywhere.Scheduler.Halting

/-!
# A pass among others

Between two actions of a pass the other components run (`Raced`). Of its updates only the
unfenced transitions of the finalizer can be lost to them, and one is lost just when the row
has left the state or the outcome the pass read (`Cluster.Unlost`):

* **won** — a pass that returns has lost none (`heeds_rules`);
* **lost** — a pass that loses none fails only in its dead letters (`runOnce_fails`);
* **stops** — a pass that settles nothing comes to no stop as long as fewer bindings replace a
  confirmed one than its acknowledgement loop has rounds (`races_stop`).
-/

namespace RunAnywhere

open Logic Prog

/-- The components ran, then the action is performed, in a state that satisfies `φ`. -/
def Raced (cfg : Config) (φ : Cluster → Action → Prop) (s : Cluster) (x : Action) (r : x.Res)
    (s' : Cluster) : Prop :=
  ∃ s₁, Cluster.Later cfg.maxRunAttempts s s₁ ∧ (components cfg.maxRunAttempts).Reachable s₁.db ∧
    (machine cfg).Exec s₁ x r s' ∧ φ s₁ x

/-- The components ran, then the action is performed. -/
abbrev Races (cfg : Config) : (s : Cluster) → (x : Action) → x.Res → Cluster → Prop :=
  Raced cfg fun _ _ => True

/-- The job of an unfenced transition stands at the source of the transition, and its outcome
is not another. -/
def Cluster.Unlost (s : Cluster) : Action → Prop
  | .call (.transitionJobState j source _ evidence none _ _) =>
      ∃ row, s.db.job? j = some row ∧ row.state = source ∧
        (row.pendingOutcome = none ∨ row.pendingOutcome = evidence.pendingOutcome)
  | _ => True

theorem Raced.mono {cfg : Config} {φ ψ : Cluster → Action → Prop} {s s' : Cluster}
    {x : Action} {r : x.Res} (hφ : ∀ s, φ s x → ψ s x) (h : Raced cfg φ s x r s') :
    Raced cfg ψ s x r s' := by
  obtain ⟨s₁, hlater, hreach, hexec, hs⟩ := h
  exact ⟨s₁, hlater, hreach, hexec, hφ s₁ hs⟩

/-! ## Updates of others -/

theorem Action.Steady.unlost {x : Action} (h : x.Steady) (s : Cluster) : s.Unlost x := by
  unfold Cluster.Unlost
  split
  · exact absurd h id
  · trivial

theorem Action.Aside.unlost {x : Action} (h : x.Aside) (s : Cluster) : s.Unlost x := by
  unfold Cluster.Unlost
  split
  · cases h
  · trivial

/-- A job stays. -/
theorem Db.Later.present {m : Nat} {db db' : Db} (h : Db.Later m db db') {j : JobId}
    (hj : (db.job? j).isSome = true) : (db'.job? j).isSome = true := by
  obtain ⟨calls, hrun⟩ := h
  induction hrun with
  | nil => exact hj
  | snoc _ hstep ih =>
      rcases repository_step_cases (components_step hstep) with ⟨_, _, hc⟩ | ⟨_, rfl⟩
      · rcases Op.rows hc j with ⟨hsame, _⟩ | ⟨row, hrow, _⟩
        · rw [hsame]
          exact ih
        · rw [hrow]
          rfl
      · exact ih

/-! ## Won -/

/-- A run of the part that returns has lost no update. -/
def Heeds {ε α : Type} (cfg : Config) (p : TaskOr ε α) : Prop := ∀ s steps s' a,
  p.Trace (Races cfg) s steps s' (.done (.ok a)) →
    p.Trace (Raced cfg Cluster.Unlost) s steps s' (.done (.ok a))

section Heeds

variable {cfg : Config} {ε α β : Type}

theorem heeds_of_all {p : TaskOr ε α} (hp : All (fun x => ∀ s : Cluster, s.Unlost x) p) :
    Heeds cfg p := by
  intro s steps s' a h
  exact h.mono_all hp fun _ _ _ _ hx hr => hr.mono fun s _ => hx s

theorem heeds_of_steady {p : TaskOr ε α} (hp : All Action.Steady p) : Heeds cfg p :=
  heeds_of_all (hp.mono fun _ hx => hx.unlost)

theorem heeds_of_aside {p : TaskOr ε α} (hp : All Action.Aside p) : Heeds cfg p :=
  heeds_of_all (hp.mono fun _ hx => hx.unlost)

theorem Heeds.andThen {p : TaskOr ε α} {f : α → TaskOr ε β} (hp : Heeds cfg p)
    (hf : ∀ a, Heeds cfg (f a)) : Heeds cfg (p >>= f) := by
  intro s steps s' b h
  rcases h.andThen_done with ⟨e, hr, _⟩ | ⟨a, s₁, before, after, hfirst, hsecond, rfl⟩
  · cases hr
  · exact (hp _ _ _ _ hfirst).andThen (hf a _ _ _ _ hsecond)

/-- A transition that is answered was not lost. -/
theorem transition_unlost {s s' : Cluster} {j : JobId} {source target : JobState}
    {evidence : TransitionEvidence} {outcome : JobOutcome}
    {payload : List (String × EventValue)} {eventId : JobEventId} {job : Job}
    (h : (machine cfg).Exec s
      (.call (.transitionJobState j source target evidence none payload eventId)) (.ok job) s')
    (ho : evidence.pendingOutcome = some outcome) :
    s.Unlost (.call (.transitionJobState j source target evidence none payload eventId)) := by
  rcases exec_call h with ⟨_, hlost⟩ | ⟨t, answer, hcall, hanswer⟩
  · cases hlost
  obtain rfl : answer = .ok job := (hanswer.resolve_right fun hlost => nomatch hlost).symm
  obtain ⟨hcall, _⟩ := execute_eq hcall
  obtain ⟨row, hrow, _, hguard, _⟩ := transitionJobState_stores (Tx.commits_of_exec hcall)
  obtain ⟨hstate, hpending, _⟩ := transitionGuard_iff.mp hguard
  refine ⟨row, hrow, hstate, hpending.resolve_left fun hnone => ?_⟩
  rw [ho] at hnone
  cases hnone

theorem finalizerTransition_heeds (j : JobId) (source target : JobState) (outcome : JobOutcome)
    (cleanup : Bool) (payload : List (String × EventValue)) :
    Heeds cfg (Reconciler.finalizerTransition j source target outcome cleanup payload) := by
  intro s steps s' u h
  obtain ⟨d, s₁, _, hdraw, rfl, hcalls⟩ := Trace.act_done h
  obtain ⟨answer, s₂, _, hexec, rfl, hend⟩ := Trace.act_done hcalls
  have hdraw' : Raced cfg Cluster.Unlost s (.outside .draw) d s₁ :=
    hdraw.mono fun _ _ => trivial
  cases answer with
  | error e => exact nomatch (Trace.of_done hend).2.2
  | ok job =>
      obtain ⟨rfl, rfl, _⟩ := Trace.of_done hend
      obtain ⟨s₀, hlater, hreach, hrun, _⟩ := hexec
      have hwon := transition_unlost hrun rfl
      exact .cons hdraw' (.cons ⟨s₀, hlater, hreach, hrun, hwon⟩ (.nil _ _))

theorem collected_heeds (j : JobId) (outcome : JobOutcome) (snap : JobSchedulingSnapshot) :
    Heeds cfg (Reconciler.collected j outcome snap) := by
  unfold Reconciler.collected
  split
  · refine (finalizerTransition_heeds _ _ _ _ _ _).andThen fun _ => ?_
    refine (heeds_of_aside (aside_of_plain (snapshot_plain j))).andThen fun found => ?_
    cases found with
    | none =>
        refine heeds_of_aside ?_
        exact .lift ⟨trivial, fun r => nomatch r⟩
    | some refreshed =>
        refine heeds_of_aside ?_
        trivial
  · refine heeds_of_aside ?_
    trivial

/-- **Won.** A pass that returns has lost no update. -/
theorem heeds_rules (rounds : Nat) : PassRules rounds fun _ p => Heeds cfg p where
  andThen := Heeds.andThen
  steady := heeds_of_steady
  collected := collected_heeds
  edge := finalizerTransition_heeds
  acknowledge j := heeds_of_aside (acknowledgeCancelled_aside rounds j)

end Heeds

/-! ## Lost -/

/-- What the finalizer relies on: a valid transition is made, and what is found under the key
of an exhausted attempt is its letter. -/
def Action.Fits : (x : Action) → x.Res → Prop
  | .call (.transitionJobState _ source target evidence none _ _), r =>
      validateTransition source target evidence = .ok () → r.isOk = true
  | .query (.outboxMessage key), r => ∀ marker j a, r = .ok (some marker) →
      key = exhaustionEventKey j a → isMatchingExhaustionMarker marker j a = true
  | _, _ => True

/-- The answers a pass gets that loses no update. -/
def Action.Wins (x : Action) (r : x.Res) : Prop := x.succeeds r = true ∧ x.Fits r

/-- A transition that is not lost is made. -/
theorem transition_wins {cfg : Config} {s s' : Cluster} {j : JobId} {source target : JobState}
    {evidence : TransitionEvidence} {payload : List (String × EventValue)} {eventId : JobEventId}
    {r : Except RepositoryError Job}
    (h : (machine cfg).Exec s
      (.call (.transitionJobState j source target evidence none payload eventId)) r s')
    (hsucceeds : Action.succeeds (.call (.transitionJobState j source target evidence none payload
      eventId)) r = true)
    (hwon : s.Unlost (.call (.transitionJobState j source target evidence none payload eventId)))
    (hvalid : validateTransition source target evidence = .ok ()) : r.isOk = true := by
  obtain ⟨row, hrow, hstate, hpending⟩ := hwon
  have hok (e : SqlxError) : r ≠ .error (.sqlx e) := by
    rintro rfl
    cases hsucceeds
  rcases exec_call h with ⟨_, hlost⟩ | ⟨t, answer, hcall, hanswer⟩
  · exact absurd hlost (hok _)
  obtain rfl : r = answer := hanswer.resolve_right (hok _)
  obtain ⟨hcall, _⟩ := execute_eq hcall
  have hguard : transitionGuard source evidence none t row = true :=
    transitionGuard_iff.mpr ⟨hstate, Or.inr hpending, fun _ hnone => nomatch hnone⟩
  cases r with
  | ok job => rfl
  | error e =>
      rcases Tx.exec_cases _ s.db with ⟨out, db', _, he⟩ | ⟨e', hfail, he⟩
      · cases (Prod.mk.inj (he.symm.trans hcall)).1
      · obtain ⟨e₀, he₀⟩ := transitionJobState_sqlx _ _ hvalid hrow hguard e' hfail
        subst he₀
        exact absurd (Prod.mk.inj (he.symm.trans hcall)).1.symm (hok e₀)

theorem Raced.wins {cfg : Config} {s s' : Cluster} {x : Action} {r : x.Res}
    (h : Raced cfg Cluster.Unlost s x r s') (hsucceeds : x.succeeds r = true) : x.Wins r := by
  obtain ⟨s₁, _, hreach, hexec, hwon⟩ := h
  refine ⟨hsucceeds, ?_⟩
  unfold Action.Fits
  split
  · exact transition_wins hexec hsucceeds hwon
  · next key r =>
      intro marker j a hr hkey
      subst hkey hr
      obtain ⟨_, hread⟩ := exec_query hexec
      have hread := (hread.resolve_right fun hlost => nomatch hlost).symm
      obtain ⟨hmessage, _⟩ := Tx.read_commits.mp (Tx.commits_of_exec (Prod.ext hread rfl))
      obtain ⟨message, hm, rfl⟩ := Option.map_eq_some_iff.mp hmessage
      exact ((marked_invariant _ _ hreach).marker j a message hm).1
  · trivial

section Fails

variable {cfg : Config}

theorem query_wins (q : Query) :
    Fails Action.Wins ReconcilerError.IsDlq (.try_ (act (.query q)) .repository) :=
  (query_fails q).anti fun _ _ hx => hx.1

/-- A valid edge of the finalizer is made. -/
theorem finalizerTransition_fails {j : JobId} {source target : JobState} {outcome : JobOutcome}
    {cleanup : Bool} {payload : List (String × EventValue)}
    (hvalid : validateTransition source target ⟨some outcome, true, cleanup⟩ = .ok ()) :
    Fails Action.Wins ReconcilerError.IsDlq
      (Reconciler.finalizerTransition j source target outcome cleanup payload) := by
  refine .andThen (.try_ (.bind (Ends.trivial _) fun d _ => ?_)) fun _ => .pure ()
  intro r hr e he
  have hok := hr.2 hvalid
  rw [show r = .error e from he] at hok
  cases hok

theorem collected_fails {j : JobId} {outcome : JobOutcome} (snap : JobSchedulingSnapshot)
    (houtcome : outcome = .cancelled ∨ outcome = .infraFailed) :
    Fails Action.Wins ReconcilerError.IsDlq (Reconciler.collected j outcome snap) := by
  unfold Reconciler.collected
  split
  · refine .andThen (finalizerTransition_fails (leader_edge houtcome).1) fun _ => ?_
    refine .andThen (query_wins _) fun found => ?_
    cases found with
    | none => exact .lift _
    | some refreshed => exact .pure _
  · exact .pure _

theorem ended_fails {rounds : Nat} {j : JobId} {outcome : JobOutcome}
    (snap : JobSchedulingSnapshot) (houtcome : outcome = .cancelled ∨ outcome = .infraFailed) :
    Fails Action.Wins ReconcilerError.IsDlq (Reconciler.ended cfg rounds j outcome snap) := by
  unfold Reconciler.ended
  split
  · exact .pure _
  · refine .andThen (finalizerTransition_fails (leader_edge houtcome).2) fun _ => ?_
    split
    · exact .andThen (acknowledgeCancelled_fails _ rounds j) fun _ => .pure true
    · exact .andThen (retireExhausted_fails _ cfg snap) fun _ => .pure true

theorem finalizeJob_fails (rounds : Nat) (j : JobId) :
    Fails Action.Wins ReconcilerError.IsDlq (Reconciler.finalizeJob cfg rounds j) := by
  rw [finalizeJob_eq]
  refine .andThen (query_wins _) fun found => ?_
  cases found with
  | none => exact .pure _
  | some snap =>
      simp only
      split
      · next outcome _ _ =>
          cases outcome with
          | cancelled =>
              exact .andThen (collected_fails snap (Or.inl rfl)) fun snap' =>
                ended_fails snap' (Or.inl rfl)
          | infraFailed =>
              exact .andThen (collected_fails snap (Or.inr rfl)) fun snap' =>
                ended_fails snap' (Or.inr rfl)
          | passed | failed | timedOut => exact .pure _
      · exact .pure _

theorem finalizeAll_fails (rounds : Nat) (kept ids : List JobId) (n : Nat) :
    Fails Action.Wins ReconcilerError.IsDlq
      (Reconciler.finalizeAll cfg rounds kept ids n) := by
  induction ids generalizing n with
  | nil => exact .pure n
  | cons j rest ih =>
      unfold Reconciler.finalizeAll
      split
      · exact ih n
      · exact .andThen (finalizeJob_fails rounds j) fun done => ih _

/-- What is found under the key of an exhausted attempt is its letter. -/
theorem retireAll_fails (pending : List (JobId × LeaseGuard)) :
    Fails Action.Wins ReconcilerError.IsDlq (Reconciler.retireAll cfg pending) := by
  induction pending with
  | nil => exact .pure ()
  | cons head rest ih =>
      obtain ⟨j, lease⟩ := head
      refine .andThen (query_wins _) fun found => ?_
      cases found with
      | none => exact ih
      | some snap =>
          simp only
          split
          · exact ih
          · refine Ends.bind (P := fun r => ∃ found, r = .ok found ∧ ∀ marker ∈ found,
              isMatchingExhaustionMarker marker j snap.deliveryAttempts = true) ?_ fun r hr => ?_
            · intro r hr
              cases r with
              | error e => cases hr.1
              | ok found =>
                  refine ⟨found, rfl, fun marker hm => ?_⟩
                  obtain rfl := hm
                  exact hr.2 marker j snap.deliveryAttempts rfl rfl
            · obtain ⟨found, rfl, hmatch⟩ := hr
              cases found with
              | none => exact ih
              | some marker =>
                  simp only [hmatch marker rfl, Bool.not_true, Bool.false_eq_true, if_false]
                  split
                  · exact ih
                  · refine Fails.andThen (.attempt _) fun taken => ?_
                    have hrest : Fails Action.Wins ReconcilerError.IsDlq (do
                        let _ ← act (.memory (.exhaustedRemove j))
                        Reconciler.retireAll cfg rest : TaskOr ReconcilerError Unit) :=
                      .andThen (.lift _) fun _ => ih
                    cases taken with
                    | ok b => exact .andThen (.try_of _ fun e => ⟨e, rfl⟩) fun _ => hrest
                    | error e => exact hrest

/-- **Lost.** A pass that loses no update fails only in its dead letters. -/
theorem runOnce_fails (cfg : Config) (rounds : Nat) :
    Fails Action.Wins ReconcilerError.IsDlq (Reconciler.runOnce cfg rounds) := by
  have hafter : Fails Action.Wins ReconcilerError.IsDlq (Reconciler.wrapUp cfg) := by
    refine .andThen (.try_ fun r hr e he => ?_) fun _ => ?_
    · have hok := hr.1
      subst he
      cases hok
    · refine .andThen (.try_of _ fun e => ⟨e, rfl⟩) fun _ => ?_
      exact .andThen (.lift _) fun pending => retireAll_fails pending
  rw [runOnce_eq]
  refine Ends.bind ((survey_ends cfg).anti fun _ _ hx => hx.1) fun r hr => ?_
  obtain ⟨kept, rfl⟩ := hr
  have hready : Fails Action.Wins ReconcilerError.IsDlq
      (Reconciler.finalizeReadyJobs cfg rounds kept) :=
    .andThen (query_wins _) fun ids => finalizeAll_fails rounds kept ids 0
  exact Fails.andThen hready fun _ => hafter

end Fails

/-! ## Stops -/

theorem Raced.keepsJobs {cfg : Config} (φ : Cluster → Action → Prop) :
    KeepsJobs cfg (Raced cfg φ) := by
  rintro s x r s' ⟨s₁, hlater, _, hexec, _⟩
  exact ⟨s₁, hexec, fun _ hj => hlater.db.present hj⟩

theorem Raced.unsettled_iff {cfg : Config} {φ : Cluster → Action → Prop} {s s' : Cluster}
    {x : Action} {r : x.Res} (h : Raced cfg φ s x r s') :
    Raced cfg (fun s x => φ s x ∧ s.Unsettled x) s x r s' ↔ ¬ Step.Settles ⟨x, r⟩ := by
  constructor
  · rintro ⟨s₁, _, _, hexec, _, hunsettled⟩
    exact (exec_unsettled hexec).mp hunsettled
  · intro hunsettled
    obtain ⟨s₁, hlater, hreach, hexec, hφ⟩ := h
    exact ⟨s₁, hlater, hreach, hexec, hφ, (exec_unsettled hexec).mpr hunsettled⟩

/-- **Stops.** A pass that settles nothing comes to a stop only when `rounds` bindings replaced a
confirmed one. -/
theorem races_stop {cfg : Config} {rounds : Nat} (φ : Cluster → Action → Prop) :
    Stops (Raced cfg fun s x => φ s x ∧ s.Unsettled x)
      (fun steps => rounds ≤ steps.countP Step.rebound) (Reconciler.runOnce cfg rounds) := by
  have hack : ∀ j, Stops (Raced cfg fun s x => φ s x ∧ s.Unsettled x)
      (fun steps => rounds ≤ steps.countP Step.rebound)
      (Reconciler.acknowledgeCancelled rounds j) := by
    refine acknowledgeCancelled_stops fun s x r s' h => ?_
    exact (h.mono fun _ hx => hx.1 : Raced cfg φ s x r s').unsettled_iff.mp h
  refine (stops_rules (fun before after h => ?_) (Raced.keepsJobs _) hack).runOnce
  rw [List.countP_append]
  exact Nat.le_add_left_of_le h

end RunAnywhere
