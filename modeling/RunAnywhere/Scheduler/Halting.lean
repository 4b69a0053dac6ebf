import RunAnywhere.Scheduler.Finalizing

/-!
# How a pass halts

A pass is done, or it comes to a stop it does not leave (`Halted`); every other action can be
performed. It stops for two reasons:

* **its own guard** — a pass that ended a job whose cancellation is pending holds the guard of
  the pending cancellations while it acknowledges the source. When that acknowledgement comes
  to an end (`Step.Settles`) the pass waits for the guard it holds. So a pass that is done has
  settled nothing (`unsettling_rules`), and a state in which nothing is settled is
  `Cluster.Unsettled`;
* **rounds** — a binding replaced the confirmed one in each round of the acknowledgement loop.

There is no other stop (`stops_rules`). What holds of the parts of a pass holds of the pass
(`PassRules`).
-/

namespace RunAnywhere

open Logic Prog

/-- The program is done, or does not go on. -/
def Halted {α : Type} : Task α → Prop
  | .done _ => True
  | .act x _ => x = .stop

theorem halted_cases {α : Type} {q : Task α} (h : Halted q) :
    (∃ a, q = .done a) ∨ ∃ k, q = .act .stop k := by
  cases q with
  | done a => exact Or.inl ⟨a, rfl⟩
  | act x k =>
      obtain rfl : x = .stop := h
      exact Or.inr ⟨k, rfl⟩

/-- An action that is no stop can be performed. -/
theorem Action.performs (s : Cluster) {x : Action} (h : x ≠ .stop) :
    ∃ c r, x.perform s c = some r := by
  cases x with
  | query q => exact ⟨{}, _, rfl⟩
  | call op => exact ⟨{ fate := .failure }, _, rfl⟩
  | stream y => exact ⟨{}, _, rfl⟩
  | memory y => exact ⟨{}, _, rfl⟩
  | outside y => exact ⟨{}, _, rfl⟩
  | stop => exact absurd rfl h

/-- A thread that is not halted goes on. -/
theorem thread_goes_on {cfg : Config} {p : Pool Cluster Action Action.Res Request Report}
    {th : Thread Cluster Action Action.Res Request Report} (hth : th ∈ p.threads)
    (h : ¬ Halted th.rest) :
    ∃ n c p', p.threads[n]? = some th ∧ (machine cfg).next p (.act n c) = some p' := by
  obtain ⟨n, hn⟩ := List.mem_iff_getElem?.mp hth
  obtain ⟨tag, birth, rest⟩ := th
  cases rest with
  | done a => exact absurd trivial h
  | act x k =>
      obtain ⟨c, r, hperform⟩ := Action.performs p.state (x := x) h
      refine ⟨n, c, ⟨r.2, p.threads.set n ⟨tag, birth, k r.1⟩⟩, hn, ?_⟩
      have hmachine : (machine cfg).perform p.state x c = some r := hperform
      simp only [Machine.next, hn, hmachine, Option.map_some]

/-! ## The end of an acknowledgement -/

/-- With this answer an acknowledgement comes to an end: the binding is missing, or it was
confirmed. -/
def Step.Settles : Step → Prop
  | ⟨.memory (.binding _ _ _), r⟩ => ∃ k, r = .error (.missing k)
  | ⟨.memory (.settle _ _ _ _), r⟩ => r = .ok none ∨ ∃ k, r = .error (.missing k)
  | _ => False

/-- The state in which an acknowledgement does not come to an end: the registry has a binding of
the job, and it is not the one that was confirmed. -/
def Cluster.Unsettled (s : Cluster) : Action → Prop
  | .memory (.binding j _ _) => ∃ b, s.memory.registry.get? j = some b
  | .memory (.settle j w l confirmed) => ∃ b, s.memory.registry.get? j = some b ∧
      ¬ (b.isFor w l = true ∧ b.streamSequence = confirmed)
  | _ => True

theorem binding_missing_iff {m : LeaderMemory} {j : JobId} {w : WorkerId} {l : LeaseId} :
    (∃ k, m.binding j w l = .error (.missing k)) ↔ m.registry.get? j = none := by
  unfold LeaderMemory.binding
  cases m.registry.get? j with
  | none => simp
  | some b =>
      simp only [reduceCtorEq, iff_false]
      split
      · simp
      · simp

theorem settle_ends_iff {m : LeaderMemory} {j : JobId} {w : WorkerId} {l : LeaseId} {n : Nat} :
    (((MemoryCall.settle j w l n).run m).1 = .ok none ∨
      ∃ k, ((MemoryCall.settle j w l n).run m).1 = .error (.missing k)) ↔
        ∀ b, m.registry.get? j = some b → b.isFor w l = true ∧ b.streamSequence = n := by
  simp only [MemoryCall.run]
  cases m.registry.get? j with
  | none => simp
  | some b =>
      simp only [Option.some.injEq, forall_eq']
      split
      · next hfor =>
          split
          · next hsame => simp [hfor, hsame]
          · next hother => simp [hother]
      · next hother => simp [hother]

/-- The answer to an action tells whether it settled. -/
theorem exec_unsettled {cfg : Config} {s s' : Cluster} {x : Action} {r : x.Res}
    (h : (machine cfg).Exec s x r s') : s.Unsettled x ↔ ¬ Step.Settles ⟨x, r⟩ := by
  cases x with
  | memory y =>
      obtain ⟨hr, _⟩ := exec_memory h
      subst hr
      cases y with
      | binding j w l =>
          show (∃ b, s.memory.registry.get? j = some b) ↔
            ¬ ∃ k, s.memory.binding j w l = .error (.missing k)
          rw [binding_missing_iff, ← ne_eq, Option.ne_none_iff_exists']
      | settle j w l n =>
          show (∃ b, s.memory.registry.get? j = some b ∧ _) ↔ ¬ (_ ∨ _)
          rw [settle_ends_iff]
          push Not
          exact Iff.rfl
      | _ => exact iff_of_true trivial id
  | _ => exact iff_of_true trivial id

section Confirm

variable {exec : Cluster → (x : Action) → x.Res → Cluster → Prop} {s s' : Cluster}
  {steps : List Step} {j : JobId} {w : WorkerId} {l : LeaseId} {rounds : Nat}

/-- The source is still to be acknowledged: the acknowledgement came to an error other than a
missing binding. -/
def AckPending : Except AckRegistryError Unit → Prop
  | .ok _ | .error (.missing _) => False
  | .error _ => True

theorem ackPending_error_iff {e : AckRegistryError} :
    AckPending (.error e) ↔ ¬ ∃ k, e = .missing k := by
  cases e with
  | missing k => simp [AckPending]
  | staleLease k => simp [AckPending]
  | jetStream text => simp [AckPending]

theorem binding_error_settles {e : AckRegistryError} :
    Step.Settles ⟨.memory (.binding j w l), .error e⟩ ↔ ∃ k, e = .missing k := by
  simp [Step.Settles]

theorem settle_error_settles {n : Nat} {e : AckRegistryError} :
    Step.Settles ⟨.memory (.settle j w l n), .error e⟩ ↔ ∃ k, e = .missing k := by
  simp [Step.Settles]

/-- An acknowledgement that returns has settled something, or is pending. -/
theorem confirmLoop_pending {b : AckBinding} {r : Except AckRegistryError Unit}
    (h : (AckRegistry.confirmLoop j w l rounds b).Trace exec s steps s' (.done r)) :
    AckPending r ↔ ∀ step ∈ steps, ¬ step.Settles := by
  induction rounds generalizing b s steps with
  | zero =>
      obtain ⟨e, _⟩ := Trace.act_done h
      exact e.elim
  | succ rounds ih =>
      unfold AckRegistry.confirmLoop at h
      rcases h.andThen_done with ⟨e, rfl, hack⟩ | ⟨_, s₁, before, rest, hack, hsettle, rfl⟩
      · -- the exchange failed
        obtain ⟨answer, hanswer, hstream⟩ := Trace.map_done hack
        obtain ⟨_, rfl⟩ := Trace.perform_done hstream
        cases answer with
        | ok u => cases hanswer
        | error text =>
            obtain rfl := Except.error.inj hanswer
            exact iff_of_true trivial (List.forall_mem_singleton.mpr id)
      obtain ⟨answer, _, hstream⟩ := Trace.map_done hack
      obtain ⟨_, rfl⟩ := Trace.perform_done hstream
      have hbefore : ¬ Step.Settles ⟨.stream (.doubleAck b.streamSequence), answer⟩ := id
      rcases hsettle.andThen_done with
        ⟨e, rfl, hone⟩ | ⟨found, s₂, settled, after, hone, hafter, rfl⟩
      · obtain ⟨_, rfl⟩ := Trace.perform_done hone
        rw [ackPending_error_iff, List.singleton_append, List.forall_mem_cons,
          List.forall_mem_singleton, settle_error_settles]
        exact (and_iff_right hbefore).symm
      obtain ⟨_, rfl⟩ := Trace.perform_done hone
      cases found with
      | none =>
          obtain ⟨_, _, hr⟩ := Trace.of_done hafter
          obtain rfl := Prog.done.inj hr
          refine iff_of_false id fun hall => ?_
          exact hall _ (List.mem_cons_of_mem _ List.mem_cons_self) (Or.inl rfl)
      | some current =>
          have hsettled : ¬ Step.Settles ⟨.memory (.settle j w l b.streamSequence),
              .ok (some current)⟩ := by
            rintro (hnone | ⟨_, hmissing⟩)
            · cases hnone
            · cases hmissing
          refine (ih hafter).trans ?_
          simp only [List.singleton_append, List.forall_mem_cons, hbefore, hsettled,
            not_false_eq_true, true_and]

theorem confirmAck_pending {r : Except AckRegistryError Unit}
    (h : (AckRegistry.confirmAck rounds j w l).Trace exec s steps s' (.done r)) :
    AckPending r ↔ ∀ step ∈ steps, ¬ step.Settles := by
  rcases h.andThen_done with ⟨e, rfl, hread⟩ | ⟨b, s₁, before, after, hread, hloop, rfl⟩
  · obtain ⟨_, rfl⟩ := Trace.perform_done hread
    rw [List.forall_mem_singleton, ackPending_error_iff, binding_error_settles]
  · obtain ⟨_, rfl⟩ := Trace.perform_done hread
    have hfound : ¬ Step.Settles ⟨.memory (.binding j w l), .ok b⟩ := by
      rintro ⟨_, hmissing⟩
      cases hmissing
    refine (confirmLoop_pending hloop).trans ?_
    simp only [List.singleton_append, List.forall_mem_cons, hfound, not_false_eq_true, true_and]

/-- **Its own guard.** A pass that goes on after an ended job has settled nothing. -/
theorem acknowledgeCancelled_unsettling {r : Except ReconcilerError Unit}
    (h : (Reconciler.acknowledgeCancelled rounds j).Trace exec s steps s' (.done r)) :
    ∀ step ∈ steps, ¬ step.Settles := by
  rw [acknowledgeCancelled_eq] at h
  rcases h.andThen_done with ⟨e, rfl, hread⟩ | ⟨lease?, s₁, before, after, hread, hrest, rfl⟩
  · obtain ⟨_, hr, _⟩ := Trace.map_done hread
    cases hr
  obtain ⟨answer, _, hget⟩ := Trace.map_done hread
  obtain ⟨_, rfl⟩ := Trace.perform_done hget
  have hbefore : ¬ Step.Settles ⟨.memory (.cancellationGet j), answer⟩ := id
  cases lease? with
  | none =>
      obtain ⟨rfl, _, _⟩ := Trace.of_done hrest
      exact List.forall_mem_singleton.mpr hbefore
  | some lease =>
      rcases Trace.andThen_done hrest with
        ⟨e, _, hconfirm⟩ | ⟨r', s₂, acked, last, hconfirm, hlast, rfl⟩
      · obtain ⟨_, hr, _⟩ := Trace.map_done hconfirm
        cases hr
      obtain ⟨r'', hr, hack⟩ := Trace.map_done hconfirm
      obtain rfl := Except.ok.inj hr
      have hpending : AckPending r' ∧ last = [] := by
        cases r' with
        | ok u =>
            obtain ⟨e, _⟩ := Trace.act_done hlast
            exact e.elim
        | error e =>
            cases e with
            | missing k =>
                obtain ⟨e, _⟩ := Trace.act_done hlast
                exact e.elim
            | staleLease k => exact ⟨trivial, (Trace.of_done hlast).1⟩
            | jetStream text => exact ⟨trivial, (Trace.of_done hlast).1⟩
      obtain ⟨hpending, rfl⟩ := hpending
      rw [List.append_nil, List.singleton_append, List.forall_mem_cons]
      exact ⟨hbefore, (confirmAck_pending hack).mp hpending⟩

end Confirm

/-! ## The parts of a pass -/

section Parts

variable {cfg : Config}

theorem snapshot_plain (j : JobId) : All Action.Plain (Reconciler.snapshot j) :=
  .try_ (.perform trivial)

/-- The inventory and the removals. -/
theorem reconcileRuntimes_steady (cfg : Config) (at_ : Time) :
    All Action.Steady (Reconciler.reconcileRuntimes cfg at_) := by
  have heach (resources : List RuntimeResource) (remaining : List JobId) :
      All Action.Steady (Reconciler.reconcileEach cfg at_ resources remaining) := by
    induction resources generalizing remaining with
    | nil => trivial
    | cons resource rest ih =>
        refine .bind (.bind (.perform trivial) fun out => ?_) fun ownership => ?_
        · repeat' split
          all_goals trivial
        refine .bind (.perform trivial) fun unsafeSince => ?_
        split
        · refine .bind (.perform trivial) fun answer => ?_
          split
          · exact .bind (.perform trivial) fun _ => ih _
          · exact .bind (.perform trivial) fun _ => ih _
          · exact ih _
          · exact ih _
        all_goals exact ih _
  refine .andThen (.try_ (.perform trivial)) fun resources => ?_
  refine .andThen (.lift (heach resources [])) fun remaining => ?_
  exact .andThen (.lift (.perform trivial)) fun _ => trivial

theorem survey_steady (cfg : Config) : All Action.Steady (Reconciler.survey cfg) := by
  refine .andThen (.lift (.perform trivial)) fun at_ => ?_
  refine .andThen (.try_ (.perform trivial)) fun stale => ?_
  refine .andThen ((recoverAll_calm cfg stale).mono fun _ hx => hx.steady) fun _ => ?_
  exact .attempt (reconcileRuntimes_steady cfg at_)

theorem wrapUp_steady (cfg : Config) : All Action.Steady (Reconciler.wrapUp cfg) :=
  (afterRuntimes_plain cfg).mono fun _ hx => hx.steady

/-- An edge of the finalizer confirms nothing and comes to no stop. -/
theorem finalizerTransition_all (j : JobId) (source target : JobState) (outcome : JobOutcome)
    (cleanup : Bool) (payload : List (String × EventValue)) :
    All (fun x => ¬ x.Confirms ∧ x ≠ .stop)
      (Reconciler.finalizerTransition j source target outcome cleanup payload) :=
  .andThen (.try_ (.bind (.perform ⟨id, nofun⟩) fun _ => .perform ⟨id, nofun⟩)) fun _ => trivial

/-- The letter of an exhausted job is valid. -/
theorem exhausted_letter (j : JobId) (project : ProjectId) (n : Nat) (at_ : Time) :
    JobDeadLetter.new (some j) (some project) none (max n 1) .attemptsExhausted at_ =
      .ok ⟨some j, some project, none, max n 1, .attemptsExhausted, at_⟩ := by
  have hpos : ¬ max n 1 = 0 := by omega
  simp [JobDeadLetter.new, JobDeadLetter.validate, hpos]

theorem retireExhausted_steady (snap : JobSchedulingSnapshot) :
    All Action.Steady (Reconciler.retireExhausted cfg snap) := by
  have hplain {γ : Type} {p : Task γ} (h : All Action.Plain p) : All Action.Steady p :=
    h.mono fun _ hx => hx.steady
  refine .andThen (.lift (.perform trivial)) fun at_ => ?_
  rw [exhausted_letter]
  refine .andThen trivial fun deadLetter => ?_
  refine .andThen (.try_ (hplain (ensurePublished_plain _ _ _))) fun _ => ?_
  refine .andThen (.lift (.perform trivial)) fun lease? => ?_
  cases lease? with
  | none => trivial
  | some lease =>
      refine .andThen (.attempt (.perform trivial)) fun r => ?_
      cases r with
      | ok b => exact .try_ (hplain (retireDelivery_plain b))
      | error e => trivial

end Parts

/-- A property of programs that the parts of a pass have: the steady ones, the two edges of the
finalizer and the acknowledgement of a cancelled job. -/
structure PassRules (rounds : Nat) (P : (α : Type) → TaskOr ReconcilerError α → Prop) : Prop where
  andThen : ∀ {α β : Type} {p : TaskOr ReconcilerError α} {f : α → TaskOr ReconcilerError β},
    P α p → (∀ a, P β (f a)) → P β (p >>= f)
  steady : ∀ {α : Type} {p : TaskOr ReconcilerError α}, All Action.Steady p → P α p
  collected : ∀ j outcome snap, P _ (Reconciler.collected j outcome snap)
  edge : ∀ j source target outcome cleanup payload,
    P _ (Reconciler.finalizerTransition j source target outcome cleanup payload)
  acknowledge : ∀ j, P _ (Reconciler.acknowledgeCancelled rounds j)

section PassRules

variable {cfg : Config} {rounds : Nat} {P : (α : Type) → TaskOr ReconcilerError α → Prop}

theorem PassRules.finalizeJob (h : PassRules rounds P) (j : JobId) :
    P _ (Reconciler.finalizeJob cfg rounds j) := by
  have hdone (b : Bool) : P _ (pure b) := h.steady (p := pure b) trivial
  have hended (o : JobOutcome) (snap : JobSchedulingSnapshot) :
      P _ (Reconciler.ended cfg rounds j o snap) := by
    unfold Reconciler.ended
    split
    · exact hdone false
    · refine h.andThen (h.edge _ _ _ _ _ _) fun _ => ?_
      split
      · exact h.andThen (h.acknowledge j) fun _ => hdone true
      · exact h.andThen (h.steady (retireExhausted_steady snap)) fun _ => hdone true
  rw [finalizeJob_eq]
  refine h.andThen (h.steady ((snapshot_plain j).mono fun _ hx => hx.steady)) fun found => ?_
  cases found with
  | none => exact hdone false
  | some snap =>
      simp only
      split
      · next outcome _ _ =>
          cases outcome with
          | cancelled | infraFailed =>
              exact h.andThen (h.collected j _ snap) fun snap' => hended _ snap'
          | passed | failed | timedOut => exact hdone false
      · exact hdone false

theorem PassRules.finalizeAll (h : PassRules rounds P) (kept ids : List JobId) (n : Nat) :
    P _ (Reconciler.finalizeAll cfg rounds kept ids n) := by
  induction ids generalizing n with
  | nil => exact h.steady (p := pure n) trivial
  | cons j rest ih =>
      unfold Reconciler.finalizeAll
      split
      · exact ih n
      · exact h.andThen (h.finalizeJob j) fun _ => ih _

/-- A pass after the inventory. -/
theorem PassRules.conclude (h : PassRules rounds P) (runtimes : Except String (List JobId)) :
    P _ (Reconciler.conclude cfg rounds runtimes) := by
  have hafter : P _ (Reconciler.wrapUp cfg) := h.steady (wrapUp_steady cfg)
  cases runtimes with
  | error e => exact hafter
  | ok kept =>
      have hscan : All Action.Steady (Routine.try_ (act (.query (.finalizableJobs
        Reconciler.batch))) ReconcilerError.repository) := .try_ (.perform trivial)
      have hready : P _ (Reconciler.finalizeReadyJobs cfg rounds kept) :=
        h.andThen (h.steady hscan) fun ids => h.finalizeAll kept ids 0
      exact h.andThen hready fun _ => hafter

/-- **A pass** has a property that its parts have. -/
theorem PassRules.runOnce (h : PassRules rounds P) : P _ (Reconciler.runOnce cfg rounds) := by
  rw [runOnce_eq]
  exact h.andThen (h.steady (survey_steady cfg)) h.conclude

end PassRules

/-! ## A pass that is done -/

/-- A run of the part that is done has settled nothing. -/
def Unsettling {α : Type} (exec : Cluster → (x : Action) → x.Res → Cluster → Prop)
    (p : Task α) : Prop :=
  ∀ s steps s' r, p.Trace exec s steps s' (.done r) → ∀ step ∈ steps, ¬ Step.Settles step

section Unsettling

variable {exec : Cluster → (x : Action) → x.Res → Cluster → Prop} {cfg : Config} {rounds : Nat}
  {ε α β : Type}

theorem Step.Settles.confirms {step : Step} (h : step.Settles) : step.1.Confirms := by
  unfold Step.Settles at h
  split at h
  · trivial
  · trivial
  · cases h

theorem unsettling_of_all {p : Task α} (hp : All (fun x => ¬ x.Confirms) p) :
    Unsettling exec p :=
  fun _ _ _ _ h step hs hsettles => hp.steps h.path step hs hsettles.confirms

theorem unsettling_of_steady {p : Task α} (hp : All Action.Steady p) : Unsettling exec p :=
  unsettling_of_all (hp.mono fun _ hx => hx.not_confirms)

theorem unsettling_done (r : α) : Unsettling exec (.done r : Task α) :=
  unsettling_of_all trivial

theorem Unsettling.andThen {p : TaskOr ε α} {f : α → TaskOr ε β} (hp : Unsettling exec p)
    (hf : ∀ a, Unsettling exec (f a)) : Unsettling exec (p >>= f : TaskOr ε β) := by
  intro s steps s' r h
  rcases h.andThen_done with ⟨e, _, herror⟩ | ⟨a, s₁, before, after, hfirst, hsecond, rfl⟩
  · exact hp _ _ _ _ herror
  · exact List.forall_mem_append.mpr ⟨hp _ _ _ _ hfirst, hf a _ _ _ _ hsecond⟩

/-- **Its own guard.** A pass that is done has settled nothing. -/
theorem unsettling_rules : PassRules rounds fun _ p => Unsettling exec p where
  andThen := Unsettling.andThen
  steady := unsettling_of_steady
  collected j outcome snap := by
    unfold Reconciler.collected
    split
    · refine Unsettling.andThen (unsettling_of_all ((finalizerTransition_all _ _ _ _ _ _).mono
        fun _ hx => hx.1)) fun _ => ?_
      refine (unsettling_of_steady ((snapshot_plain j).mono fun _ hx => hx.steady)).andThen
        fun found => ?_
      cases found with
      | none => exact unsettling_of_all (.lift ⟨id, fun e => e.elim⟩)
      | some refreshed => exact unsettling_done _
    · exact unsettling_done _
  edge _ _ _ _ _ _ := unsettling_of_all ((finalizerTransition_all _ _ _ _ _ _).mono
    fun _ hx => hx.1)
  acknowledge _ _ _ _ _ h := acknowledgeCancelled_unsettling h

end Unsettling

/-! ## A pass that stops -/

/-- Another binding replaced the one that was confirmed. -/
def Step.rebound : Step → Bool
  | ⟨.memory (.settle _ _ _ _), r⟩ =>
      match r with
      | .ok (some _) => true
      | _ => false
  | _ => false

/-- The part comes to a stop only by steps that satisfy `B`. -/
def Stops {α : Type} (exec : Cluster → (x : Action) → x.Res → Cluster → Prop)
    (B : List Step → Prop) (p : Task α) : Prop :=
  ∀ s steps s' k, p.Trace exec s steps s' (.act .stop k) → B steps

/-- An action is performed by the machine, at once or after others ran who keep the jobs. -/
def KeepsJobs (cfg : Config) (exec : Cluster → (x : Action) → x.Res → Cluster → Prop) : Prop :=
  ∀ s x r s', exec s x r s' → ∃ s₁, (machine cfg).Exec s₁ x r s' ∧
    ∀ j, (s.db.job? j).isSome = true → (s₁.db.job? j).isSome = true

section Stops

variable {exec : Cluster → (x : Action) → x.Res → Cluster → Prop} {B : List Step → Prop}
  {cfg : Config} {rounds : Nat} {ε α β : Type}

theorem stops_of_all {p : Task α} (hp : All (· ≠ .stop) p) : Stops exec B p :=
  fun _ _ _ _ h => absurd rfl (hp.path h.path)

theorem stops_of_steady {p : Task α} (hp : All Action.Steady p) : Stops exec B p := by
  refine stops_of_all (hp.mono fun x hx => ?_)
  rintro rfl
  exact hx

theorem stops_done (a : α) : Stops exec B (.done a : Task α) := stops_of_all trivial

/-- The job of a transition is there when the finalizer reads it again. -/
theorem collected_stops (hexec : KeepsJobs cfg exec) (j : JobId) (outcome : JobOutcome)
    (snap : JobSchedulingSnapshot) : Stops exec B (Reconciler.collected j outcome snap) := by
  unfold Reconciler.collected
  split
  · intro s steps s' k h
    obtain ⟨_, s₁, before, rest, hedge, hrest, rfl⟩ :=
      h.skip (finalizerTransition_all _ _ _ _ _ _) fun hx => hx.2 rfl
    obtain ⟨found, s₂, read, after, hread, hafter, rfl⟩ :=
      hrest.skip ((snapshot_plain j).mono fun _ hx => hx.steady) id
    cases found with
    | some refreshed =>
        obtain ⟨_, _, hq⟩ := Trace.of_done hafter
        cases hq
    | none =>
        exfalso
        -- the transition stored the row
        obtain ⟨d, s₀, answer, _, hcall, hr⟩ := finalizerTransition_done hedge
        obtain ⟨s₀', hcall, _⟩ := hexec _ _ _ _ hcall
        have hpresent : (s₁.db.job? j).isSome = true := by
          cases answer with
          | error e => cases hr
          | ok job =>
              rcases exec_call hcall with ⟨_, hlost⟩ | ⟨t, answer, hcall, hanswer⟩
              · cases hlost
              · obtain rfl | hlost := hanswer
                · obtain ⟨hcall, _⟩ := execute_eq hcall
                  obtain ⟨_, _, _, _, _, hstored⟩ :=
                    transitionJobState_stores (Tx.commits_of_exec hcall)
                  rw [hstored]
                  rfl
                · cases hlost
        -- and it is kept
        obtain ⟨answer', hanswer', hact⟩ := Trace.map_done hread
        obtain ⟨hquery, _⟩ := Trace.perform_done hact
        obtain ⟨s₁', hquery, hkept⟩ := hexec _ _ _ _ hquery
        obtain ⟨_, hread | hlost⟩ := exec_query hquery
        · have hstill := hkept j hpresent
          cases answer' with
          | error e => cases hanswer'
          | ok out =>
              obtain rfl : none = out := Except.ok.inj hanswer'
              have hcommits := Tx.commits_of_exec (Prod.ext hread.symm rfl)
              rw [(getJobSchedulingSnapshot_commits hcommits).1 rfl] at hstill
              cases hstill
        · rw [hlost] at hanswer'
          cases hanswer'
  · exact stops_done _

theorem Stops.andThen (hB : ∀ before after, B after → B (before ++ after)) {p : TaskOr ε α}
    {f : α → TaskOr ε β} (hp : Stops exec B p) (hf : ∀ a, Stops exec B (f a)) :
    Stops exec B (p >>= f : TaskOr ε β) := by
  intro s steps s' k h
  rcases h.andThen_act with ⟨k₁, hin⟩ | ⟨a, s₁, before, after, _, hrest, rfl⟩
  · exact hp _ _ _ _ hin
  · exact hB _ _ (hf a _ _ _ _ hrest)

/-- **Stops.** A pass stops only where it acknowledges a cancelled job. -/
theorem stops_rules (hB : ∀ before after, B after → B (before ++ after))
    (hexec : KeepsJobs cfg exec)
    (hack : ∀ j, Stops exec B (Reconciler.acknowledgeCancelled rounds j)) :
    PassRules rounds fun _ p => Stops exec B p where
  andThen := Stops.andThen hB
  steady := stops_of_steady
  collected := collected_stops hexec
  edge _ _ _ _ _ _ := stops_of_all ((finalizerTransition_all _ _ _ _ _ _).mono fun _ hx => hx.2)
  acknowledge := hack

/-- The acknowledgement loop goes round again only for another binding. -/
theorem confirmLoop_stops (j : JobId) (w : WorkerId) (l : LeaseId) (rounds : Nat)
    (b : AckBinding) : Stops exec (fun steps => rounds ≤ steps.countP Step.rebound)
      (AckRegistry.confirmLoop j w l rounds b) := by
  induction rounds generalizing b with
  | zero => exact fun _ _ _ _ _ => Nat.zero_le _
  | succ rounds ih =>
      intro s steps s' k h
      obtain ⟨_, s₁, before, rest, _, hsettle, rfl⟩ :=
        h.skip (φ := Action.Steady) (.try_ (.perform trivial)) id
      obtain ⟨found, s₂, settled, after, hone, hafter, rfl⟩ :=
        hsettle.skip (φ := (· ≠ .stop)) (.perform nofun) (not_not_intro rfl)
      obtain ⟨_, rfl⟩ := Trace.perform_done hone
      cases found with
      | none =>
          obtain ⟨_, _, hq⟩ := Trace.of_done hafter
          cases hq
      | some current =>
          have hrest : rounds ≤ after.countP Step.rebound := ih current _ _ _ _ hafter
          have hone : Step.rebound ⟨.memory (.settle j w l b.streamSequence),
              .ok (some current)⟩ = true := rfl
          rw [List.countP_append, List.countP_append, List.countP_singleton, if_pos hone]
          omega

/-- An acknowledgement that stops or settles. -/
theorem acknowledgeCancelled_act {j : JobId} {s s' : Cluster} {steps : List Step}
    {k : Empty → Task (Except ReconcilerError Unit)}
    (h : (Reconciler.acknowledgeCancelled rounds j).Trace exec s steps s' (.act .stop k)) :
    (∃ lease : LeaseGuard, ∃ s₁ before after k₁, steps = before ++ after ∧
      (AckRegistry.confirmAck rounds j lease.workerId lease.leaseId).Trace exec s₁ after s'
        (.act .stop k₁)) ∨
    ∃ step ∈ steps, Step.Settles step := by
  rw [acknowledgeCancelled_eq] at h
  obtain ⟨lease?, s₁, before, after, hread, hrest, rfl⟩ :=
    h.skip (φ := Action.Steady) (.lift (.perform trivial)) id
  cases lease? with
  | none =>
      obtain ⟨_, _, hq⟩ := Trace.of_done hrest
      cases hq
  | some lease =>
      rcases Trace.andThen_act hrest with ⟨k₁, hin⟩ | ⟨r, s₂, acked, last, hconfirm, hlast, rfl⟩
      · obtain ⟨k₂, hin⟩ := Trace.map_act hin
        exact Or.inl ⟨lease, s₁, before, after, k₂, rfl, hin⟩
      · obtain ⟨r', hr, hack⟩ := Trace.map_done hconfirm
        obtain rfl := Except.ok.inj hr
        by_cases hpending : AckPending r
        · -- a pending acknowledgement is left as it is
          exfalso
          cases r with
          | ok u => exact hpending
          | error e =>
              cases e with
              | missing k => exact hpending
              | staleLease k => cases (Trace.of_done hlast).2.2
              | jetStream text => cases (Trace.of_done hlast).2.2
        · rw [confirmAck_pending hack] at hpending
          push Not at hpending
          obtain ⟨step, hmem, hsettles⟩ := hpending
          exact Or.inr ⟨step, List.mem_append_right _ (List.mem_append_left _ hmem), hsettles⟩

/-- Where nothing is settled, an acknowledgement stops after its rounds. -/
theorem acknowledgeCancelled_stops (hexec : ∀ s x r s', exec s x r s' → ¬ Step.Settles ⟨x, r⟩)
    (j : JobId) : Stops exec (fun steps => rounds ≤ steps.countP Step.rebound)
      (Reconciler.acknowledgeCancelled rounds j) := by
  intro s steps s' k h
  rcases acknowledgeCancelled_act h with ⟨lease, s₁, before, after, k₁, rfl, hack⟩ |
    ⟨step, hmem, hsettles⟩
  · obtain ⟨b, s₂, read, rest, _, hloop, rfl⟩ :=
      hack.skip (φ := (· ≠ .stop)) (.perform nofun) (not_not_intro rfl)
    rw [List.countP_append, List.countP_append]
    have hrounds := confirmLoop_stops j _ _ rounds b _ _ _ _ hloop
    omega
  · exact absurd hsettles
      (h.all_steps (φ := fun step => ¬ Step.Settles step) hexec step hmem)

end Stops

/-! ## Alone -/

/-- The action is performed with nothing else running, succeeds, and settles nothing. -/
def Unheld (cfg : Config) (s : Cluster) (x : Action) (r : x.Res) (s' : Cluster) : Prop :=
  Unhindered cfg s x r s' ∧ s.Unsettled x

theorem Unheld.unsettling {cfg : Config} {s s' : Cluster} {x : Action} {r : x.Res}
    (h : Unheld cfg s x r s') : ¬ Step.Settles ⟨x, r⟩ :=
  (exec_unsettled h.1.1).mp h.2

theorem doubleAck_memory {cfg : Config} {s s' : Cluster} {n : Nat} {r : Except String Unit}
    (h : (machine cfg).Exec s (.stream (.doubleAck n)) r s') : s'.memory = s.memory := by
  obtain ⟨c, hrun⟩ := exec_stream h
  obtain ⟨_, rfl⟩ := Prod.mk.inj hrun
  unfold Cluster.exchange
  split
  · rfl
  · rfl

/-- Alone, a binding that is confirmed is the one that was found. -/
theorem acknowledgeCancelled_alone {cfg : Config} {rounds : Nat} (j : JobId) :
    Stops (Unheld cfg) (fun _ => False) (Reconciler.acknowledgeCancelled (rounds + 1) j) := by
  intro s steps s' k h
  rcases acknowledgeCancelled_act h with ⟨lease, s₁, before, after, k₁, _, hack⟩ |
    ⟨step, hmem, hsettles⟩
  · obtain ⟨b, s₂, _, _, hread, hloop, _⟩ :=
      hack.skip (φ := (· ≠ .stop)) (.perform nofun) (not_not_intro rfl)
    obtain ⟨⟨⟨hread, _⟩, _⟩, _⟩ := Trace.perform_done hread
    obtain ⟨hfound, rfl⟩ := exec_memory hread
    obtain ⟨hget, hworker, hlease⟩ := binding_found hfound
    -- the exchange leaves the registry
    obtain ⟨_, s₃, _, _, hexchange, hsettle, _⟩ :=
      hloop.skip (φ := Action.Steady) (.try_ (.perform trivial)) id
    obtain ⟨_, _, hexchange⟩ := Trace.map_done hexchange
    obtain ⟨⟨⟨hexchange, _⟩, _⟩, _⟩ := Trace.perform_done hexchange
    -- so the binding that is there is the one that was confirmed
    obtain ⟨_, _, _, _, hone, _, _⟩ :=
      hsettle.skip (φ := (· ≠ .stop)) (.perform nofun) (not_not_intro rfl)
    obtain ⟨⟨_, current, hcurrent, hother⟩, _⟩ := Trace.perform_done hone
    rw [doubleAck_memory hexchange] at hcurrent
    obtain rfl := Option.some.inj (hget.symm.trans hcurrent)
    exact hother ⟨AckBinding.isFor_iff.mpr ⟨hworker, hlease⟩, rfl⟩
  · exact absurd hsettles (h.all_steps (φ := fun step => ¬ Step.Settles step)
      (fun _ _ _ _ hx => hx.unsettling) step hmem)

theorem unheld_keepsJobs (cfg : Config) : KeepsJobs cfg (Unheld cfg) :=
  fun s _ _ _ h => ⟨s, h.1.1, fun _ hj => hj⟩

/-- **Alone.** Where nothing is settled, a pass does not stop after the inventory. -/
theorem conclude_goes_on {cfg : Config} {rounds : Nat} {runtimes : Except String (List JobId)} :
    Stops (Unheld cfg) (fun _ => False) (Reconciler.conclude cfg (rounds + 1) runtimes) :=
  (stops_rules (fun _ _ h => h) (unheld_keepsJobs cfg) acknowledgeCancelled_alone).conclude _

end RunAnywhere
