import RunAnywhere.Logic.Trace
import RunAnywhere.Scheduler.Finalizers

/-!
# The sweep over the runtimes

Traces of `reconcile_runtimes`, over any state and any answers:

* **rounds** — the loop looks a runtime up, observes what it found and settles it
  (`reconcileEach_cons`); a trace goes through a round for each runtime it is done with
  (`reconcileEach_done`, `reconcileEach_reap`);
* **removals** — a pass of the reconciler removes runtimes in this loop only (`runOnce_reap`),
  and only one that was without its lease for the grace period (`settle_reap`,
  `evaluateReap_reap`).
-/

namespace RunAnywhere

open Logic Prog

/-! ## Ownership -/

/-- What `runtime_ownership` makes of the answer to its lookup. -/
def RuntimeResource.ownership (resource : RuntimeResource) :
    Except RepositoryError (Option JobSchedulingSnapshot) → RuntimeOwnership
  | .ok none => .jobMissing
  | .ok (some snap) =>
      if snap.job.state.isTerminal then .jobTerminal
      else if snap.lease = some ⟨resource.workerId, resource.leaseId⟩ then .activeMatchingLease
      else .leaseMismatch
  | .error _ => .unknown

/-- The job is missing, terminal or held under another lease. -/
def RuntimeOwnership.isUnsafe : RuntimeOwnership → Bool
  | .jobMissing | .jobTerminal | .leaseMismatch => true
  | .activeMatchingLease | .unknown => false

theorem runtimeOwnership_eq (resource : RuntimeResource) :
    Reconciler.runtimeOwnership resource =
      .act (.query (.schedulingSnapshot resource.jobId none)) fun answer =>
        .done (resource.ownership answer) := by
  show Prog.act _ _ = Prog.act _ _
  congr 1
  funext answer
  unfold RuntimeResource.ownership
  cases answer with
  | error e => rfl
  | ok found =>
      cases found with
      | none => rfl
      | some snap =>
          show (if snap.job.state.isTerminal = true then pure .jobTerminal
            else if snap.lease = some ⟨resource.workerId, resource.leaseId⟩ then
              pure .activeMatchingLease
            else pure .leaseMismatch : Task RuntimeOwnership) = _
          simp only
          split
          · rfl
          · split
            · rfl
            · rfl

/-- A runtime is reaped when it was without its lease for the grace period. -/
theorem evaluateReap_reap {resource : RuntimeResource} {ownership : RuntimeOwnership}
    {since : Option Time} {at_ : Time} {grace : Nat}
    (h : evaluateReap resource ownership since at_ grace = .reap) :
    ownership.isUnsafe = true ∧ ∃ t₀, since = some t₀ ∧ (grace : Int) ≤ at_ - t₀ := by
  unfold evaluateReap at h
  cases ownership with
  | activeMatchingLease | unknown => cases h
  | jobMissing | jobTerminal | leaseMismatch =>
      refine ⟨rfl, ?_⟩
      simp only at h
      split at h
      · next t₀ grace' hgrace =>
          split at h
          · cases h
          · next hage =>
              unfold durationFromStd at hgrace
              split at hgrace
              · obtain rfl := Option.some.inj hgrace
                exact ⟨t₀, rfl, not_lt.mp hage⟩
              · cases hgrace
      · cases h

/-! ## The loop of a pass -/

/-- What the loop does with one runtime after its ownership was observed; whether its job
keeps it. -/
def Reconciler.settle (cfg : Config) (at_ : Time) (resource : RuntimeResource)
    (ownership : RuntimeOwnership) (unsafeSince : Option Time) : Task Bool :=
  match evaluateReap resource ownership unsafeSince at_ cfg.timing.reapGrace with
  | .reap => do
      match ← act (.outside (.reap resource)) with
      | .ok .reaped | .ok .alreadyAbsent => do
          let _ ← act (.memory (.orphanRemove resource.resourceId))
          pure false
      | .ok .skipped | .error _ => pure true
  | .keepInGrace | .keepActive | .keepUnknown => pure true

/-- One round of the loop. -/
theorem reconcileEach_cons (cfg : Config) (at_ : Time) (resource : RuntimeResource)
    (rest : List RuntimeResource) (remaining : List JobId) :
    Reconciler.reconcileEach cfg at_ (resource :: rest) remaining = (do
      let ownership ← Reconciler.runtimeOwnership resource
      let unsafeSince ← act (.memory (.orphanObserve resource ownership at_))
      let keeps ← Reconciler.settle cfg at_ resource ownership unsafeSince
      Reconciler.reconcileEach cfg at_ rest
        (if keeps then resource.jobId :: remaining else remaining)) := by
  rw [Reconciler.reconcileEach]
  congr 1
  funext ownership
  congr 1
  funext unsafeSince
  unfold Reconciler.settle
  cases evaluateReap resource ownership unsafeSince at_ cfg.timing.reapGrace with
  | keepActive | keepInGrace | keepUnknown => rfl
  | reap =>
      show Prog.act _ _ = Prog.act _ _
      congr 1
      funext answer
      cases answer with
      | error e => rfl
      | ok outcome => cases outcome <;> rfl

section Round

variable {σ : Type} {exec : σ → (x : Action) → x.Res → σ → Prop} {cfg : Config} {at_ : Time}
  {resource : RuntimeResource} {rest : List RuntimeResource} {remaining : List JobId} {s s' : σ}
  {steps : List Step}

/-- The answer to a lookup. -/
def Step.lookup? : Step → Option (Except RepositoryError (Option JobSchedulingSnapshot))
  | ⟨.query (.schedulingSnapshot _ _), answer⟩ => some answer
  | _ => none

/-- The answers to the lookups, in their order. -/
def lookups (steps : List Step) :
    List (Except RepositoryError (Option JobSchedulingSnapshot)) :=
  steps.filterMap Step.lookup?

theorem lookups_append (steps steps' : List Step) :
    lookups (steps ++ steps') = lookups steps ++ lookups steps' :=
  List.filterMap_append

/-- Settling a runtime removes it and forgets it. -/
theorem settle_all (cfg : Config) (at_ : Time) (resource : RuntimeResource)
    (ownership : RuntimeOwnership) (since : Option Time) :
    All (fun x => x = .outside (.reap resource) ∨ x = .memory (.orphanRemove resource.resourceId))
      (Reconciler.settle cfg at_ resource ownership since) := by
  unfold Reconciler.settle
  split
  · refine .bind (.perform (Or.inl rfl)) fun answer => ?_
    split
    · exact .bind (.perform (Or.inr rfl)) fun _ => trivial
    · exact .bind (.perform (Or.inr rfl)) fun _ => trivial
    · trivial
    · trivial
  · trivial
  · trivial
  · trivial

theorem settle_lookups {ownership : RuntimeOwnership} {since : Option Time} {q : Task Bool}
    (h : (Reconciler.settle cfg at_ resource ownership since).Path steps q) :
    lookups steps = [] := by
  refine List.filterMap_eq_nil_iff.mpr fun ⟨x, r⟩ hs => ?_
  rcases (settle_all cfg at_ resource ownership since).steps h _ hs with hx | hx
  · subst hx
    rfl
  · subst hx
    rfl

/-- A removal in the settling is that of the runtime, when it was without its lease for the
grace period. -/
theorem settle_reap {ownership : RuntimeOwnership} {since : Option Time} {r : RuntimeResource}
    {k : (Action.outside (.reap r)).Res → Task Bool}
    (h : (Reconciler.settle cfg at_ resource ownership since).Trace exec s steps s'
      (.act (.outside (.reap r)) k)) :
    r = resource ∧ steps = [] ∧ s' = s ∧
      evaluateReap resource ownership since at_ cfg.timing.reapGrace = .reap := by
  unfold Reconciler.settle at h
  split at h
  · next heval =>
      rcases Trace.of_act h with ⟨rfl, rfl, hq⟩ | ⟨answer, s₁, rest, _, rfl, hafter⟩
      · have hx := (Prog.act.inj hq).1
        exact ⟨by injection hx with hx; injection hx, rfl, rfl, heval⟩
      · -- what follows removes nothing
        have hkeeps : Action.KeepsRuntimes (.outside (.reap r)) := by
          refine All.path (.bind (p := .done answer) trivial fun answer => ?_) hafter.path
          split
          · exact .bind (.perform trivial) fun _ => trivial
          · exact .bind (.perform trivial) fun _ => trivial
          · trivial
          · trivial
        exact absurd hkeeps id
  · exact nomatch (Trace.of_done h).2.2
  · exact nomatch (Trace.of_done h).2.2
  · exact nomatch (Trace.of_done h).2.2

/-- The lookup of a runtime, answered. -/
theorem runtimeOwnership_done {ownership : RuntimeOwnership}
    (h : (Reconciler.runtimeOwnership resource).Trace exec s steps s' (.done ownership)) :
    ∃ answer, exec s (.query (.schedulingSnapshot resource.jobId none)) answer s' ∧
      steps = [⟨.query (.schedulingSnapshot resource.jobId none), answer⟩] ∧
      ownership = resource.ownership answer := by
  rw [runtimeOwnership_eq] at h
  obtain ⟨answer, s₁, rest, hexec, rfl, hdone⟩ := h.act_done
  obtain ⟨rfl, rfl, hown⟩ := hdone.of_done
  exact ⟨answer, hexec, rfl, Prog.done.inj hown⟩

variable {α : Type} {q : Task (List JobId)}

/-- **Rounds.** A trace of the loop that ends goes through a round for its first runtime. -/
theorem reconcileEach_done {jobs : List JobId}
    (h : (Reconciler.reconcileEach cfg at_ (resource :: rest) remaining).Trace exec s steps s'
      (.done jobs)) :
    ∃ answer since keeps s₁ s₂ s₃ settled after remaining',
      exec s (.query (.schedulingSnapshot resource.jobId none)) answer s₁ ∧
      exec s₁ (.memory (.orphanObserve resource (resource.ownership answer) at_)) since s₂ ∧
      (Reconciler.settle cfg at_ resource (resource.ownership answer) since).Trace exec s₂ settled
        s₃ (.done keeps) ∧
      (Reconciler.reconcileEach cfg at_ rest remaining').Trace exec s₃ after s' (.done jobs) ∧
      steps = ⟨.query (.schedulingSnapshot resource.jobId none), answer⟩ ::
        ⟨.memory (.orphanObserve resource (resource.ownership answer) at_), since⟩ ::
          (settled ++ after) := by
  rw [reconcileEach_cons] at h
  obtain ⟨_, s₁, _, _, hlook, hround, rfl⟩ := h.bind_done
  obtain ⟨answer, hlooked, rfl, rfl⟩ := runtimeOwnership_done hlook
  obtain ⟨since, s₂, _, _, hobserve, hrest, rfl⟩ := hround.bind_done
  obtain ⟨hobserved, rfl⟩ := hobserve.perform_done
  obtain ⟨keeps, s₃, settled, after, hsettle, hafter, rfl⟩ := hrest.bind_done
  exact ⟨answer, since, keeps, s₁, s₂, s₃, settled, after, _, hlooked, hobserved, hsettle, hafter,
    rfl⟩

/-- A trace of the loop that stops before a removal removes the first runtime, or goes
through a round for it. -/
theorem reconcileEach_reap {r : RuntimeResource}
    {k : (Action.outside (.reap r)).Res → Task (List JobId)}
    (h : (Reconciler.reconcileEach cfg at_ (resource :: rest) remaining).Trace exec s steps s'
      (.act (.outside (.reap r)) k)) :
    ∃ answer since s₁ s₂,
      exec s (.query (.schedulingSnapshot resource.jobId none)) answer s₁ ∧
      exec s₁ (.memory (.orphanObserve resource (resource.ownership answer) at_)) since s₂ ∧
      ((r = resource ∧ s' = s₂ ∧
          evaluateReap resource (resource.ownership answer) since at_ cfg.timing.reapGrace = .reap ∧
          steps = [⟨.query (.schedulingSnapshot resource.jobId none), answer⟩,
            ⟨.memory (.orphanObserve resource (resource.ownership answer) at_), since⟩]) ∨
        ∃ keeps s₃ settled after remaining',
          (Reconciler.settle cfg at_ resource (resource.ownership answer) since).Trace exec s₂
            settled s₃ (.done keeps) ∧
          (Reconciler.reconcileEach cfg at_ rest remaining').Trace exec s₃ after s'
            (.act (.outside (.reap r)) k) ∧
          steps = ⟨.query (.schedulingSnapshot resource.jobId none), answer⟩ ::
            ⟨.memory (.orphanObserve resource (resource.ownership answer) at_), since⟩ ::
              (settled ++ after)) := by
  rw [reconcileEach_cons] at h
  rcases h.bind_act with ⟨_, hin⟩ | ⟨_, s₁, _, _, hlook, hround, rfl⟩
  · -- the lookup removes nothing
    rw [runtimeOwnership_eq] at hin
    obtain ⟨_, _, _, _, _, hdone⟩ := hin.act_ne nofun
    exact nomatch hdone.of_done.2.2
  obtain ⟨answer, hlooked, rfl, rfl⟩ := runtimeOwnership_done hlook
  rcases hround.bind_act with ⟨_, hin⟩ | ⟨since, s₂, _, _, hobserve, hrest, rfl⟩
  · obtain ⟨_, _, _, _, _, hdone⟩ := Trace.act_ne hin nofun
    exact nomatch hdone.of_done.2.2
  obtain ⟨hobserved, rfl⟩ := hobserve.perform_done
  refine ⟨answer, since, s₁, s₂, hlooked, hobserved, ?_⟩
  rcases hrest.bind_act with ⟨_, hin⟩ | ⟨keeps, s₃, settled, after, hsettle, hafter, rfl⟩
  · obtain ⟨rfl, rfl, rfl, hreap⟩ := settle_reap hin
    exact Or.inl ⟨rfl, rfl, hreap, rfl⟩
  · exact Or.inr ⟨keeps, s₃, settled, after, _, hsettle, hafter, rfl⟩

/-- Nothing is removed after the loop. -/
theorem retain_keepsRuntimes (listed : List RuntimeResource) (jobs : List JobId) :
    All Action.KeepsRuntimes (do
      let _ ← act (.memory (.orphanRetain (listed.map (·.resourceId))))
      pure jobs : TaskOr String (List JobId)) :=
  .andThen (.lift (.perform trivial)) fun _ => trivial

/-- **Removals.** A pass of the reconciler removes runtimes in `reconcile_runtimes` only. -/
theorem runOnce_reap {rounds : Nat} {r : RuntimeResource}
    {k : (Action.outside (.reap r)).Res → Task Report}
    (h : ((Request.runOnce rounds).prog cfg).Trace exec s steps s'
      (.act (.outside (.reap r)) k)) :
    ∃ at_ s₁ steps' k', (Reconciler.reconcileRuntimes cfg at_).Trace exec s₁ steps' s'
      (.act (.outside (.reap r)) k') := by
  have hkeeps : ¬ Action.KeepsRuntimes (.outside (.reap r)) := id
  obtain ⟨_, hrun⟩ := Trace.map_act h
  obtain ⟨at_, s₁, _, _, _, hrun, _⟩ := Trace.skip hrun (.lift (.perform trivial)) hkeeps
  obtain ⟨stale, s₂, _, _, _, hrun, _⟩ := hrun.skip (.try_ (.perform trivial)) hkeeps
  obtain ⟨_, s₃, _, _, _, hrun, _⟩ :=
    hrun.skip ((recoverAll_calm cfg stale).mono fun _ hx => hx.quiet.keepsRuntimes) hkeeps
  have hafter := (afterRuntimes_plain cfg).mono fun _ hx => hx.aside.quiet.keepsRuntimes
  rcases hrun.andThen_act with ⟨_, hin⟩ | ⟨result, s₄, _, _, _, hrest, _⟩
  · obtain ⟨_, htrace⟩ := Trace.map_act hin
    exact ⟨at_, s₃, _, _, htrace⟩
  · cases result with
    | error e => exact absurd (hafter.path hrest.path) hkeeps
    | ok jobs =>
        have hready := (finalizeReadyJobs_finalizes cfg rounds jobs).mono fun _ hx => hx.2
        obtain ⟨_, _, _, _, _, hend, _⟩ := Trace.skip hrest hready hkeeps
        exact absurd (hafter.path hend.path) hkeeps

end Round

end RunAnywhere
