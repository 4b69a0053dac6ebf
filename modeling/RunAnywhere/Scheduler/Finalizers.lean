import RunAnywhere.Logic.Path
import RunAnywhere.Scheduler.Requests

/-!
# Who finalizes without a lease

The two callers of an unfenced transition, read off their programs:

* **dispatcher** — its unfenced transitions are those of `finalize_queued_cancellation`
  (`deliver_queueOnly`, `dispatchOne_queueOnly`);
* **reconciler** — before an unfenced transition of a job a pass took one inventory and
  removed from it every runtime of the job (`runOnce_along`).
-/

namespace RunAnywhere

open Logic

/-- No unfenced transition and no inventory. -/
def Action.Ordinary : Action → Prop
  | .call (.transitionJobState _ _ _ _ none _ _) => False
  | .outside .inventory => False
  | _ => True

/-- No removal of a runtime. -/
def Action.KeepsRuntimes : Action → Prop
  | .outside (.reap _) => False
  | _ => True

/-- An ordinary action that removes no runtime. -/
def Action.Quiet : Action → Prop
  | .call (.transitionJobState _ _ _ _ none _ _) => False
  | .outside .inventory | .outside (.reap _) => False
  | _ => True

/-- The calls of the outbox. -/
def Op.isOutbox : Op → Bool
  | .enqueueJobDeadLetter _ _ | .leaseOutboxMessages _ _ _ _ _ | .markOutboxPublished _ _
  | .retryOutboxMessage _ _ _ _ => true
  | _ => false

/-- No call but those of the outbox, no inventory and no removal of a runtime. -/
def Action.Aside : Action → Prop
  | .call op => op.isOutbox = true
  | .outside .inventory | .outside (.reap _) => False
  | _ => True

/-- An access by which `confirm_ack` looks for the binding of a job. -/
def Action.Confirms : Action → Prop
  | .memory (.binding _ _ _) | .memory (.settle _ _ _ _) => True
  | _ => False

/-- An action aside that is no stop and confirms nothing. -/
def Action.Plain : Action → Prop
  | .call op => op.isOutbox = true
  | .memory (.binding _ _ _) | .memory (.settle _ _ _ _) => False
  | .outside .inventory | .outside (.reap _) | .stop => False
  | _ => True

/-- No unfenced transition, no confirmation and no stop. -/
def Action.Steady : Action → Prop
  | .call (.transitionJobState _ _ _ _ none _ _) | .stop => False
  | .memory (.binding _ _ _) | .memory (.settle _ _ _ _) => False
  | _ => True

/-- A steady action that is quiet. -/
def Action.Calm : Action → Prop
  | .call (.transitionJobState _ _ _ _ none _ _) | .stop => False
  | .memory (.binding _ _ _) | .memory (.settle _ _ _ _) => False
  | .outside .inventory | .outside (.reap _) => False
  | _ => True

/-- An unfenced transition is one of a job that never left the queue. -/
def Action.QueueOnly : Action → Prop
  | .call (.transitionJobState _ _ _ _ none payload _) => payload ∈ emptyQueuePayloads
  | _ => True

/-- No inventory, and no unfenced transition of a job that keeps a runtime. -/
def Action.Spares (runtimeJobs : List JobId) : Action → Prop
  | .call (.transitionJobState j _ _ _ none _ _) => j ∉ runtimeJobs
  | .outside .inventory => False
  | _ => True

/-! ## Programs with quiet actions -/

section Quiet

open Prog

theorem Action.Quiet.ordinary {x : Action} (h : x.Quiet) : x.Ordinary := by
  unfold Action.Ordinary
  split
  · exact h
  · exact h
  · trivial

theorem Action.Quiet.keepsRuntimes {x : Action} (h : x.Quiet) : x.KeepsRuntimes := by
  unfold Action.KeepsRuntimes
  split
  · exact h
  · trivial

theorem Action.Aside.quiet {x : Action} (h : x.Aside) : x.Quiet := by
  unfold Action.Quiet
  split
  · cases h
  · exact h
  · exact h
  · trivial

theorem quiet_of_aside {α : Type} {p : Task α} (h : All Action.Aside p) : All Action.Quiet p :=
  h.mono fun _ hx => hx.quiet

theorem Action.Plain.aside {x : Action} (h : x.Plain) : x.Aside := by
  unfold Action.Aside
  split
  · exact h
  · exact h
  · exact h
  · trivial

theorem Action.Plain.steady {x : Action} (h : x.Plain) : x.Steady := by
  unfold Action.Steady
  split
  · cases h
  · exact h
  · exact h
  · exact h
  · trivial

theorem Action.Calm.quiet {x : Action} (h : x.Calm) : x.Quiet := by
  unfold Action.Quiet
  split
  · exact h
  · exact h
  · exact h
  · trivial

theorem Action.Calm.steady {x : Action} (h : x.Calm) : x.Steady := by
  unfold Action.Steady
  split
  · exact h
  · exact h
  · exact h
  · exact h
  · trivial

theorem Action.Steady.not_confirms {x : Action} (h : x.Steady) : ¬ x.Confirms := by
  unfold Action.Confirms
  split
  · exact fun _ => h
  · exact fun _ => h
  · exact id

theorem aside_of_plain {α : Type} {p : Task α} (h : All Action.Plain p) : All Action.Aside p :=
  h.mono fun _ hx => hx.aside

theorem quiet_of_plain {α : Type} {p : Task α} (h : All Action.Plain p) : All Action.Quiet p :=
  quiet_of_aside (aside_of_plain h)

theorem publishAll_plain (d : String) (messages : List OutboxMessage) (published : Nat) :
    All Action.Plain (Dlq.publishAll d messages published) := by
  induction messages generalizing published with
  | nil => trivial
  | cons message rest ih =>
      refine .andThen (.attempt (.try_ (.perform trivial))) fun r => ?_
      cases r with
      | error e =>
          refine .andThen (.lift (.perform trivial)) fun at_ => ?_
          exact .andThen (.lift (.perform rfl)) fun _ => trivial
      | ok u => exact .andThen (.try_ (.perform rfl)) fun _ => ih _

theorem publishReady_plain (d : String) : All Action.Plain (Dlq.publishReady d) := by
  refine .andThen (.try_ ?_) fun messages => publishAll_plain d messages 0
  exact .bind (.perform trivial) fun _ => .perform rfl

theorem ensurePublished_plain (d : String) (deadLetter : JobDeadLetter)
    (headers : List (String × String)) :
    All Action.Plain (Dlq.ensurePublished d deadLetter headers) := by
  refine .andThen trivial fun eventKey => ?_
  refine .andThen (.try_ (.perform rfl)) fun message => ?_
  extract_lets rest
  have hrest : ∀ u, All Action.Plain (rest u) := by
    intro u
    refine .andThen (.try_ (.perform trivial)) fun published => ?_
    split <;> trivial
  split
  · exact .andThen (publishReady_plain d) fun _ => hrest ()
  · exact hrest ()

theorem deleteSource_plain (n : Nat) : All Action.Plain (Dlq.deleteSource n) := by
  have habsent (text : String) : All Action.Plain (Dlq.acceptIfSourceIsAbsent n text) := by
    refine .andThen (.lift (.perform trivial)) fun r => ?_
    split <;> trivial
  refine .andThen (.lift (.perform trivial)) fun r => ?_
  split
  · trivial
  · exact habsent _
  · exact habsent _

theorem retireDelivery_plain (b : AckBinding) :
    All Action.Plain (Dlq.retireDelivery b) :=
  .andThen (.try_ (.perform trivial)) fun _ => deleteSource_plain _

theorem confirmLoop_aside (j : JobId) (w : WorkerId) (l : LeaseId) (rounds : Nat)
    (b : AckBinding) : All Action.Aside (AckRegistry.confirmLoop j w l rounds b) := by
  induction rounds generalizing b with
  | zero => exact .lift ⟨trivial, fun r => nomatch r⟩
  | succ rounds ih =>
      refine .andThen (.try_ (.perform trivial)) fun _ => ?_
      refine .andThen (.perform trivial) fun r => ?_
      cases r with
      | none => trivial
      | some current => exact ih current

theorem confirmAck_aside (j : JobId) (w : WorkerId) (l : LeaseId) (rounds : Nat) :
    All Action.Aside (AckRegistry.confirmAck rounds j w l) :=
  .andThen (.perform trivial) fun b => confirmLoop_aside j w l rounds b

/-- A value that is expected. -/
theorem expect_all {φ : Action → Prop} (hstop : φ .stop) {ε ε' α : Type} (r : Except ε α) :
    All φ (expect r : TaskOr ε' α) := by
  cases r with
  | ok a => trivial
  | error e => exact .lift ⟨hstop, fun r => nomatch r⟩

end Quiet

/-! ## The dispatcher -/

section Dispatcher

open Prog

theorem Action.Ordinary.queueOnly {x : Action} (h : x.Ordinary) : x.QueueOnly := by
  unfold Action.QueueOnly
  split
  · exact absurd h id
  · trivial

theorem terminate_quiet (n : Nat) : All Action.Quiet (Dispatcher.terminate n) :=
  .andThen (.try_ (.perform trivial)) fun _ => .try_ (quiet_of_plain (deleteSource_plain n))

theorem deadLetterDelivery_quiet (cfg : Config) (n attempt : Nat) (j : Option JobId)
    (project : Option ProjectId) (reason : JobDeadLetterReason)
    (headers : List (String × String)) : All Action.Quiet
      (Dispatcher.deadLetterDelivery cfg n attempt j project reason headers) := by
  refine .andThen (.lift (.perform trivial)) fun at_ => ?_
  refine .andThen (expect_all trivial _) fun deadLetter => ?_
  exact .andThen (.try_ (quiet_of_plain (ensurePublished_plain _ _ _))) fun _ => terminate_quiet n

theorem finishTerminalDelivery_quiet (cfg : Config) (snap : JobSchedulingSnapshot) (n : Nat)
    (headers : List (String × String)) :
    All Action.Quiet (Dispatcher.finishTerminalDelivery cfg snap n headers) := by
  have hack : All Action.Quiet (Dispatcher.confirmAck n) := .try_ (.perform trivial)
  unfold Dispatcher.finishTerminalDelivery
  split
  · refine .andThen (.try_ (.perform trivial)) fun out => ?_
    cases out with
    | none => exact hack
    | some outbox =>
        simp only
        split
        · refine .andThen (.lift (.perform trivial)) fun at_ => ?_
          refine .andThen (expect_all trivial _) fun deadLetter => ?_
          exact .andThen (.try_ (quiet_of_plain (ensurePublished_plain _ _ _)))
            fun _ => terminate_quiet n
        · trivial
  · exact hack

theorem bindOrAckDuplicate_quiet (j : JobId) (w : WorkerId) (l : LeaseId) (n : Nat) :
    All Action.Quiet (Dispatcher.bindOrAckDuplicate j w l n) := by
  have hack (k : Nat) : All Action.Quiet (Dispatcher.ackDuplicate k) :=
    .bind (.perform trivial) fun _ => trivial
  unfold Dispatcher.bindOrAckDuplicate
  extract_lets bindHere
  have hhere : All Action.Quiet bindHere :=
    .andThen (.lift (.perform trivial)) fun _ => .try_ (.perform trivial)
  refine .andThen (.attempt (.perform trivial)) fun r => ?_
  cases r with
  | ok existing =>
      simp only
      split
      · exact .lift (hack n)
      · split
        · exact .andThen (.lift (hack _)) fun _ => hhere
        · exact hhere
  | error e => exact hhere

theorem bufferDelivery_quiet (queued : JobQueued) (snap : JobSchedulingSnapshot)
    (lane : PriorityLane) (n : Nat) (headers : List (String × String)) :
    All Action.Quiet (Dispatcher.bufferDelivery queued snap lane n headers) := by
  have hack (k : Nat) : All Action.Quiet (Dispatcher.ackDuplicate k) :=
    .bind (.perform trivial) fun _ => trivial
  unfold Dispatcher.bufferDelivery
  extract_lets replace
  have hreplace (existing) : All Action.Quiet (replace existing) := by
    refine .andThen (.lift (.perform trivial)) fun _ => ?_
    refine .andThen (.try_ (.perform trivial)) fun _ => ?_
    refine .andThen (.lift (.perform trivial)) fun at_ => ?_
    exact .andThen (.lift (.perform trivial)) fun _ => trivial
  refine .andThen (.lift (.perform trivial)) fun found => ?_
  cases found with
  | none =>
      refine .andThen (.lift (.perform trivial)) fun _ => ?_
      refine .andThen (.lift (.perform trivial)) fun _ => ?_
      exact .try_ (.perform trivial)
  | some existing =>
      simp only
      split
      · exact hreplace existing
      · split
        · exact .andThen (.lift (hack _)) fun _ => hreplace existing
        · exact .lift (hack n)

theorem finalizeQueuedCancellation_queueOnly (snap : JobSchedulingSnapshot) :
    All Action.QueueOnly (Dispatcher.finalizeQueuedCancellation snap) := by
  have htransition (source target : JobState) (evidence : TransitionEvidence)
      (payload : List (String × EventValue)) (h : payload ∈ emptyQueuePayloads) :
      All Action.QueueOnly
        (Repository.transitionJobState snap.job.id source target evidence none payload) :=
    .bind (.perform trivial) fun _ => .perform h
  unfold Dispatcher.finalizeQueuedCancellation
  extract_lets rest
  have hrest : ∀ u, All Action.QueueOnly (rest u) := by
    intro u
    refine .andThen (.try_ (.perform trivial)) fun refreshed => ?_
    split
    · exact .andThen (.try_ (htransition _ _ _ _ (by decide))) fun _ => trivial
    · trivial
  split
  · exact .andThen (.try_ (htransition _ _ _ _ (by decide))) fun _ => hrest ()
  · exact hrest ()

/-- Deliveries. -/
theorem deliver_queueOnly (cfg : Config) (n : Nat) (message : QueueMessage) :
    All Action.QueueOnly (Dispatcher.deliver cfg n message) := by
  have hquiet {α : Type} {p : Task α} (h : All Action.Quiet p) : All Action.QueueOnly p :=
    h.mono fun x hx => hx.ordinary.queueOnly
  refine .bind ?_ fun r => ?_
  · show All Action.QueueOnly (Dispatcher.acceptDelivery cfg n message)
    unfold Dispatcher.acceptDelivery
    split
    · exact hquiet (deadLetterDelivery_quiet _ _ _ _ _ _ _)
    · refine .andThen (.try_ (.perform trivial)) fun found => ?_
      cases found with
      | none => exact hquiet (deadLetterDelivery_quiet _ _ _ _ _ _ _)
      | some snap =>
          refine .andThen (.lift (.perform trivial)) fun at_ => ?_
          simp only
          split
          · exact hquiet (finishTerminalDelivery_quiet _ _ _ _)
          · exact .andThen (finalizeQueuedCancellation_queueOnly snap)
              fun _ => .try_ (.perform trivial)
          · exact hquiet (bindOrAckDuplicate_quiet _ _ _ _)
          · split
            · exact hquiet (bindOrAckDuplicate_quiet _ _ _ _)
            · exact .try_ (.perform trivial)
          · split
            · exact .andThen (.try_ (.perform trivial))
                fun _ => hquiet (deadLetterDelivery_quiet _ _ _ _ _ _ _)
            · exact hquiet (deadLetterDelivery_quiet _ _ _ _ _ _ _)
          · exact hquiet (bufferDelivery_quiet _ _ _ _ _)
  · cases r with
    | ok u => trivial
    | error e => exact .bind (.perform trivial) fun _ => trivial

theorem hold_quiet (cfg : Config) (entry : FairEntry PendingDelivery) :
    All Action.Quiet (Dispatcher.hold cfg entry) := by
  refine .andThen ?_ fun entry' => .try_ (.perform trivial)
  refine .andThen (.lift (.perform trivial)) fun at_ => ?_
  split
  · refine .andThen (.try_ (.perform trivial)) fun _ => ?_
    exact .andThen (.lift (.perform trivial)) fun _ => trivial
  · trivial

theorem claimFirst_quiet (cfg : Config) (entry : FairEntry PendingDelivery)
    (workers : List WorkerStatus) :
    All Action.Quiet (Dispatcher.claimFirst cfg entry workers) := by
  induction workers with
  | nil => exact hold_quiet cfg entry
  | cons worker rest ih =>
      refine .andThen (.lift (.perform trivial)) fun d => ?_
      refine .andThen (.lift (.perform trivial)) fun at_ => ?_
      refine .andThen (.lift (.bind (.perform trivial) fun _ => .perform trivial)) fun r => ?_
      cases r with
      | ok claim =>
          refine .andThen (.lift (.perform trivial)) fun _ => ?_
          refine .andThen (.try_ (.perform trivial)) fun _ => ?_
          exact .andThen (.lift (.perform trivial)) fun _ => trivial
      | error error =>
          split
          · next heq => cases heq
          · exact hold_quiet cfg entry
          · split
            · exact ih
            · trivial

/-- Dispatches. -/
theorem dispatchOne_queueOnly (cfg : Config) :
    All Action.QueueOnly (Dispatcher.dispatchOne cfg) := by
  have hquiet {α : Type} {p : Task α} (h : All Action.Quiet p) : All Action.QueueOnly p :=
    h.mono fun x hx => hx.ordinary.queueOnly
  refine .andThen (.lift (.perform trivial)) fun at_ => ?_
  refine .andThen (.lift (.perform trivial)) fun entry? => ?_
  cases entry? with
  | none => trivial
  | some entry =>
      refine .andThen (.try_ (.perform trivial)) fun found => ?_
      cases found with
      | none => exact hquiet (deadLetterDelivery_quiet _ _ _ _ _ _ _)
      | some snap =>
          refine .andThen (.lift (.perform trivial)) fun at_ => ?_
          simp only
          split
          · exact hquiet (finishTerminalDelivery_quiet _ _ _ _)
          · exact .andThen (finalizeQueuedCancellation_queueOnly snap)
              fun _ => .try_ (.perform trivial)
          · exact hquiet (bindOrAckDuplicate_quiet _ _ _ _)
          · exact hquiet (hold_quiet _ _)
          · split
            · exact .andThen (.try_ (.perform trivial))
                fun _ => hquiet (deadLetterDelivery_quiet _ _ _ _ _ _ _)
            · exact hquiet (deadLetterDelivery_quiet _ _ _ _ _ _ _)
          · refine .andThen (.lift (.perform trivial)) fun at_ => ?_
            refine .andThen (.try_ (.perform trivial)) fun workers => ?_
            split
            · exact hquiet (hold_quiet _ _)
            · exact hquiet (claimFirst_quiet _ _ _)

end Dispatcher

/-! ## The reconciler -/

/-- A step of a component: an action and its answer. -/
abbrev Step : Type := Σ x : Action, x.Res

/-- The inventory a step takes. -/
def Step.inventory? : Step → Option (Except String (List RuntimeResource))
  | ⟨.outside .inventory, answer⟩ => some answer
  | _ => none

/-- The inventories among the steps. -/
def inventories (steps : List Step) : List (Except String (List RuntimeResource)) :=
  steps.filterMap Step.inventory?

/-- The runtime was removed, or was found to be absent. -/
def Gone (steps : List Step) (resource : RuntimeResource) : Prop :=
  ⟨.outside (.reap resource), .ok .reaped⟩ ∈ steps ∨
    ⟨.outside (.reap resource), .ok .alreadyAbsent⟩ ∈ steps

/-- One inventory was taken, and no runtime of job `j` in it is left. -/
def Inventoried (steps : List Step) (j : JobId) : Prop :=
  ∃ resources, inventories steps = [.ok resources] ∧
    ∀ resource ∈ resources, resource.jobId = j → Gone steps resource

/-- An unfenced transition comes after the inventory that frees its job. -/
def Action.After (past : List Step) : Action → Prop
  | .call (.transitionJobState j _ _ _ none _ _) => Inventoried past j
  | _ => True

/-- One inventory was taken; its runtimes are gone, wait in `todo`, or keep their job in
`remaining`. -/
def Surveyed (todo : List RuntimeResource) (remaining : List JobId) (past : List Step) : Prop :=
  ∃ resources, inventories past = [.ok resources] ∧ ∀ resource ∈ resources,
    resource ∈ todo ∨ resource.jobId ∈ remaining ∨ Gone past resource

section Reconciler

open Prog

variable {past : List Step} {x : Action} {remaining : List JobId}

theorem inventories_snoc (h : x.Spares remaining) (r : x.Res) :
    inventories (past ++ [⟨x, r⟩]) = inventories past := by
  have hnone : Step.inventory? ⟨x, r⟩ = none := by
    cases x with
    | outside o => cases o <;> first | rfl | exact absurd h id
    | _ => rfl
  unfold inventories
  rw [List.filterMap_append, List.filterMap_cons_none hnone, List.filterMap_nil, List.append_nil]

theorem Gone.snoc {resource : RuntimeResource} (h : Gone past resource) (r : x.Res) :
    Gone (past ++ [⟨x, r⟩]) resource :=
  h.imp (List.mem_append_left _) (List.mem_append_left _)

theorem Surveyed.snoc {todo : List RuntimeResource} (h : Surveyed todo remaining past)
    {jobs : List JobId} (hx : x.Spares jobs) (r : x.Res) :
    Surveyed todo remaining (past ++ [⟨x, r⟩]) := by
  obtain ⟨resources, hone, hall⟩ := h
  refine ⟨resources, (inventories_snoc hx r).trans hone, fun resource hmem => ?_⟩
  rcases hall resource hmem with htodo | hkept | hgone
  · exact Or.inl htodo
  · exact Or.inr (Or.inl hkept)
  · exact Or.inr (Or.inr (hgone.snoc r))

theorem Action.Ordinary.spares (h : x.Ordinary) (jobs : List JobId) : x.Spares jobs := by
  unfold Action.Spares
  split
  · exact absurd h id
  · exact absurd h id
  · trivial

theorem Action.Ordinary.after (h : x.Ordinary) (past : List Step) : x.After past := by
  unfold Action.After
  split
  · exact absurd h id
  · trivial

/-- The loop over the inventory. -/
theorem reconcileEach_along (cfg : Config) (at_ : Time) {todo : List RuntimeResource}
    {remaining : List JobId} {past : List Step} (h : Surveyed todo remaining past) :
    Along (fun past x => x.After past) (fun remaining past => Surveyed [] remaining past)
      (Reconciler.reconcileEach cfg at_ todo remaining) past := by
  induction todo generalizing remaining past with
  | nil => exact h
  | cons resource rest ih =>
      have howner : All Action.Quiet (Reconciler.runtimeOwnership resource) := by
        refine .bind (.perform trivial) fun out => ?_
        repeat' split
        all_goals trivial
      refine .bind (howner.along (Surveyed (resource :: rest) remaining)
        (fun past x r hpast hx => hpast.snoc (hx.ordinary.spares []) r)
        (fun past x _ hx => hx.ordinary.after past)
        (fun past ownership hpast => ?_) h)
      refine .perform trivial fun unsafeSince => ?_
      have hobserved : Surveyed (resource :: rest) remaining (past ++
          [⟨.memory (.orphanObserve resource ownership at_), unsafeSince⟩]) := by
        have hspares : (Action.memory (.orphanObserve resource ownership at_)).Spares [] := trivial
        exact hpast.snoc hspares unsafeSince
      -- a job whose runtime stays is noted
      have hkeep {past : List Step} (h : Surveyed (resource :: rest) remaining past) :
          Surveyed rest (resource.jobId :: remaining) past := by
        obtain ⟨resources, hone, hall⟩ := h
        refine ⟨resources, hone, fun other hmem => ?_⟩
        rcases hall other hmem with htodo | hkept | hgone
        · rcases List.mem_cons.mp htodo with rfl | hrest
          · exact Or.inr (Or.inl List.mem_cons_self)
          · exact Or.inl hrest
        · exact Or.inr (Or.inl (List.mem_cons_of_mem _ hkept))
        · exact Or.inr (Or.inr hgone)
      have hdrop {past : List Step} (h : Surveyed (resource :: rest) remaining past)
          (hgone : Gone past resource) : Surveyed rest remaining past := by
        obtain ⟨resources, hone, hall⟩ := h
        refine ⟨resources, hone, fun other hmem => ?_⟩
        rcases hall other hmem with htodo | hrest
        · rcases List.mem_cons.mp htodo with rfl | hrest
          · exact Or.inr (Or.inr hgone)
          · exact Or.inl hrest
        · exact Or.inr hrest
      have hspares : (Action.outside (.reap resource)).Spares [] := trivial
      have hforget : (Action.memory (.orphanRemove resource.resourceId)).Spares [] := trivial
      split
      · refine .perform trivial fun answer => ?_
        have hreaped := hobserved.snoc hspares answer
        split
        · refine .perform trivial fun u => ih (hdrop (hreaped.snoc hforget u) ?_)
          exact Gone.snoc (Or.inl (List.mem_append_right _ List.mem_cons_self)) u
        · refine .perform trivial fun u => ih (hdrop (hreaped.snoc hforget u) ?_)
          exact Gone.snoc (Or.inr (List.mem_append_right _ List.mem_cons_self)) u
        · exact ih (hkeep hreaped)
        · exact ih (hkeep hreaped)
      all_goals exact ih (hkeep hobserved)

/-- The jobs that keep a runtime after the inventory. -/
theorem reconcileRuntimes_along (cfg : Config) (at_ : Time) {past : List Step}
    (h : inventories past = []) :
    Along (fun past x => x.After past)
      (fun r past => ∀ remaining, r = .ok remaining → Surveyed [] remaining past)
      (Reconciler.reconcileRuntimes cfg at_) past := by
  refine .andThen (.try_ ⟨trivial, fun answer => ?_⟩)
  have hone : inventories (past ++ [⟨.outside .inventory, answer⟩]) = [answer] := by
    unfold inventories at h ⊢
    rw [List.filterMap_append, h]
    rfl
  cases answer with
  | error e => exact fun _ hr => nomatch hr
  | ok resources =>
      have hstart : Surveyed resources [] (past ++ [⟨.outside .inventory, .ok resources⟩]) :=
        ⟨resources, hone, fun _ hmem => Or.inl hmem⟩
      refine .andThen (.lift ((reconcileEach_along cfg at_ hstart).mono fun remaining past hp => ?_))
      refine .andThen (.lift ⟨trivial, fun u => ?_⟩)
      intro remaining' hr
      obtain rfl := Except.ok.inj hr
      have hspares : (Action.memory (.orphanRetain (resources.map (·.resourceId)))).Spares [] :=
        trivial
      exact hp.snoc hspares u

theorem recoverAll_calm (cfg : Config) (stale : List StaleJob) :
    All Action.Calm (Reconciler.recoverAll cfg stale) := by
  induction stale with
  | nil => trivial
  | cons stale rest ih =>
      refine .andThen (.try_ (.bind (.perform trivial) fun _ => .perform trivial))
        fun disposition => ?_
      cases disposition with
      | requeued job =>
          refine .andThen (.attempt ?_) fun _ => ih
          exact .andThen (.perform trivial) fun _ => .try_ (.perform trivial)
      | finalizing job => exact .andThen (.lift (.perform trivial)) fun _ => ih
      | cancelling job => exact .andThen (.lift (.perform trivial)) fun _ => ih
      | lostRace => exact ih

/-- No inventory, no removal, and no unfenced transition of a job that keeps a runtime. -/
abbrev Action.Finalizes (jobs : List JobId) (x : Action) : Prop := x.Spares jobs ∧ x.KeepsRuntimes

theorem finalizerTransition_finalizes {jobs : List JobId} {j : JobId} (h : j ∉ jobs)
    (source target : JobState) (outcome : JobOutcome) (cleanup : Bool)
    (payload : List (String × EventValue)) : All (Action.Finalizes jobs)
      (Reconciler.finalizerTransition j source target outcome cleanup payload) :=
  .andThen (.try_ (.bind (.perform ⟨trivial, trivial⟩) fun _ => .perform ⟨h, trivial⟩))
    fun _ => trivial

theorem acknowledgeCancelled_aside (rounds : Nat) (j : JobId) :
    All Action.Aside (Reconciler.acknowledgeCancelled rounds j) := by
  rw [acknowledgeCancelled_eq]
  refine .andThen (.lift (.perform trivial)) fun lease? => ?_
  cases lease? with
  | none => trivial
  | some lease =>
      refine .andThen (.attempt (confirmAck_aside _ _ _ _)) fun r => ?_
      split
      · exact .lift ⟨trivial, fun e => e.elim⟩
      · exact .lift ⟨trivial, fun e => e.elim⟩
      · trivial

theorem retireExhausted_aside (cfg : Config) (snap : JobSchedulingSnapshot) :
    All Action.Aside (Reconciler.retireExhausted cfg snap) := by
  refine .andThen (.lift (.perform trivial)) fun at_ => ?_
  refine .andThen (expect_all trivial _) fun deadLetter => ?_
  refine .andThen (.try_ (aside_of_plain (ensurePublished_plain _ _ _))) fun _ => ?_
  refine .andThen (.lift (.perform trivial)) fun lease? => ?_
  cases lease? with
  | none => trivial
  | some lease =>
      refine .andThen (.attempt (.perform trivial)) fun r => ?_
      cases r with
      | ok b => exact .try_ (aside_of_plain (retireDelivery_plain b))
      | error e => trivial

namespace Reconciler

/-- The first edge of the finalizer, for a job that still collects. -/
def collected (j : JobId) (outcome : JobOutcome) (snap : JobSchedulingSnapshot) :
    TaskOr ReconcilerError JobSchedulingSnapshot := do
  if snap.job.state = .collectingArtifacts then
    finalizerTransition j .collectingArtifacts .cleaningUp outcome false
      [("finalizer", .text "confirmed_empty_or_unrecoverable")]
    match ← snapshot j with
    | some refreshed => pure refreshed
    | none => .lift stop
  else pure snap

/-- The second edge, and the source of the ended job. -/
def ended (cfg : Config) (rounds : Nat) (j : JobId) (outcome : JobOutcome)
    (snap : JobSchedulingSnapshot) : TaskOr ReconcilerError Bool := do
  if snap.job.state ≠ .cleaningUp then pure false
  else do
    let terminal := if outcome = .cancelled then .cancelled else .infraFailed
    finalizerTransition j .cleaningUp terminal outcome true [("cleanup", .text "reconciled")]
    if outcome = .cancelled then acknowledgeCancelled rounds j
    else retireExhausted cfg snap
    pure true

end Reconciler

theorem finalizeJob_eq (cfg : Config) (rounds : Nat) (j : JobId) :
    Reconciler.finalizeJob cfg rounds j = (do
      match ← Reconciler.snapshot j with
      | none => pure false
      | some snap =>
          match snap.lease, snap.pendingOutcome with
          | none, some outcome =>
              match outcome with
              | .cancelled | .infraFailed =>
                  Reconciler.collected j outcome snap >>= Reconciler.ended cfg rounds j outcome
              | _ => pure false
          | _, _ => pure false) :=
  rfl

theorem collected_finalizes {jobs : List JobId} {j : JobId} (h : j ∉ jobs) (outcome : JobOutcome)
    (snap : JobSchedulingSnapshot) :
    All (Action.Finalizes jobs) (Reconciler.collected j outcome snap) := by
  unfold Reconciler.collected
  split
  · refine .andThen (finalizerTransition_finalizes h _ _ _ _ _) fun _ => ?_
    refine .andThen (.try_ (.perform ⟨trivial, trivial⟩)) fun out => ?_
    cases out with
    | none => exact .lift ⟨⟨trivial, trivial⟩, fun r => by cases r⟩
    | some refreshed => trivial
  · trivial

theorem ended_finalizes (cfg : Config) (rounds : Nat) {jobs : List JobId} {j : JobId}
    (h : j ∉ jobs) (outcome : JobOutcome) (snap : JobSchedulingSnapshot) :
    All (Action.Finalizes jobs) (Reconciler.ended cfg rounds j outcome snap) := by
  have haside {α : Type} {p : Task α} (h : All Action.Aside p) :
      All (Action.Finalizes jobs) p :=
    h.mono fun _ hx => ⟨hx.quiet.ordinary.spares jobs, hx.quiet.keepsRuntimes⟩
  unfold Reconciler.ended
  split
  · trivial
  · refine .andThen (finalizerTransition_finalizes h _ _ _ _ _) fun _ => ?_
    split
    · exact .andThen (haside (acknowledgeCancelled_aside rounds j)) fun _ => trivial
    · exact .andThen (haside (retireExhausted_aside cfg snap)) fun _ => trivial

/-- A job without a runtime is finalized. -/
theorem finalizeJob_finalizes (cfg : Config) (rounds : Nat) {jobs : List JobId} {j : JobId}
    (h : j ∉ jobs) : All (Action.Finalizes jobs) (Reconciler.finalizeJob cfg rounds j) := by
  have hhalves (o : JobOutcome) (snap : JobSchedulingSnapshot) : All (Action.Finalizes jobs)
      (Reconciler.collected j o snap >>= Reconciler.ended cfg rounds j o :
        TaskOr ReconcilerError Bool) :=
    .andThen (collected_finalizes h o snap) fun snap' => ended_finalizes cfg rounds h o snap'
  rw [finalizeJob_eq]
  refine .andThen (.try_ (.perform ⟨trivial, trivial⟩)) fun out => ?_
  cases out with
  | none => trivial
  | some snap =>
      simp only
      split
      · next outcome _ _ =>
          cases outcome with
          | cancelled | infraFailed => exact hhalves _ snap
          | passed | failed | timedOut => trivial
      · trivial

theorem finalizeAll_finalizes (cfg : Config) (rounds : Nat) (jobs ids : List JobId)
    (finalized : Nat) :
    All (Action.Finalizes jobs) (Reconciler.finalizeAll cfg rounds jobs ids finalized) := by
  induction ids generalizing finalized with
  | nil => trivial
  | cons j rest ih =>
      unfold Reconciler.finalizeAll
      split
      · exact ih finalized
      · next hfree =>
          have hfree : j ∉ jobs := fun hmem => hfree (List.contains_iff_mem.mpr hmem)
          exact .andThen (finalizeJob_finalizes cfg rounds hfree) fun _ => ih _

theorem retireAll_plain (cfg : Config) (pending : List (JobId × LeaseGuard)) :
    All Action.Plain (Reconciler.retireAll cfg pending) := by
  induction pending with
  | nil => trivial
  | cons head rest ih =>
      obtain ⟨j, lease⟩ := head
      refine .andThen (.try_ (.perform trivial)) fun out => ?_
      cases out with
      | none => exact ih
      | some snap =>
          simp only
          split
          · exact ih
          · refine .andThen (.try_ (.perform trivial)) fun out => ?_
            cases out with
            | none => exact ih
            | some marker =>
                simp only
                split
                · trivial
                · split
                  · exact ih
                  · refine .andThen (.attempt (.perform trivial)) fun r => ?_
                    have hrest : All Action.Plain (do
                        let _ ← act (.memory (.exhaustedRemove j))
                        Reconciler.retireAll cfg rest : TaskOr ReconcilerError Unit) :=
                      .andThen (.lift (.perform trivial)) fun _ => ih
                    cases r with
                    | ok b => exact .andThen (.try_ (retireDelivery_plain b)) fun _ => hrest
                    | error e => exact hrest

theorem finalizeReadyJobs_finalizes (cfg : Config) (rounds : Nat) (jobs : List JobId) :
    All (Action.Finalizes jobs) (Reconciler.finalizeReadyJobs cfg rounds jobs) :=
  .andThen (.try_ (.perform ⟨trivial, trivial⟩)) fun ids =>
    finalizeAll_finalizes cfg rounds jobs ids 0

/-- What a pass does after the runtimes and the finalizable jobs. -/
theorem afterRuntimes_plain (cfg : Config) : All Action.Plain (do
    let _ ← .try_ (act (.outside .endDebugSessions)) .repository
    let _ ← .try_ (Dlq.publishReady cfg.dispatcherId) .dlq
    Reconciler.retirePublishedExhausted cfg : TaskOr ReconcilerError Unit) := by
  refine .andThen (.try_ (.perform trivial)) fun _ => ?_
  refine .andThen (.try_ (publishReady_plain _)) fun _ => ?_
  exact .andThen (.lift (.perform trivial)) fun pending => retireAll_plain cfg pending

/-- A part without unfenced transitions and inventories, and what follows it. -/
theorem along_quiet {α : Type} {p : TaskOr ReconcilerError α} (hp : All Action.Quiet p)
    {f : α → TaskOr ReconcilerError Unit} {R : List Step → Prop}
    (hR : ∀ past x r, R past → x.Quiet → R (past ++ [⟨x, r⟩]))
    (hf : ∀ a past, R past → Along (fun past x => x.After past) (fun _ _ => True) (f a) past)
    {past : List Step} (hpast : R past) :
    Along (fun past x => x.After past) (fun _ _ => True)
      (p >>= f : TaskOr ReconcilerError Unit) past := by
  refine .andThen (hp.along R hR (fun _ _ _ hx => hx.ordinary.after _) (fun past r hr => ?_) hpast)
  cases r with
  | ok a => exact hf a past hr
  | error e => trivial

/-- **Passes.** An unfenced transition of a job comes after the one inventory of the pass, and
after every runtime of the job in it is gone. -/
theorem runOnce_along (cfg : Config) (rounds : Nat) :
    Along (fun past x => x.After past) (fun _ _ => True) (Reconciler.runOnce cfg rounds) [] := by
  -- before the inventory
  have hnone : ∀ (past : List Step) (x : Action) (r : x.Res), inventories past = [] →
      x.Quiet → inventories (past ++ [⟨x, r⟩]) = [] :=
    fun past x r hpast hx => (inventories_snoc (hx.ordinary.spares []) r).trans hpast
  refine along_quiet (by exact .lift (.perform trivial)) hnone (fun at_ past hpast => ?_) rfl
  refine along_quiet (by exact .try_ (.perform trivial)) hnone (fun stale past hpast => ?_) hpast
  refine along_quiet ((recoverAll_calm cfg stale).mono fun _ hx => hx.quiet) hnone (fun _ past hpast => ?_) hpast
  refine .andThen (.attempt ((reconcileRuntimes_along cfg at_ hpast).mono fun r past hr => ?_))
  -- after it
  have hafter (past : List Step) : Along (fun past x => x.After past) (fun _ _ => True) _ past :=
    (quiet_of_plain (afterRuntimes_plain cfg)).along (fun _ => True) (fun _ _ _ _ _ => trivial)
      (fun _ _ _ hx => hx.ordinary.after _) (fun _ _ _ => trivial) trivial
  cases r with
  | error e => exact hafter past
  | ok remaining =>
      have hsurveyed := hr remaining rfl
      have hready : All (Action.Spares remaining)
          (Reconciler.finalizeReadyJobs cfg rounds remaining) :=
        (finalizeReadyJobs_finalizes cfg rounds remaining).mono fun _ hx => hx.1
      refine .andThen (hready.along (Surveyed [] remaining) (fun _ _ r hpast hx => hpast.snoc hx r)
        (fun past x hpast hx => ?_) (fun past r _ => ?_) hsurveyed)
      · unfold Action.After
        split
        · next j _ _ _ _ _ =>
            obtain ⟨resources, hone, hall⟩ := hpast
            refine ⟨resources, hone, fun resource hmem hj => ?_⟩
            rcases hall resource hmem with htodo | hkept | hgone
            · cases htodo
            · rw [hj] at hkept
              exact absurd hkept hx
            · exact hgone
        · trivial
      · cases r with
        | ok n => exact hafter past
        | error e => trivial

end Reconciler

end RunAnywhere
