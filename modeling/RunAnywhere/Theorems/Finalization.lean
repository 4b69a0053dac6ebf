import RunAnywhere.Scheduler.Finalizers

/-!
# Lease-free finalization

The finalizers of the dispatcher and the reconciler act on a snapshot read earlier, without
a fence. What makes this safe is that a job on the finalizer path without a lease is
parked (`parked_run`), that they act on such jobs only, and that a pass looks at the
runtimes first.
-/

namespace RunAnywhere

open Logic Machine

/-- The request is one to the dispatcher. -/
def Request.IsDispatch : Request → Prop
  | .deliver _ _ | .dispatchOne => True
  | _ => False

/-- The program of a dispatch makes the unfenced transitions of jobs in the queue only. -/
theorem Request.IsDispatch.queueOnly {cfg : Config} {request : Request}
    (h : request.IsDispatch) : Prog.All Action.QueueOnly (request.prog cfg) := by
  cases request with
  | deliver n message => exact .bind (deliver_queueOnly cfg n message) fun _ => trivial
  | dispatchOne => exact .bind (dispatchOne_queueOnly cfg) fun _ => trivial
  | _ => exact absurd h id

/-- **Lease-free finalization never touches an owned job.** In every run of the scheduler

* a job in `collecting_artifacts` or `cleaning_up` without a lease stays without one, and
  there or ended;
* when a thread is about to make an unfenced transition the job has no lease, and if the
  thread is the dispatcher's, the job was never claimed;
* if the thread is a reconciliation pass, then on whatever path it came there it took one
  inventory and removed every runtime of the job in it. -/
theorem lease_free_finalization {cfg : Config}
    {p : Pool Cluster Action Action.Res Request Report}
    (hp : (scheduler cfg fun _ _ => True).Reachable p) :
    (∀ j row, p.state.db.job? j = some row →
      row.state = .collectingArtifacts ∨ row.state = .cleaningUp → row.leaseId = none →
      ∀ cs p', (scheduler cfg fun _ _ => True).Run p cs p' →
        ∃ row', p'.state.db.job? j = some row' ∧ row'.leaseId = none ∧
          (row'.state = .collectingArtifacts ∨ row'.state = .cleaningUp ∨
            row'.state.isTerminal = true)) ∧
    ∀ th ∈ p.threads, ∀ j source target evidence payload eventId k,
      th.rest = .act (.call
        (.transitionJobState j source target evidence none payload eventId)) k →
      (∀ row, p.state.db.job? j = some row →
        row.leaseId = none ∧ (th.tag.IsDispatch → row.deliveryAttempts = 0)) ∧
      ∀ rounds, th.tag = .runOnce rounds →
        (∃ steps, ((Request.runOnce rounds).prog cfg).Path steps th.rest) ∧
        ∀ steps, ((Request.runOnce rounds).prog cfg).Path steps th.rest → Inventoried steps j := by
  have hr := scheduler_reachable hp
  have hs := scheduler_sound hr
  refine ⟨fun j row hrow hstate hlease cs p' hrun => ?_, ?_⟩
  · have hl := (scheduler_respects cfg false).run_later (boot_sound cfg false) hr
      (scheduler_run hrun)
    obtain ⟨row', hrow', hrests⟩ := (Cluster.Later.db hl).parked hs.reachable hrow
      ⟨hlease, hstate.imp_right Or.inl⟩
    exact ⟨row', hrow', hrests.parked.lease, hrests.parked.state⟩
  · intro th hth j source target evidence payload eventId k hrest
    have hallowed := (scheduler_respects cfg false).allowed (boot_sound cfg false) hr hth hrest
      fun h => nomatch h
    obtain ⟨steps, hpath⟩ := (machine cfg).path_invariant _ _ p hp th hth
    refine ⟨fun row hrow => ?_, fun rounds htag => ⟨⟨steps, htag ▸ hpath⟩, fun steps hpath => ?_⟩⟩
    · obtain ⟨hlease, hattempts⟩ := hallowed.1.unleased _ _ _ _ _ _ rfl row hrow
      refine ⟨hlease, fun hdispatch => hattempts ?_⟩
      rw [hrest] at hpath
      exact hdispatch.queueOnly.path hpath
    · rw [hrest] at hpath
      have halong : Prog.Along (fun past x => x.After past) (fun _ _ => True)
          ((Request.runOnce rounds).prog cfg) [] :=
        .bind ((runOnce_along cfg rounds).mono fun _ _ _ => trivial)
      have hafter := halong.path hpath
      rwa [List.nil_append] at hafter

/-- A job cancelled in the queue and delivered: the dispatcher is about to finalize it. -/
def Sample.cancelledInQueue : List (Cmd Request Choice Outer) :=
  [Sample.api Sample.create 2, Sample.api (.requestJobCancellation Sample.job (Sample.event 1)) 3,
    .env (.publishForeign [] (.jobQueued Sample.queued)),
    .spawn (.deliver 1 ⟨none, [], .jobQueued Sample.queued⟩),
    Sample.go 0 4 2, Sample.go 0 4 2, Sample.go 0 4 2]

/-- The job waits in the pool for the first transition of the dispatcher's finalizer. -/
def Sample.atFinalizer (p : Pool Cluster Action Action.Res Request Report) : Bool :=
  (p.state.db.job? Sample.job).any (fun row => decide (row.state = .collectingArtifacts)) &&
    p.threads.any fun
      | ⟨.deliver _ _, _, .act (.call (.transitionJobState j source target _ none _ _)) _⟩ =>
          decide (j = Sample.job ∧ source = .collectingArtifacts ∧ target = .cleaningUp)
      | _ => false

theorem lease_free_finalization_cancelled : ∃ p row,
    (scheduler (Sample.config 3) fun _ _ => True).Reachable p ∧
    p.state.db.job? Sample.job = some row ∧ row.state = .collectingArtifacts ∧
    row.leaseId = none ∧ row.deliveryAttempts = 0 ∧ ∃ th ∈ p.threads, ∃ evidence payload eventId k,
      th.rest = .act (.call (.transitionJobState Sample.job .collectingArtifacts .cleaningUp
        evidence none payload eventId)) k := by
  have hpool : (Sample.pool? (Sample.config 3) Sample.cancelledInQueue).any Sample.atFinalizer
      = true := by decide +kernel
  obtain ⟨p, hp, hat⟩ := (Option.any_eq_true _ _).mp hpool
  have hr := Sample.reachable hp
  obtain ⟨hjob, hthread⟩ := Bool.and_eq_true_iff.mp hat
  obtain ⟨row, hrow, hstate⟩ := (Option.any_eq_true _ _).mp hjob
  obtain ⟨th, hth, hrest⟩ := List.any_eq_true.mp hthread
  split at hrest
  · next n message birth j source target evidence payload eventId k =>
      obtain ⟨rfl, rfl, rfl⟩ := of_decide_eq_true hrest
      have hfinal := (lease_free_finalization hr).2 _ hth _ _ _ _ _ _ _ rfl
      obtain ⟨hlease, hattempts⟩ := hfinal.1 row hrow
      exact ⟨p, row, hr, hrow, of_decide_eq_true hstate, hlease, hattempts trivial, _, hth,
        evidence, payload, eventId, k, rfl⟩
  · cases hrest

end RunAnywhere
