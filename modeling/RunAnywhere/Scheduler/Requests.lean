import RunAnywhere.Scheduler.Advisories
import RunAnywhere.Scheduler.Passes

/-!
# What requests keep

The control plane and the publisher keep to the discipline, and with them every request:

* **replays** — an answer that acknowledges a job is given after the job is settled; a
  replayed transition to `infra_failed` is where `Cluster.Clear` is needed
  (`classifyReplayedTransition_runs`);
* **publisher** — a queue row is marked after its message is stored
  (`dispatchMessage_keeps`);
* **the scheduler** — `scheduler_respects` collects the components: the invariant
  `Cluster.Sound`, the allowed actions, and no report of an invalid marker.
-/

namespace RunAnywhere

open Logic Machine

/-! ## The control plane -/

section Control

variable {cfg : Config} {strict : Bool} {P : Cluster → Prop}
  [(discipline cfg strict).Stable P]

theorem progressAll_keeps (w : WorkerId) (extended : List JobLeaseExtension) :
    Keeps cfg strict anyError P (ControlPlane.progressAll w extended) anyState := by
  induction extended with
  | nil => exact .pure fun _ _ _ => trivial
  | cons extension rest ih => exact .seq registryProgress_keeps fun _ => ih

/-- The acknowledgement of a settled job. -/
theorem confirmAck_runs {j : JobId} (lease : LeaseGuard)
    (h : ∀ s, s.Sound cfg.maxRunAttempts strict → P s → s.db.Settled strict j) (rounds : Nat) :
    Runs cfg strict P (ControlPlane.confirmAck cfg rounds j lease) anyState := by
  refine Triple.bind (confirmAck_keeps h rounds) fun r => ?_
  split <;> exact .done fun _ _ _ => trivial

/-- A job read back in the terminal state of a transition is settled: one that ended as
`infra_failed` with a marker is cleared. -/
theorem Cluster.Clear.settled {s : Cluster} {m : Nat} (hs : s.Sound m strict) {j : JobId}
    {row : JobRow} (hrow : s.db.job? j = some row) (hend : row.state.isTerminal = true)
    (hc : strict = true → s.Clear (.query (.schedulingSnapshot j (some row.state)))) :
    s.db.Settled strict j := by
  cases strict with
  | false => exact ⟨row, hrow, Or.inl ⟨hend, fun h => nomatch h⟩⟩
  | true =>
      by_cases hinfra : row.state = .infraFailed
      · cases hm : s.db.message? (exhaustionEventKey j row.deliveryAttempts) with
        | none => exact Db.EndedUnmarked.settled ⟨row, hrow, hend, hm⟩ true
        | some message =>
            have hclear := hc rfl
            rw [hinfra] at hclear
            have hpub := hclear row message hrow hinfra hm
            exact Db.Published.settled hs.reachable ⟨message, hm, hpub⟩ true
      · exact (ended_unmarked hs.reachable hrow hend (Or.inl hinfra)).settled true

/-- **Replayed transitions** acknowledge settled jobs only. -/
theorem classifyReplayedTransition_runs (rounds : Nat) (request : JobStateTransitionRequest)
    (lease : LeaseGuard) :
    Runs cfg strict P (ControlPlane.classifyReplayedTransition cfg rounds request lease)
      anyState := by
  refine Triple.bind (snapshot_reads (R := fun out s => ∀ snap, out = some snap →
    snap.job.state = request.target → request.target.isTerminal = true →
    s.db.Settled strict request.jobId) (fun _ _ _ _ _ h => by cases h) ?_) fun out => ?_
  · intro s snap row hs hc _ hrow hshows snap' hout hstate hend
    cases hout
    rw [hshows.job] at hstate
    rw [← hstate] at hend hc
    exact Cluster.Clear.settled hs hrow hend hc
  · split
    · exact .done fun _ _ _ => trivial
    · exact .done fun _ _ _ => trivial
    · next snap =>
        split
        · exact .done fun _ _ _ => trivial
        · next hstate =>
            split
            · next hend =>
                exact confirmAck_runs lease (fun s _ hP =>
                  hP.2.1 (some snap) rfl snap rfl (not_not.mp hstate) hend) rounds
            · split <;> exact .done fun _ _ _ => trivial

/-- The transition a worker makes under its lease settles the job it ends. -/
theorem fencedTransition_keeps (j : JobId) (source target : JobState)
    (evidence : TransitionEvidence) (lease : LeaseGuard) :
    Keeps cfg strict anyError P
      (Repository.transitionJobState j source target evidence (some lease) [])
      fun job s => job.state = target ∧
        (target.isTerminal = true → s.db.Settled strict j) := by
  refine Triple.seq runs_draw fun draw => ?_
  refine keeps_call _ (fun _ _ _ => allows_of_isPlain rfl rfl fun _ _ h => nomatch h) ?_
  intro s t job s' hs _ hc hs' _
  obtain ⟨row, _, _, hguard, hjob, hrow'⟩ := transitionJobState_stores hc
  refine ⟨hjob ▸ rfl, fun hend => ?_⟩
  -- the row that ended still names the worker that ended it
  refine (ended_unmarked hs'.reachable hrow' hend (Or.inr ?_)).settled strict
  simp only [transitionGuard, Bool.and_eq_true, Option.all_some, JobRow.heldBy,
    decide_eq_true_eq] at hguard
  show row.workerId.isSome = true
  rw [hguard.2.1.1]
  rfl

/-- A transition keeps to the discipline. -/
theorem transitionJob_runs (rounds : Nat) (w : WorkerId)
    (payload : Option JobStateTransitionRequest) :
    Runs cfg strict P (ControlPlane.transitionJob cfg rounds w payload) anyState := by
  unfold ControlPlane.transitionJob
  cases payload with
  | none => exact .done fun _ _ _ => trivial
  | some request =>
      simp only
      split
      · exact .done fun _ _ _ => trivial
      · split
        · exact .done fun _ _ _ => trivial
        · refine Triple.bind (fencedTransition_keeps _ _ _ _ _) fun r => ?_
          split
          · next job =>
              split
              · next hend =>
                  exact confirmAck_runs _ (fun s _ hP => (hP.2.1 job rfl).2 hend) rounds
              · exact .done fun _ _ _ => trivial
          · split
            · exact classifyReplayedTransition_runs rounds request _
            · exact .done fun _ _ _ => trivial

/-- A snapshot read for a result: a leased job has not ended, and an ended one that names the
worker of the result is settled. -/
theorem result_reads {j : JobId} (result : JobResult) :
    Keeps cfg strict anyError P (Repository.getJobSchedulingSnapshot j) fun out s => ∀ snap,
      out = some snap → snap.job.state.isTerminal = true →
      snap.lease = none ∧ (ControlPlane.endedBy snap result = true → s.db.Settled strict j) := by
  refine snapshot_reads (fun _ _ _ _ _ h => by cases h) ?_
  intro s snap row hs _ _ hrow hshows snap' hout hend
  cases hout
  rw [hshows.job] at hend
  refine ⟨?_, fun hended => ?_⟩
  · have hshape := shape_invariant _ s.db (components_reachable hs.reachable) j row hrow
    have hlease := hshows.lease
    unfold JobRow.lease at hlease
    rw [(hshape.terminal hend).2.2.2.2] at hlease
    split at hlease
    · next h => cases h
    · exact (Except.ok.inj hlease).symm
    · exact (Except.ok.inj hlease).symm
    · next h => cases h
  · simp only [ControlPlane.endedBy, Bool.and_eq_true, decide_eq_true_eq] at hended
    rw [hshows.job] at hended
    have hworker : row.workerId = some result.workerId := hended.2
    refine (ended_unmarked hs.reachable hrow hend (Or.inr ?_)).settled strict
    rw [hworker]
    rfl

/-- The finalizer of a result acknowledges settled jobs only. -/
theorem driveResultFinalizer_runs (rounds : Nat) (result : JobResult) (lease : LeaseGuard)
    (fuel : Nat) {state : JobState}
    (h : ∀ s, P s → state.isTerminal = true → s.db.Settled strict result.jobId) :
    Runs cfg strict P (ControlPlane.driveResultFinalizer cfg rounds result lease fuel state)
      anyState := by
  induction fuel generalizing state P with
  | zero => exact .done fun _ _ _ => trivial
  | succ fuel ih =>
      unfold ControlPlane.driveResultFinalizer
      split
      · next hend => exact confirmAck_runs lease (fun s _ hP => h s hP hend) rounds
      · split
        · exact .done fun _ _ _ => trivial
        · next target _ =>
            refine Triple.bind (fencedTransition_keeps _ _ _ _ _) fun r => ?_
            split
            · next job =>
                refine ih fun s hP hend => ?_
                obtain ⟨hjob, hset⟩ := hP.2.1 job rfl
                exact hset (hjob ▸ hend)
            · split
              · refine Triple.bind (result_reads result) fun out => ?_
                split
                · exact .done fun _ _ _ => trivial
                · exact .done fun _ _ _ => trivial
                · next snap =>
                    split
                    · next hend =>
                        split
                        · next hended =>
                            exact confirmAck_runs lease (fun s _ hP =>
                              (hP.2.1 (some snap) rfl snap rfl hend).2 hended) rounds
                        · exact .done fun _ _ _ => trivial
                    · next hlive =>
                        split
                        · exact .done fun _ _ _ => trivial
                        · exact ih fun _ _ hend => absurd hend hlive
              · exact .done fun _ _ _ => trivial

theorem classifyReplayedResult_runs (rounds : Nat) (result : JobResult) (lease : LeaseGuard) :
    Runs cfg strict P (ControlPlane.classifyReplayedResult cfg rounds result lease)
      anyState := by
  refine Triple.bind (result_reads result) fun out => ?_
  split
  · exact .done fun _ _ _ => trivial
  · exact .done fun _ _ _ => trivial
  · next snap =>
      split
      · next hboth =>
          obtain ⟨hend, hended⟩ := Bool.and_eq_true_iff.mp hboth
          exact confirmAck_runs lease (fun s _ hP =>
            (hP.2.1 (some snap) rfl snap rfl hend).2 hended) rounds
      · split
        · next hleased =>
            -- a leased job has not ended
            refine driveResultFinalizer_runs rounds result lease _ fun s hP hend => ?_
            have hnone := (hP.2.1 (some snap) rfl snap rfl hend).1
            rw [hleased.1] at hnone
            cases hnone
        · exact .done fun _ _ _ => trivial

/-- A result keeps to the discipline. -/
theorem recordResult_runs (rounds : Nat) (w : WorkerId) (payload : Option JobResult) :
    Runs cfg strict P (ControlPlane.recordResult cfg rounds w payload) anyState := by
  unfold ControlPlane.recordResult
  cases payload with
  | none => exact .done fun _ _ _ => trivial
  | some result =>
      have hrecord : Keeps cfg strict anyError P (Repository.recordJobResult result)
          fun job _ => job.state.isTerminal = false := by
        refine Triple.seq runs_draw fun draw => ?_
        refine keeps_call _ (fun _ _ _ => allows_of_isPlain rfl rfl fun _ _ h => nomatch h) ?_
        intro s t job s' _ _ hc _ _
        obtain ⟨row, _, _, hguard, _, hjob, _⟩ := recordJobResult_commits hc
        simp only [resultGuard, Bool.and_eq_true, Bool.not_eq_true'] at hguard
        rw [hjob]
        exact hguard.2
      simp only
      split
      · exact .done fun _ _ _ => trivial
      · refine Triple.bind hrecord fun r => ?_
        split
        · next job =>
            refine driveResultFinalizer_runs rounds result _ _ fun s hP hend => ?_
            rw [hP.2.1 job rfl] at hend
            cases hend
        · split
          · exact classifyReplayedResult_runs rounds result _
          · exact .done fun _ _ _ => trivial

theorem registerWorker_runs (w : WorkerId) (payload : Option WorkerRegistration) :
    Runs cfg strict P (ControlPlane.registerWorker cfg w payload) anyState := by
  unfold ControlPlane.registerWorker
  cases payload with
  | none => exact .done fun _ _ _ => trivial
  | some registration =>
      have hcall : Keeps cfg strict anyError P (act (.call (.upsertWorker registration)))
          anyState :=
        keeps_call _ (fun _ _ _ => allows_of_isPlain rfl rfl fun _ _ h => nomatch h)
          fun _ _ _ _ _ _ _ _ _ => trivial
      simp only
      split
      · exact .done fun _ _ _ => trivial
      · refine Triple.bind hcall fun r => ?_
        split <;> exact .done fun _ _ _ => trivial

theorem recordHeartbeat_runs (w : WorkerId) (payload : Option WorkerHeartbeat) :
    Runs cfg strict P (ControlPlane.recordHeartbeat cfg w payload) anyState := by
  unfold ControlPlane.recordHeartbeat
  cases payload with
  | none => exact .done fun _ _ _ => trivial
  | some heartbeat =>
      have hcall : Keeps cfg strict anyError P
          (act (.call (.recordHeartbeat heartbeat cfg.timing.databaseLeaseTtl))) anyState :=
        keeps_call _ (fun _ _ _ => allows_of_isPlain rfl rfl fun _ _ h => nomatch h)
          fun _ _ _ _ _ _ _ _ _ => trivial
      simp only
      split
      · exact .done fun _ _ _ => trivial
      · refine Triple.bind hcall fun r => ?_
        split
        · exact .done fun _ _ _ => trivial
        · refine Triple.bind (progressAll_keeps w _) fun r => ?_
          split <;> exact .done fun _ _ _ => trivial

end Control

/-! ## The publisher -/

/-- The message is a copy of an outbox row. -/
def Cluster.Copies (s : Cluster) (message : OutboxMessage) : Prop :=
  ∃ row, s.db.message? message.eventKey = some row ∧ row.id = message.id ∧
    row.subject = message.subject ∧ row.payload = message.payload

section Publisher

variable {cfg : Config} {strict : Bool}

instance (message : OutboxMessage) :
    (discipline cfg strict).Stable fun s => s.Copies message := by
  refine ⟨fun s s' _ _ hl h => ?_⟩
  obtain ⟨row, hrow, hid, hsub, hpayload⟩ := h
  obtain ⟨row', hrow', hkeeps⟩ := (Cluster.Later.db hl).message hrow
  exact ⟨row', hrow', hkeeps.id.trans hid, hkeeps.subject.trans hsub,
    hkeeps.payload.trans hpayload⟩

instance (id : String) : (discipline cfg strict).Stable fun s => s.queue.Seen id :=
  ⟨fun _ _ _ _ hl h => (Cluster.Later.queue hl).seen h⟩

theorem leaseBatch_runs {P : Cluster → Prop} [(discipline cfg strict).Stable P]
    (publisher : OutboxDispatcherConfig) :
    Runs cfg strict P (OutboxDispatcher.leaseBatch publisher) anyState :=
  Keeps.runs (leaseOutboxMessages_keeps _ _ _ _)

/-- A publication that was confirmed is stored under the key of the row. -/
theorem publishOutboxMessage_keeps (message : OutboxMessage) :
    Keeps cfg strict anyError (fun s => s.Copies message)
      (OutboxDispatcher.publishOutboxMessage message)
      fun _ s => s.queue.Seen message.eventKey := by
  unfold OutboxDispatcher.publishOutboxMessage
  split
  · exact .fail trivial
  · split
    · next queued hpayload =>
        refine keeps_ite (fun _ => .fail trivial) fun hne => ?_
        have hkey : message.eventKey = queued.jobId.val := not_not.mp hne
        have hpublish : Runs cfg strict (fun s => s.Copies message)
            (act (.stream (.publish
              ⟨some queued.jobId.val, message.traceHeaders, .jobQueued queued⟩)))
            fun r s => ∀ u, r = .ok u → s.queue.Seen message.eventKey := by
          refine runs_stream (fun s hs hP id hid => ?_) fun s c r s' _ _ hrun _ _ u hr => ?_
          · obtain rfl := Option.some.inj hid
            obtain ⟨row, hrow, _, _, hcopy⟩ := hP
            rw [hkey] at hrow
            obtain ⟨_, jobRow, hjob, hcanon⟩ := queueMessages_invariant _ s.db
              (components_reachable hs.reachable) queued.jobId row hrow
            rw [hcopy, hpayload] at hcanon
            have hqueued := OutboxPayload.jobQueued.inj hcanon
            exact ⟨queued.jobId, jobRow, hjob, congrArg QueuePayload.jobQueued hqueued,
              Or.inl rfl⟩
          · obtain ⟨rfl, rfl⟩ := Prod.mk.inj hrun
            unfold confirm at hr
            split at hr
            · next hfate =>
                rw [hkey, hfate]
                exact WorkQueue.publish_seen _ rfl
            · cases hr
        exact hpublish.keeps fun s u _ hq => hq u rfl
    · exact .fail trivial

/-- **The publisher** marks a row after its message is stored. -/
theorem dispatchMessage_keeps (publisher : OutboxDispatcherConfig) (message : OutboxMessage) :
    Keeps cfg strict anyError (fun s => s.Copies message)
      (OutboxDispatcher.dispatchMessage publisher message) anyState := by
  refine .bind (publishOutboxMessage_keeps message).attempt fun r => ?_
  split
  · refine .seq (.try_ (markOutboxPublished_keeps fun s hs hP id d hop j row hrow hid => ?_)
      fun _ _ => trivial) fun _ => .pure fun _ _ _ => trivial
    -- identities are unique, so the row marked is the one published
    cases hop
    obtain ⟨⟨own, hown, hownId, _⟩, hseen⟩ := hP
    have hkeys := (outboxIds_invariant _ s.db (components_reachable hs.reachable)
      message.eventKey own hown).2 j.val row hrow (hid.trans hownId.symm)
    rw [hkeys]
    exact hseen _ rfl
  · refine .seq (.lift runs_now) fun at_ => ?_
    exact .seq (.try_ (retryOutboxMessage_keeps _ _ _ _) fun _ _ => trivial)
      fun _ => .pure fun _ _ _ => trivial

end Publisher

/-! ## All requests -/

/-- The report is not one of an invalid marker. -/
def Report.Benign : Report → Prop
  | .dispatcher (.error e) => e.Benign
  | .advisory (.error e) => e.Benign
  | .reconciler (.error e) => e.Benign
  | _ => True

section Scheduler

variable {cfg : Config} {strict : Bool}

theorem reporting_runs {P : Cluster → Prop} [(discipline cfg strict).Stable P] {α : Type}
    {p : Task α} {R : α → Cluster → Prop} [∀ a, (discipline cfg strict).Stable (R a)]
    {report : α → Report} (h : Runs cfg strict P p R) (hreport : ∀ a s, R a s → (report a).Benign) :
    Runs cfg strict P (reporting report p) fun r _ => r.Benign :=
  Triple.bind h fun a => Triple.done fun s _ hP => hreport a s hP.2

/-- What a routine reports. -/
theorem reporting_keeps {P : Cluster → Prop} [(discipline cfg strict).Stable P] {ε : Type}
    {E : ε → Prop} {p : TaskOr ε Unit} {report : Except ε Unit → Report}
    (h : Keeps cfg strict E P p anyState) (hok : (report (.ok ())).Benign)
    (herror : ∀ e, E e → (report (.error e)).Benign) :
    Runs cfg strict P (reporting report p) fun r _ => r.Benign := by
  refine reporting_runs h fun r s hr => ?_
  cases r with
  | ok u => exact hok
  | error e => exact herror e (hr.2 e rfl)

/-- **The scheduler** keeps to the discipline. -/
theorem scheduler_respects (cfg : Config) (strict : Bool) :
    Machine.Respects (machine cfg) (discipline cfg strict) fun _ _ report _ => report.Benign where
  act _ _ _ _ hs _ hx hexec := Cluster.Sound.act hs hx hexec
  env _ _ _ hs he := Cluster.Sound.outer hs he
  crash _ hs := Cluster.Sound.crash hs cfg
  spawn s request hs hen := by
    have htrue : ∀ {p : Task Report}, Runs cfg strict (fun _ => True) p (fun r _ => r.Benign) →
        Safe (machine cfg) (discipline cfg strict) (fun r _ => r.Benign) p s :=
      fun h => h s hs trivial
    cases request with
    | deliver n message =>
        have hstored : s.queue.message? n = some message := of_decide_eq_true hen
        have hruns : Runs cfg strict (fun s => s.Stores n message)
            (Dispatcher.deliver cfg n message) fun r _ => ∀ e, r = .error e → e.Benign :=
          deliver_runs fun _ h => h
        refine reporting_runs hruns (fun r _ hr => ?_) s hs hstored
        cases r with
        | ok u => trivial
        | error e => exact hr e rfl
    | dispatchOne => exact htrue (reporting_keeps dispatchOne_benign trivial fun _ h => h)
    | advisory notice => exact htrue (reporting_keeps (handle_benign notice) trivial fun _ h => h)
    | runOnce rounds => exact htrue (reporting_keeps (runOnce_benign rounds) trivial fun _ h => h)
    | register w payload =>
        exact htrue (reporting_runs (registerWorker_runs w payload) fun _ _ _ => trivial)
    | heartbeat w payload =>
        exact htrue (reporting_runs (recordHeartbeat_runs w payload) fun _ _ _ => trivial)
    | transition rounds w payload =>
        exact htrue (reporting_runs (transitionJob_runs rounds w payload) fun _ _ _ => trivial)
    | result rounds w payload =>
        exact htrue (reporting_runs (recordResult_runs rounds w payload) fun _ _ _ => trivial)
    | leaseQueued publisher =>
        exact htrue (reporting_runs (leaseBatch_runs publisher) fun _ _ _ => trivial)
    | dispatchMessage publisher message =>
        have hcopy : s.Copies message := by
          have hany : s.db.isCopy message = true := hen
          unfold Db.isCopy at hany
          cases hrow : s.db.message? message.eventKey with
          | none =>
              rw [hrow] at hany
              cases hany
          | some row =>
              rw [hrow] at hany
              simp only [Option.any_some, Bool.and_eq_true, decide_eq_true_eq] at hany
              exact ⟨row, hrow, hany.1.1, hany.1.2, hany.2⟩
        refine reporting_runs (dispatchMessage_keeps publisher message) (fun _ _ _ => ?_) s hs hcopy
        trivial

/-- Every run is one of the weaker discipline. -/
theorem scheduler_reachable {p : Pool Cluster Action Action.Res Request Report}
    (hp : (scheduler cfg fun _ _ => True).Reachable p) :
    (scheduler cfg (discipline cfg false).cond).Reachable p :=
  TSys.Reachable.mono (T := scheduler cfg fun _ _ => True)
    (U := scheduler cfg (discipline cfg false).cond) (fun _ hi => hi)
    (fun _ _ _ hstep => ⟨hstep.1, fun _ _ h => nomatch h⟩) hp

theorem scheduler_run {p p' : Pool Cluster Action Action.Res Request Report}
    {cs : List (Cmd Request Choice Outer)} (h : (scheduler cfg fun _ _ => True).Run p cs p') :
    (scheduler cfg (discipline cfg false).cond).Run p cs p' :=
  TSys.Run.mono (T := scheduler cfg fun _ _ => True)
    (U := scheduler cfg (discipline cfg false).cond)
    (fun _ _ _ hstep => ⟨hstep.1, fun _ _ h => nomatch h⟩) h

theorem boot_sound (cfg : Config) (strict : Bool) (s : Cluster)
    (h : ∃ catalog, s = Cluster.boot cfg catalog) : s.Sound cfg.maxRunAttempts strict := by
  obtain ⟨catalog, rfl⟩ := h
  exact Cluster.sound_boot cfg strict catalog

/-- The cluster of a reachable pool is sound. -/
theorem scheduler_sound {p : Pool Cluster Action Action.Res Request Report}
    (hp : (scheduler cfg (discipline cfg strict).cond).Reachable p) :
    p.state.Sound cfg.maxRunAttempts strict :=
  (scheduler_respects cfg strict).inv (boot_sound cfg strict) hp

end Scheduler

end RunAnywhere
