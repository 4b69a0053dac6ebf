import RunAnywhere.Logic.Path
import RunAnywhere.Scheduler.Requests
import RunAnywhere.Theorems.EventLog

/-!
# A worker can only affect its own world

What a request on a control subject of worker `w` can change, whatever its payload and
whatever happens in between:

* **calls** — the worker row of `w`, and job rows leased to `w` under a lease the payload
  names, with their events and webhooks (`Op.Own.frame`);
* **registry** — bindings of such a lease (`OnlyOwn.bindings`); a delivery it acknowledges was
  found in one;
* **misdirected payloads** — a payload that names another worker comes to no action.
-/

namespace RunAnywhere

open Logic

/-! ## Calls -/

/-- The job an outbox row is about. -/
def OutboxPayload.jobId? : OutboxPayload → Option JobId
  | .jobQueued queued => some queued.jobId
  | .jobDeadLetter deadLetter => deadLetter.jobId
  | .webhook delivery => some delivery.event.jobId

/-- The calls the control plane makes for worker `w` under the leases `Names`. -/
inductive Op.Own (w : WorkerId) (Names : JobId → LeaseId → Prop) : Op → Prop
  | upsertWorker {registration} (worker : registration.workerId = w) :
      Own w Names (.upsertWorker registration)
  | recordHeartbeat {heartbeat leaseTtl} (worker : heartbeat.workerId = w)
      (names : ∀ e ∈ heartbeat.leaseExtends, Names e.jobId e.leaseId) :
      Own w Names (.recordHeartbeat heartbeat leaseTtl)
  | transitionJobState {j l source target evidence payload eventId} (names : Names j l) :
      Own w Names (.transitionJobState j source target evidence (some ⟨w, l⟩) payload eventId)
  | recordJobResult {result eventId} (worker : result.workerId = w)
      (names : Names result.jobId result.leaseId) : Own w Names (.recordJobResult result eventId)

/-- The job is leased to `w` under a lease that is named. -/
def Db.LeasedTo (db : Db) (w : WorkerId) (Names : JobId → LeaseId → Prop) (j : JobId) : Prop :=
  ∃ row l, db.job? j = some row ∧ row.workerId = some w ∧ row.leaseId = some l ∧ Names j l

/-- Only the world of `w` changes. -/
structure Db.OnlyOwn (w : WorkerId) (Names : JobId → LeaseId → Prop) (db db' : Db) : Prop where
  workers : ∀ other, other ≠ w → db'.worker? other = db.worker? other
  jobs : ∀ j, ¬ db.LeasedTo w Names j →
    db'.job? j = db.job? j ∧ db'.eventsOf j = db.eventsOf j ∧
      ∀ key row, row.payload.jobId? = some j →
        (db'.message? key = some row ↔ db.message? key = some row)
  outbox : ∀ key row, db.message? key = some row → db'.message? key = some row

theorem Db.OnlyOwn.refl (w : WorkerId) (Names : JobId → LeaseId → Prop) (db : Db) :
    Db.OnlyOwn w Names db db :=
  ⟨fun _ _ => rfl, fun _ _ => ⟨rfl, rfl, fun _ _ _ => Iff.rfl⟩, fun _ _ h => h⟩

section Calls

variable {w : WorkerId} {Names : JobId → LeaseId → Prop} {op : Op} {t : DbTime} {db db' : Db}
  {out : op.Out}

/-- A row such a call changes was leased to the worker. -/
theorem RowChange.own {j : JobId} {old : Option JobRow} {new : JobRow}
    (h : RowChange op t j old new) (hop : op.Own w Names) :
    ∃ row l, old = some row ∧ row.workerId = some w ∧ row.leaseId = some l ∧ Names j l := by
  cases hop with
  | upsertWorker => cases h
  | recordHeartbeat hworker hnames =>
      cases h with
      | heartbeat _ hmem hguard =>
          obtain ⟨hw, hl, _⟩ := extendGuard_iff.mp hguard
          exact ⟨_, _, rfl, hworker ▸ hw, hl, hnames _ hmem⟩
  | transitionJobState hnames =>
      cases h with
      | transition _ hguard =>
          obtain ⟨hw, hl, _⟩ := (transitionGuard_iff.mp hguard).2.2 _ rfl
          exact ⟨_, _, rfl, hw, hl, hnames⟩
  | recordJobResult hworker hnames =>
      cases h with
      | result hguard =>
          obtain ⟨hw, hl, _⟩ := resultGuard_iff.mp hguard
          exact ⟨_, _, rfl, hworker ▸ hw, hl, hnames⟩

theorem Db.worker?_put {worker : WorkerId} {row : WorkerRow} {hc : row.Checks} {other : WorkerId}
    (h : db'.workers = db.workers.put worker ⟨row, hc⟩) (hne : other ≠ worker) :
    db'.worker? other = db.worker? other := by
  unfold Db.worker?
  rw [h]
  exact Table.row?_put_of_ne _ _ _ hne

/-- Such a call changes the worker row of its worker only. -/
theorem Op.Own.workers (hop : op.Own w Names) (h : (op.tx t).Commits db out db')
    {other : WorkerId} (hne : other ≠ w) : db'.worker? other = db.worker? other := by
  cases hop with
  | upsertWorker hworker =>
      subst hworker
      rcases upsertWorker_commits h with ⟨_, _, rfl⟩ | ⟨_, _, _, rfl⟩
      · exact Db.worker?_put rfl hne
      · exact Db.worker?_put rfl hne
  | recordHeartbeat hworker _ =>
      subst hworker
      obtain ⟨_, _, _, _, _, rfl, _, honly, _⟩ := recordHeartbeat_commits h
      exact Db.worker?_put honly.workers hne
  | @transitionJobState j l source target evidence payload eventId _ =>
      obtain ⟨row, hc, db₁, _, _, hguard, _, hrel, _, hworkers, _⟩ := transitionJobStateWith_commits h
      have hrow : row.workerId = some w := ((transitionGuard_iff.mp hguard).2.2 _ rfl).1
      have hsame : db'.worker? other = db₁.worker? other := by
        unfold Db.worker?
        rw [hworkers]
      rw [hsame]
      cases hr : releasesOn target row with
      | none =>
          rw [hr] at hrel
          subst hrel
          rfl
      | some owner =>
          rw [hr] at hrel
          -- the capacity released is that of the row's worker
          have howner : owner = w := by
            unfold releasesOn at hr
            split at hr
            · exact Option.some.inj (hr.symm.trans hrow)
            · cases hr
          subst howner
          rcases releaseWorkerCapacity_commits hrel with ⟨_, rfl⟩ | ⟨_, _, _, rfl⟩
          · rfl
          · exact Db.worker?_put rfl hne
  | recordJobResult =>
      obtain ⟨_, _, _, _, _, _, _, hworkers, _⟩ := recordJobResult_commits h
      unfold Db.worker?
      rw [hworkers]

/-- Such a call adds webhook rows to the outbox and leaves the rest of it alone. -/
theorem Op.Own.outbox (hop : op.Own w Names) (h : (op.tx t).Commits db out db') :
    OutboxGrew IsWebhookRow db db' := by
  cases hop with
  | upsertWorker =>
      rcases upsertWorker_commits h with ⟨_, _, rfl⟩ | ⟨_, _, _, rfl⟩
      · exact .of_eq rfl rfl
      · exact .of_eq rfl rfl
  | recordHeartbeat =>
      obtain ⟨_, _, _, _, _, rfl, _, honly, _⟩ := recordHeartbeat_commits h
      exact .of_eq honly.outbox honly.nextOutboxId
  | @transitionJobState j l source target =>
      obtain ⟨row, hc, db₁, _, _, _, _, hrel, _, _, _, _, hgrew⟩ := transitionJobStateWith_commits h
      have hframe : db₁.outbox = db.outbox ∧ db₁.nextOutboxId = db.nextOutboxId := by
        cases hr : releasesOn target row with
        | none =>
            rw [hr] at hrel
            subst hrel
            exact ⟨rfl, rfl⟩
        | some owner =>
            rw [hr] at hrel
            rcases releaseWorkerCapacity_commits hrel with ⟨_, rfl⟩ | ⟨_, _, _, rfl⟩
            · exact ⟨rfl, rfl⟩
            · exact ⟨rfl, rfl⟩
      exact hgrew.of_source hframe.1 hframe.2
  | recordJobResult =>
      obtain ⟨_, _, _, _, _, _, _, _, _, _, hout, hids⟩ := recordJobResult_commits h
      exact .of_eq hout hids

/-- **Calls.** -/
theorem Op.Own.frame (hop : op.Own w Names) (h : (op.tx t).Commits db out db')
    (hsound : db.LogSound) : Db.OnlyOwn w Names db db' := by
  have hgrew := hop.outbox h
  refine ⟨fun other hne => hop.workers h hne, fun j hleased => ?_, fun key row hk => hgrew.old hk⟩
  have htouch : db'.job? j = db.job? j ∧ db'.eventsOf j = db.eventsOf j := by
    rcases Op.rows h j with hsame | ⟨new, _, hchange⟩
    · exact hsame
    · obtain ⟨row, l, hrow, hworker, hlease, hnames⟩ := hchange.own hop
      exact absurd ⟨row, l, hrow, hworker, hlease, hnames⟩ hleased
  refine ⟨htouch.1, htouch.2, fun key row hpayload => ⟨fun hk => ?_, fun hk => hgrew.old hk⟩⟩
  rcases hgrew.rows key with hsame | ⟨new, hnone, hnew, _, _, _, hwebhook⟩
  · exact hsame ▸ hk
  · -- a new row delivers the event of the job that was written
    obtain rfl := Option.some.inj (hnew.symm.trans hk)
    have hlogs := Op.logs h
    cases hw : op.wrote out with
    | none =>
        rw [hw] at hlogs
        exact absurd hwebhook.1 (hlogs.outbox key new hnone hk).1
    | some k =>
        rw [hw] at hlogs
        obtain ⟨stored, hwrote⟩ := hlogs
        obtain ⟨event, hlogged, _⟩ := hwrote.logged hsound.keys
        obtain ⟨hook, hmem, rfl⟩ := hlogged.notifies.only key new hnone hk hwebhook.1
        obtain ⟨_, row', hrow', hdelivers⟩ := hlogged.notifies.added hook hmem
        obtain rfl := Option.some.inj (hrow'.symm.trans hk)
        rw [hdelivers.payload] at hpayload
        have hjob : event.jobId = j := Option.some.inj hpayload
        have hgrown := Db.eventsOf_append db j hlogged.events
        rw [htouch.2, if_pos hjob] at hgrown
        exact absurd hgrown.symm (by simp)

end Calls

/-! ## Actions -/

/-- The deliveries the program found bound to a named lease of `w`. -/
def Found (w : WorkerId) (Names : JobId → LeaseId → Prop) (past : List (Σ x, Action.Res x))
    (n : Nat) : Prop :=
  ∃ j l b, Names j l ∧ b.streamSequence = n ∧
    ((⟨.memory (.binding j w l), .ok b⟩ : Σ x, Action.Res x) ∈ past ∨
      ∃ m, (⟨.memory (.settle j w l m), .ok (some b)⟩ : Σ x, Action.Res x) ∈ past)

/-- The actions of a request of worker `w` that names the leases `Names`. -/
inductive Action.Own (w : WorkerId) (Names : JobId → LeaseId → Prop)
    (past : List (Σ x, Action.Res x)) : Action → Prop
  | query (q) : Own w Names past (.query q)
  | outside (x) : Own w Names past (.outside x)
  | stop : Own w Names past .stop
  | call {op} (own : op.Own w Names) : Own w Names past (.call op)
  | binding (j l) : Own w Names past (.memory (.binding j w l))
  | settle {j l} (names : Names j l) (n) : Own w Names past (.memory (.settle j w l n))
  | progress (n) : Own w Names past (.stream (.progress n))
  | doubleAck {n} (found : Found w Names past n) : Own w Names past (.stream (.doubleAck n))

/-- Only the world of `w` changes. -/
structure Cluster.OnlyOwn (w : WorkerId) (Names : JobId → LeaseId → Prop) (s s' : Cluster) :
    Prop where
  db : s.db.OnlyOwn w Names s'.db
  bindings : ∀ j b, s.memory.registry.get? j = some b → ¬ (b.workerId = w ∧ Names j b.leaseId) →
    s'.memory.registry.get? j = some b

theorem Cluster.OnlyOwn.refl (w : WorkerId) (Names : JobId → LeaseId → Prop) (s : Cluster) :
    s.OnlyOwn w Names s :=
  ⟨.refl w Names s.db, fun _ _ hb _ => hb⟩

/-- Settling drops a binding of the lease, or nothing. -/
theorem settle_bindings {m : LeaderMemory} {j k : JobId} {w : WorkerId} {l : LeaseId} {n : Nat}
    {b : AckBinding} (hb : m.registry.get? k = some b)
    (hforeign : ¬ (b.workerId = w ∧ k = j ∧ b.leaseId = l)) :
    ((MemoryCall.settle j w l n).run m).2.registry.get? k = some b := by
  simp only [MemoryCall.run]
  cases hget : m.registry.get? j with
  | none => exact hb
  | some current =>
      simp only
      split
      · next hfor =>
          obtain ⟨hworker, hlease⟩ := AckBinding.isFor_iff.mp hfor
          split
          · rw [Table.get?_erase]
            split
            · next hk =>
                subst hk
                obtain rfl := Option.some.inj (hget.symm.trans hb)
                exact absurd ⟨hworker, rfl, hlease⟩ hforeign
            · exact hb
          · exact hb
      · exact hb

/-- **Actions.** -/
theorem Action.Own.frame {cfg : Config} {w : WorkerId} {Names : JobId → LeaseId → Prop}
    {past : List (Σ x, Action.Res x)} {x : Action} (hx : x.Own w Names past) {s s' : Cluster}
    (hsound : s.db.LogSound) {r : x.Res} (h : (machine cfg).Exec s x r s') :
    s.OnlyOwn w Names s' := by
  cases hx with
  | query q =>
      obtain ⟨rfl, _⟩ := exec_query h
      exact .refl w Names s'
  | outside x =>
      obtain rfl := exec_outside h
      exact .refl w Names s'
  | stop =>
      obtain ⟨c, hc⟩ := h
      cases hc
  | @call op hop =>
      rcases exec_call h with ⟨rfl, _⟩ | ⟨t, answer, hexec, _⟩
      · exact .refl w Names s'
      · obtain ⟨heq, _, hmemory⟩ := execute_eq hexec
        refine ⟨?_, fun j b hb _ => hmemory ▸ hb⟩
        rcases Tx.exec_cases (op.tx t) s.db with ⟨out, db', hc, he⟩ | ⟨e, _, he⟩
        · obtain ⟨_, rfl⟩ := Prod.mk.inj (he.symm.trans heq)
          exact hop.frame hc hsound
        · obtain ⟨_, hdb⟩ := Prod.mk.inj (he.symm.trans heq)
          rw [← hdb]
          exact .refl w Names s.db
  | binding j l =>
      obtain ⟨_, rfl⟩ := exec_memory h
      exact .refl w Names s
  | @settle j l hnames n =>
      obtain ⟨_, rfl⟩ := exec_memory h
      refine ⟨.refl w Names s.db, fun k b hb hforeign => settle_bindings hb ?_⟩
      rintro ⟨hw, rfl, rfl⟩
      exact hforeign ⟨hw, hnames⟩
  | progress n =>
      obtain ⟨c, hc⟩ := exec_stream h
      obtain rfl := (Prod.mk.inj hc).2
      exact .refl w Names s
  | @doubleAck n hfound =>
      obtain ⟨c, hc⟩ := exec_stream h
      obtain rfl := (Prod.mk.inj hc).2
      unfold Cluster.exchange
      split
      · exact .refl w Names s
      · exact ⟨.refl w Names s.db, fun _ _ hb _ => hb⟩

/-! ## Programs -/

section Programs

open Prog

variable {w : WorkerId} {Names : JobId → LeaseId → Prop} {past : List (Σ x, Action.Res x)}

/-- The program acts within the world of `w`, whatever it did before. -/
abbrev Owns (w : WorkerId) (Names : JobId → LeaseId → Prop) {α : Type} (p : Task α)
    (past : List (Σ x, Action.Res x)) : Prop :=
  Along (fun past x => x.Own w Names past) (fun _ _ => True) p past

/-- Sequencing, when the rest is fine after anything. -/
theorem Owns.bind {α β : Type} {p : Task α} {f : α → Task β} (hp : Owns w Names p past)
    (hf : ∀ a past, Owns w Names (f a) past) : Owns w Names (p >>= f) past :=
  Along.bind (hp.mono fun a past _ => hf a past)

/-- Sequencing of routines, when the rest is fine after anything. -/
theorem Owns.andThen {ε α β : Type} {p : TaskOr ε α} {f : α → TaskOr ε β}
    (hp : Owns w Names p past) (hf : ∀ a past, Owns w Names (f a) past) :
    Owns w Names (p >>= f : TaskOr ε β) past := by
  refine Along.andThen (hp.mono fun r past _ => ?_)
  cases r with
  | error e => trivial
  | ok a => exact hf a past

theorem Owns.perform {x : Action} (hx : x.Own w Names past) : Owns w Names (act x) past :=
  ⟨hx, fun _ => trivial⟩

theorem transitionJobState_owns {j : JobId} {l : LeaseId} {source target : JobState}
    {evidence : TransitionEvidence} {payload : List (String × EventValue)} (hnames : Names j l) :
    Owns w Names (Repository.transitionJobState j source target evidence (some ⟨w, l⟩) payload)
      past :=
  Owns.bind (.perform (.outside .draw)) fun _ _ => .perform (.call (.transitionJobState hnames))

theorem recordJobResult_owns {result : JobResult} (hworker : result.workerId = w)
    (hnames : Names result.jobId result.leaseId) :
    Owns w Names (Repository.recordJobResult result) past :=
  Owns.bind (.perform (.outside .draw)) fun _ _ =>
    .perform (.call (.recordJobResult hworker hnames))

/-- A confirmed delivery was found in the registry, and so was the one that replaced it. -/
theorem confirmLoop_owns {j : JobId} {l : LeaseId} (hnames : Names j l) (rounds : Nat)
    {b : AckBinding} (hfound : Found w Names past b.streamSequence) :
    Owns w Names (AckRegistry.confirmLoop j w l rounds b) past := by
  induction rounds generalizing b past with
  | zero => exact ⟨.stop, fun e => nomatch e⟩
  | succ rounds ih =>
      refine Along.andThen (Along.try_ ⟨.doubleAck hfound, fun r => ?_⟩)
      cases r with
      | error e => trivial
      | ok _ =>
          refine Along.andThen ⟨.settle hnames _, fun r => ?_⟩
          cases r with
          | error e => trivial
          | ok current =>
              cases current with
              | none => trivial
              | some b' =>
                  refine ih ⟨j, l, b', hnames, rfl, Or.inr ⟨b.streamSequence, ?_⟩⟩
                  exact List.mem_append_right _ List.mem_cons_self

theorem confirmAck_owns (cfg : Config) (rounds : Nat) {j : JobId} {l : LeaseId}
    (hnames : Names j l) : Owns w Names (ControlPlane.confirmAck cfg rounds j ⟨w, l⟩) past := by
  refine Owns.bind (Along.andThen ⟨.binding j l, fun r => ?_⟩) fun r past => ?_
  · cases r with
    | error e => trivial
    | ok b =>
        refine confirmLoop_owns hnames rounds ⟨j, l, b, hnames, rfl, Or.inl ?_⟩
        exact List.mem_append_right _ List.mem_cons_self
  · split
    · trivial
    · trivial
    · trivial

theorem progress_owns (j : JobId) (l : LeaseId) :
    Owns w Names (AckRegistry.progress j w l) past :=
  Owns.andThen (.perform (.binding j l)) fun _ _ =>
    Along.try_ ⟨.progress _, fun _ => trivial⟩

theorem progressAll_owns (exts : List JobLeaseExtension) :
    Owns w Names (ControlPlane.progressAll w exts) past := by
  induction exts generalizing past with
  | nil => trivial
  | cons e rest ih => exact Owns.andThen (progress_owns e.jobId e.leaseId) fun _ _ => ih

theorem classifyReplayedTransition_owns (cfg : Config) (rounds : Nat)
    {request : JobStateTransitionRequest} {l : LeaseId} (hnames : Names request.jobId l) :
    Owns w Names (ControlPlane.classifyReplayedTransition cfg rounds request ⟨w, l⟩) past := by
  refine Owns.bind (.perform (.query _)) fun r past => ?_
  split
  · trivial
  · trivial
  · split
    · trivial
    · split
      · exact confirmAck_owns cfg rounds hnames
      · split
        · trivial
        · trivial

theorem driveResultFinalizer_owns (cfg : Config) (rounds : Nat) {result : JobResult} {l : LeaseId}
    (hnames : Names result.jobId l) (fuel : Nat) (state : JobState) :
    Owns w Names (ControlPlane.driveResultFinalizer cfg rounds result ⟨w, l⟩ fuel state) past := by
  induction fuel generalizing state past with
  | zero => trivial
  | succ fuel ih =>
      unfold ControlPlane.driveResultFinalizer
      split
      · exact confirmAck_owns cfg rounds hnames
      · split
        · trivial
        · refine Owns.bind (transitionJobState_owns hnames) fun r past => ?_
          split
          · exact ih _
          · split
            · refine Owns.bind (.perform (.query _)) fun r past => ?_
              split
              · trivial
              · trivial
              · split
                · split
                  · exact confirmAck_owns cfg rounds hnames
                  · trivial
                · split
                  · trivial
                  · exact ih _
            · trivial

theorem classifyReplayedResult_owns (cfg : Config) (rounds : Nat) {result : JobResult}
    {l : LeaseId} (hnames : Names result.jobId l) :
    Owns w Names (ControlPlane.classifyReplayedResult cfg rounds result ⟨w, l⟩) past := by
  refine Owns.bind (.perform (.query _)) fun r past => ?_
  split
  · trivial
  · trivial
  · split
    · exact confirmAck_owns cfg rounds hnames
    · split
      · exact driveResultFinalizer_owns cfg rounds hnames _ _
      · trivial

end Programs

/-! ## Requests -/

namespace Request

/-- The worker of the control subject a request came on. -/
def subject? : Request → Option WorkerId
  | .register w _ | .heartbeat w _ | .transition _ w _ | .result _ w _ => some w
  | _ => none

/-- The worker the payload names. -/
def worker? : Request → Option WorkerId
  | .register _ payload => payload.map (·.workerId)
  | .heartbeat _ payload => payload.map (·.workerId)
  | .transition _ _ payload => payload.map (·.workerId)
  | .result _ _ payload => payload.map (·.workerId)
  | _ => none

/-- The leases the payload names. -/
def Names : Request → JobId → LeaseId → Prop
  | .heartbeat _ (some payload), j, l => ⟨j, l⟩ ∈ payload.leaseExtends
  | .transition _ _ (some payload), j, l => j = payload.jobId ∧ l = payload.leaseId
  | .result _ _ (some payload), j, l => j = payload.jobId ∧ l = payload.leaseId
  | _, _, _ => False

/-- **Programs.** A control request acts within the world of its subject's worker. -/
theorem owns {cfg : Config} {request : Request} {w : WorkerId} (h : request.subject? = some w) :
    Owns w request.Names (request.prog cfg) [] := by
  cases request with
  | register subject payload =>
      obtain rfl := Option.some.inj h
      refine Owns.bind ?_ fun _ _ => trivial
      unfold ControlPlane.registerWorker
      split
      · trivial
      · next registration =>
          split
          · trivial
          · next hsame =>
              refine Owns.bind (.perform (.call (.upsertWorker ?_))) fun r _ => ?_
              · exact (not_not.mp hsame).symm
              · split
                · trivial
                · trivial
  | heartbeat subject payload =>
      obtain rfl := Option.some.inj h
      refine Owns.bind ?_ fun _ _ => trivial
      unfold ControlPlane.recordHeartbeat
      split
      · trivial
      · next heartbeat =>
          split
          · trivial
          · next hsame =>
              refine Owns.bind (.perform (.call (.recordHeartbeat ?_ fun e he => he))) fun r _ => ?_
              · exact (not_not.mp hsame).symm
              · split
                · trivial
                · refine Owns.bind (progressAll_owns _) fun r _ => ?_
                  split
                  · trivial
                  · trivial
  | transition rounds subject payload =>
      obtain rfl := Option.some.inj h
      refine Owns.bind ?_ fun _ _ => trivial
      unfold ControlPlane.transitionJob
      split
      · trivial
      · next request =>
          split
          · trivial
          · next hsame =>
              obtain rfl := not_not.mp hsame
              have hnames : Names (.transition rounds request.workerId (some request)) request.jobId
                  request.leaseId := ⟨rfl, rfl⟩
              split
              · trivial
              · refine Owns.bind (transitionJobState_owns hnames) fun r _ => ?_
                split
                · split
                  · exact confirmAck_owns cfg rounds hnames
                  · trivial
                · split
                  · exact classifyReplayedTransition_owns cfg rounds hnames
                  · trivial
  | result rounds subject payload =>
      obtain rfl := Option.some.inj h
      refine Owns.bind ?_ fun _ _ => trivial
      unfold ControlPlane.recordResult
      split
      · trivial
      · next result =>
          split
          · trivial
          · next hsame =>
              obtain rfl := not_not.mp hsame
              have hnames : Names (.result rounds result.workerId (some result)) result.jobId
                  result.leaseId := ⟨rfl, rfl⟩
              refine Owns.bind (recordJobResult_owns rfl hnames) fun r _ => ?_
              split
              · exact driveResultFinalizer_owns cfg rounds hnames _ _
              · split
                · exact classifyReplayedResult_owns cfg rounds hnames
                · trivial
  | _ => cases h

/-- A payload that names another worker, or none, comes to no action. -/
theorem misdirected {cfg : Config} {request : Request} {w : WorkerId}
    (h : request.subject? = some w) (hother : request.worker? ≠ some w) :
    ∃ report, request.prog cfg = .done report := by
  have hne : ∀ {other : WorkerId}, some other ≠ some w → w ≠ other := fun hne heq =>
    hne (congrArg some heq.symm)
  cases request with
  | register subject payload =>
      obtain rfl := Option.some.inj h
      cases payload with
      | none => exact ⟨_, rfl⟩
      | some registration =>
          refine ⟨.response .staleLease, ?_⟩
          show reporting .response (if subject ≠ registration.workerId then _ else _) = _
          rw [if_pos (hne hother)]
          rfl
  | heartbeat subject payload =>
      obtain rfl := Option.some.inj h
      cases payload with
      | none => exact ⟨_, rfl⟩
      | some beat =>
          refine ⟨.response .staleLease, ?_⟩
          show reporting .response (if subject ≠ beat.workerId then _ else _) = _
          rw [if_pos (hne hother)]
          rfl
  | transition rounds subject payload =>
      obtain rfl := Option.some.inj h
      cases payload with
      | none => exact ⟨_, rfl⟩
      | some move =>
          refine ⟨.response .staleLease, ?_⟩
          show reporting .response (if subject ≠ move.workerId then _ else _) = _
          rw [if_pos (hne hother)]
          rfl
  | result rounds subject payload =>
      obtain rfl := Option.some.inj h
      cases payload with
      | none => exact ⟨_, rfl⟩
      | some outcome =>
          refine ⟨.response .staleLease, ?_⟩
          show reporting .response (if subject ≠ outcome.workerId then _ else _) = _
          rw [if_pos (hne hother)]
          rfl
  | _ => cases h

end Request

open Machine

/-- The registry bound delivery `n` to a named lease of `w` at an earlier point of the run. -/
def BoundBefore (cfg : Config) (w : WorkerId) (Names : JobId → LeaseId → Prop)
    (p : Pool Cluster Action Action.Res Request Report) (n : Nat) : Prop :=
  ∃ q cs j b, (scheduler cfg fun _ _ => True).Reachable q ∧
    (scheduler cfg fun _ _ => True).Run q cs p ∧ q.state.memory.registry.get? j = some b ∧
    b.streamSequence = n ∧ b.workerId = w ∧ Names j b.leaseId

/-- What a program found was bound. -/
theorem Found.bound {cfg : Config} {w : WorkerId} {Names : JobId → LeaseId → Prop}
    {p : Pool Cluster Action Action.Res Request Report} {past : List (Σ x, Action.Res x)} {n : Nat}
    (h : Found w Names past n)
    (hmade : ∀ step ∈ past, (machine cfg).Performed (fun s => ∃ catalog, s = Cluster.boot cfg catalog)
      (fun _ _ => True) p step) : BoundBefore cfg w Names p n := by
  obtain ⟨j, l, b, hnames, hseq, hmem | ⟨m, hmem⟩⟩ := h
  · obtain ⟨q, cs, s', hq, hrun, hexec⟩ := hmade _ hmem
    obtain ⟨hb, hw, hl⟩ := binding_found (exec_memory hexec).1
    exact ⟨q, cs, j, b, hq, hrun, hb, hseq, hw, hl ▸ hnames⟩
  · obtain ⟨q, cs, s', hq, hrun, hexec⟩ := hmade _ hmem
    obtain ⟨hb, hw, hl⟩ := settle_found (exec_memory hexec).1
    exact ⟨q, cs, j, b, hq, hrun, hb, hseq, hw, hl ▸ hnames⟩

/-- **A worker can only affect its own world.** In every run of the scheduler, while a request
on a control subject of worker `w` is handled,

* a payload that does not name `w` comes to no action;
* each action leaves alone the worker rows of others, the rows, events and outbox rows of
  jobs not leased to `w` under a lease the payload names, and the bindings of other leases;
* a delivery it acknowledges was bound to such a lease. -/
theorem worker_affects_own (cfg : Config) : (scheduler cfg fun _ _ => True).Invariant fun p =>
    ∀ th ∈ p.threads, ∀ w, th.tag.subject? = some w →
      (th.tag.worker? ≠ some w → ∃ report, th.rest = .done report) ∧
      ∀ x k, th.rest = .act x k →
        (∀ r s', (machine cfg).Exec p.state x r s' → p.state.OnlyOwn w th.tag.Names s') ∧
        ∀ y n, x = .stream y → y.Retires n → BoundBefore cfg w th.tag.Names p n := by
  intro p hp th hth w hsubject
  obtain ⟨steps, hpath, hmade⟩ := (machine cfg).performed_invariant _ _ p hp th hth
  refine ⟨fun hother => ?_, fun x k hrest => ?_⟩
  · obtain ⟨report, hdone⟩ := @Request.misdirected cfg _ _ hsubject hother
    have hdone' : (machine cfg).prog th.tag = .done report := hdone
    rw [hdone'] at hpath
    generalize th.rest = rest at hpath
    cases hpath with
    | nil => exact ⟨report, rfl⟩
  · rw [hrest] at hpath
    have hown : x.Own w th.tag.Names steps := by
      have halong := (@Request.owns cfg _ _ hsubject).path hpath
      rwa [List.nil_append] at halong
    have hsound : p.state.db.LogSound := by
      have hr := scheduler_reachable hp
      exact logSound_invariant _ _ (components_reachable (scheduler_sound hr).reachable)
    refine ⟨fun r s' hexec => hown.frame hsound hexec, fun y n hy hretires => ?_⟩
    subst hy
    cases hown with
    | progress => exact absurd hretires id
    | doubleAck hfound =>
        obtain rfl : _ = n := hretires
        exact hfound.bound hmade

end RunAnywhere
