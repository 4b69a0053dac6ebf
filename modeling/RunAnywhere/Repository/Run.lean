import RunAnywhere.Logic.TSys
import RunAnywhere.Repository.WorkerSpec

/-!
# Runs of the repository

`Op` lists the calls that write, with everything a caller passes; `repository`
interleaves them in any order, each as one transaction that commits or changes
nothing. `Op.rows` is the inversion of a step: a job's row and event log are as
before, or the row changed in one of the seven ways of `RowChange`. Invariants of
rows follow from `rows_invariant`, one case for each way.
-/

namespace RunAnywhere

open Logic

/-- A repository call that may write. `setCatalog` stands for administration,
uploads and artifact records: the tables the lifecycle only reads. -/
inductive Op
  | setCatalog (catalog : Catalog)
  | upsertWorker (registration : WorkerRegistration)
  | setWorkerState (w : WorkerId) (state : WorkerState)
  | recordHeartbeat (heartbeat : WorkerHeartbeat) (leaseTtl : Int)
  | createJobWithOutbox (id : JobId) (eventId : JobEventId) (request : CreateJobRequest)
      (idempotencyKey : String) (traceHeaders : List (String × String))
  | requestJobCancellation (j : JobId) (eventId : JobEventId)
  | claimJobWithOptions (j : JobId) (w : WorkerId) (l : LeaseId) (leaseExpiresAt : Time)
      (options : ClaimJobOptions) (eventId : JobEventId)
  | transitionJobState (j : JobId) (expectedFrom target : JobState)
      (evidence : TransitionEvidence) (lease : Option LeaseGuard)
      (eventPayload : List (String × EventValue)) (eventId : JobEventId)
  | recordJobResult (result : JobResult) (eventId : JobEventId)
  | recoverStaleJob (stale : StaleJob) (maxDeliver : Nat) (eventId : JobEventId)
  | enqueueJobDeadLetter (deadLetter : JobDeadLetter) (traceHeaders : List (String × String))
  | leaseOutboxMessages (dispatcherId subject : String) (leaseTimeout : Int) (limit : Nat)
      (skip : String → Bool)
  | markOutboxPublished (messageId : Nat) (dispatcherId : String)
  | retryOutboxMessage (messageId : Nat) (dispatcherId : String) (availableAt : Time)
      (lastError : String)

/-- What a committed call returns. -/
abbrev Op.Out : Op → Type
  | .setCatalog _ => Unit
  | .upsertWorker _ | .setWorkerState _ _ => WorkerStatus
  | .recordHeartbeat _ _ => HeartbeatReceipt
  | .createJobWithOutbox _ _ _ _ _ => CreatedJob
  | .requestJobCancellation _ _ => JobMutation
  | .claimJobWithOptions _ _ _ _ _ _ => JobClaim
  | .transitionJobState _ _ _ _ _ _ _ | .recordJobResult _ _ => Job
  | .recoverStaleJob _ _ _ => RecoveryDisposition
  | .enqueueJobDeadLetter _ _ | .markOutboxPublished _ _ | .retryOutboxMessage _ _ _ _ =>
      OutboxMessage
  | .leaseOutboxMessages _ _ _ _ _ => List OutboxMessage

/-- The transaction of a call, over the release that ends a lease. -/
def Op.txWith (release : DbTime → WorkerId → RepoTx Unit) : (op : Op) → DbTime → RepoTx op.Out
  | .setCatalog catalog, _ => .write fun db => { db with catalog := catalog }
  | .upsertWorker registration, t => RunAnywhere.upsertWorker registration t
  | .setWorkerState w state, t => RunAnywhere.setWorkerState w state t
  | .recordHeartbeat heartbeat leaseTtl, t => RunAnywhere.recordHeartbeat heartbeat leaseTtl t
  | .createJobWithOutbox id eventId request key headers, t =>
      RunAnywhere.createJobWithOutbox id eventId request key headers t
  | .requestJobCancellation j eventId, t => RunAnywhere.requestJobCancellation j eventId t
  | .claimJobWithOptions j w l expires options eventId, t =>
      RunAnywhere.claimJobWithOptions j w l expires options eventId t
  | .transitionJobState j source target evidence lease payload eventId, t =>
      transitionJobStateWith (release t) j source target evidence lease payload eventId t
  | .recordJobResult result eventId, t => RunAnywhere.recordJobResult result eventId t
  | .recoverStaleJob stale maxDeliver eventId, t =>
      recoverStaleJobWith (release t) stale maxDeliver eventId t
  | .enqueueJobDeadLetter deadLetter headers, t =>
      RunAnywhere.enqueueJobDeadLetter deadLetter headers t
  | .leaseOutboxMessages dispatcherId subject leaseTimeout limit skip, t =>
      leaseOutboxMessagesForSubject dispatcherId subject leaseTimeout limit skip t
  | .markOutboxPublished id dispatcherId, t => RunAnywhere.markOutboxPublished id dispatcherId t
  | .retryOutboxMessage id dispatcherId availableAt lastError, _ =>
      RunAnywhere.retryOutboxMessage id dispatcherId availableAt lastError

/-- The transaction of a call. -/
def Op.tx : (op : Op) → DbTime → RepoTx op.Out := Op.txWith releaseWorkerCapacity

/-- One call as it happened: when, and what it answered. -/
structure Call where
  op : Op
  time : DbTime
  answer : Except RepositoryError op.Out

/-- Any interleaving of the calls `Allowed` admits, from an empty database. -/
def repository (Allowed : Op → Prop) : TSys Db Call where
  init db := ∃ catalog, db = Db.empty catalog
  step db call db' := Allowed call.op ∧ (call.op.tx call.time).exec db = (call.answer, db')

/-- A step commits its transaction, or answers an error and changes nothing. -/
theorem repository_step_cases {Allowed : Op → Prop} {db db' : Db} {call : Call}
    (h : (repository Allowed).step db call db') :
    (∃ out, call.answer = .ok out ∧ (call.op.tx call.time).Commits db out db') ∨
      ((∃ e, call.answer = .error e) ∧ db' = db) := by
  obtain ⟨_, hexec⟩ := h
  rcases Tx.exec_cases (call.op.tx call.time) db with ⟨out, db₁, hc, he⟩ | ⟨e, _, he⟩
  · rw [hexec] at he
    obtain ⟨ha, rfl⟩ := Prod.mk.inj he
    exact Or.inl ⟨out, ha, hc⟩
  · rw [hexec] at he
    obtain ⟨ha, rfl⟩ := Prod.mk.inj he
    exact Or.inr ⟨⟨e, ha⟩, rfl⟩

/-- A committed transaction is a step. -/
theorem repository_step_of_commits {Allowed : Op → Prop} {db db' : Db} {op : Op} {t : DbTime}
    {out : op.Out} (ha : Allowed op) (h : (op.tx t).Commits db out db') :
    (repository Allowed).step db ⟨op, t, .ok out⟩ db' :=
  ⟨ha, h.exec_eq⟩

/-- Executing an admitted call is a step. -/
theorem repository_step_exec {Allowed : Op → Prop} {op : Op} (ha : Allowed op) (t : DbTime)
    (db : Db) :
    (repository Allowed).step db ⟨op, t, ((op.tx t).exec db).1⟩ ((op.tx t).exec db).2 :=
  ⟨ha, rfl⟩

/-- Executing an admitted call whose answer is known is a step. -/
theorem repository_step_answer {Allowed : Op → Prop} {op : Op} (ha : Allowed op) {t : DbTime}
    {db : Db} {answer : Except RepositoryError op.Out} (h : ((op.tx t).exec db).1 = answer) :
    (repository Allowed).step db ⟨op, t, answer⟩ ((op.tx t).exec db).2 :=
  ⟨ha, Prod.ext h rfl⟩

/-! ## Replaying calls -/

/-- The database after a list of calls, committed or not. -/
def Db.replay (db : Db) : List (Op × DbTime) → Db
  | [] => db
  | (op, t) :: rest => Db.replay ((op.tx t).exec db).2 rest

/-- Replaying admitted calls is a run of the repository. -/
theorem Db.replay_run {Allowed : Op → Prop} {ops : List (Op × DbTime)}
    (h : ∀ x ∈ ops, Allowed x.1) (db : Db) :
    ∃ calls, calls.map (fun c => (c.op, c.time)) = ops ∧
      (repository Allowed).Run db calls (db.replay ops) := by
  induction ops generalizing db with
  | nil => exact ⟨[], rfl, .nil db⟩
  | cons x rest ih =>
      obtain ⟨op, t⟩ := x
      have hstep := repository_step_exec (h (op, t) (by simp)) t db
      obtain ⟨calls, hcalls, hrun⟩ :=
        ih (fun x hx => h x (List.mem_cons_of_mem _ hx)) ((op.tx t).exec db).2
      refine ⟨_ :: calls, ?_, (TSys.Run.single hstep).append hrun⟩
      rw [List.map_cons, hcalls]

/-- A replay from an empty database is reachable. -/
theorem Db.replay_reachable {Allowed : Op → Prop} {ops : List (Op × DbTime)}
    (h : ∀ x ∈ ops, Allowed x.1) (catalog : Catalog) :
    (repository Allowed).Reachable ((Db.empty catalog).replay ops) := by
  obtain ⟨calls, _, hrun⟩ := Db.replay_run h (Db.empty catalog)
  exact TSys.Reachable.run (.init ⟨catalog, rfl⟩) hrun

/-! ## What one call does to one row -/

/-- The ways a call stores a job row: the call, the row before (`none` for a new
job) and the row after. -/
inductive RowChange : Op → DbTime → JobId → Option JobRow → JobRow → Prop
  | create {id eventId request key headers t} :
      RowChange (.createJobWithOutbox id eventId request key headers) t id none
        (newJobRow request key t)
  | cancel {j eventId t row} : row.state.isTerminal = false → row.pendingOutcome = none →
      RowChange (.requestJobCancellation j eventId) t j (some row) row.cancelRequested
  | claim {j w l expires options eventId t row} : row.state = .queued → row.workerId = none →
      row.leaseId = none → t.clock < expires →
      RowChange (.claimJobWithOptions j w l expires options eventId) t j (some row)
        (row.claimed w l expires t.clock)
  | transition {j source target evidence lease payload eventId t row} :
      validateTransition source target evidence = .ok () →
      transitionGuard source evidence lease t row = true →
      RowChange (.transitionJobState j source target evidence lease payload eventId) t j (some row)
        (row.transitioned target evidence t)
  | result {result eventId t row} : resultGuard result t row = true →
      RowChange (.recordJobResult result eventId) t result.jobId (some row) (row.withResult result)
  | heartbeat {heartbeat leaseTtl extension t row} : 0 < numSeconds leaseTtl →
      extension ∈ heartbeat.leaseExtends →
      extendGuard heartbeat.workerId extension.leaseId t.clock row = true →
      RowChange (.recordHeartbeat heartbeat leaseTtl) t extension.jobId (some row)
        (row.extended t.clock (numSeconds leaseTtl))
  | recover {stale maxDeliver eventId t row} : Recoverable stale row →
      RowChange (.recoverStaleJob stale maxDeliver eventId) t stale.jobId (some row)
        (row.recovered (recoveryKind stale maxDeliver row))

/-- A call leaves job `j` alone, or changes its row in one of the listed ways. -/
def Touches (op : Op) (t : DbTime) (j : JobId) (db db' : Db) : Prop :=
  (db'.job? j = db.job? j ∧ db'.eventsOf j = db.eventsOf j) ∨
    ∃ row, db'.job? j = some row ∧ RowChange op t j (db.job? j) row

theorem Db.job?_of_jobs {db db' : Db} (h : db'.jobs = db.jobs) (j : JobId) :
    db'.job? j = db.job? j := by
  unfold Db.job?; rw [h]

/-- Storing one row and appending one event of that job touches that job only. -/
theorem touches_of_put {op : Op} {t : DbTime} {j₀ : JobId} {row : JobRow} {hc : row.Checks}
    {db db' : Db} {event : JobEvent} (hjobs : db'.jobs = db.jobs.put j₀ ⟨row, hc⟩)
    (hevents : db'.events = db.events ++ [event]) (hevent : event.jobId = j₀)
    (hchange : RowChange op t j₀ (db.job? j₀) row) (j : JobId) : Touches op t j db db' := by
  have hrow : db'.job? j = if j = j₀ then some row else db.job? j := by
    unfold Db.job?
    rw [hjobs]
    exact Table.row?_put db.jobs j₀ row hc j
  by_cases hj : j = j₀
  · subst hj
    rw [if_pos rfl] at hrow
    exact Or.inr ⟨row, hrow, hchange⟩
  · rw [if_neg hj] at hrow
    refine Or.inl ⟨hrow, ?_⟩
    have hne : ¬ event.jobId = j := by rw [hevent]; exact fun h => hj h.symm
    unfold Db.eventsOf
    rw [hevents]
    simp [hne]

/-- A call that writes neither jobs nor events touches no job. -/
theorem touches_of_eq {op : Op} {t : DbTime} {db db' : Db} (hjobs : db'.jobs = db.jobs)
    (hevents : db'.events = db.events) (j : JobId) : Touches op t j db db' :=
  Or.inl ⟨Db.job?_of_jobs hjobs j, by unfold Db.eventsOf; rw [hevents]⟩

/-- Releasing capacity writes the worker table only. -/
theorem releaseWorkerCapacity_frame {t : DbTime} {w : WorkerId} {db db' : Db} {u : Unit}
    (h : (releaseWorkerCapacity t w).Commits db u db') :
    db'.jobs = db.jobs ∧ db'.events = db.events ∧ db'.outbox = db.outbox ∧
      db'.catalog = db.catalog ∧ db'.nextEventSequence = db.nextEventSequence := by
  rcases releaseWorkerCapacity_commits h with ⟨_, rfl⟩ | ⟨_, _, _, rfl⟩ <;>
    exact ⟨rfl, rfl, rfl, rfl, rfl⟩

/-- The row a transition stores. -/
theorem transitionJobState_stores {j : JobId} {source target : JobState}
    {evidence : TransitionEvidence} {lease : Option LeaseGuard}
    {payload : List (String × EventValue)} {eventId : JobEventId} {t : DbTime} {db db' : Db}
    {job : Job} (h : (transitionJobStateWith (releaseWorkerCapacity t) j source target evidence
      lease payload eventId t).Commits db job db') :
    ∃ row, db.job? j = some row ∧ validateTransition source target evidence = .ok () ∧
      transitionGuard source evidence lease t row = true ∧
      job = (row.transitioned target evidence t).intoJob j ∧
      db'.job? j = some (row.transitioned target evidence t) := by
  obtain ⟨row, hc, db₁, hval, hrow, hguard, hjob, hrel, _, _, hjobs, _⟩ :=
    transitionJobStateWith_commits h
  have hframe : db₁.jobs = db.jobs.put j ⟨row.transitioned target evidence t, hc⟩ := by
    cases hr : releasesOn target row with
    | none =>
        rw [hr] at hrel
        subst hrel
        rfl
    | some w =>
        rw [hr] at hrel
        exact (releaseWorkerCapacity_frame hrel).1
  refine ⟨row, hrow, hval, hguard, hjob, ?_⟩
  unfold Db.job?
  rw [hjobs, hframe]
  exact Table.row?_put_self _ _ _ _

/-- **Rows.** A committed call touches each job in one of the listed ways. -/
theorem Op.rows {op : Op} {t : DbTime} {db db' : Db} {out : op.Out}
    (h : (op.tx t).Commits db out db') (j : JobId) : Touches op t j db db' := by
  cases op with
  | setCatalog catalog =>
      obtain rfl := Tx.write_commits.mp h
      exact touches_of_eq rfl rfl j
  | upsertWorker registration =>
      rcases upsertWorker_commits h with ⟨_, _, rfl⟩ | ⟨_, _, _, rfl⟩ <;>
        exact touches_of_eq rfl rfl j
  | setWorkerState w state =>
      obtain ⟨_, _, _, rfl⟩ := setWorkerState_commits h
      exact touches_of_eq rfl rfl j
  | recordHeartbeat heartbeat leaseTtl =>
      obtain ⟨_, _, _, hsecs, _, rfl, _, honly, _, hjobs⟩ := recordHeartbeat_commits h
      have hevents : db'.eventsOf j = db.eventsOf j := by
        unfold Db.eventsOf; rw [honly.events]
      cases hrow : db.job? j with
      | none => exact Or.inl ⟨by rw [hjobs j, hrow]; rfl, hevents⟩
      | some row =>
          by_cases hx : extendable heartbeat.workerId t.clock heartbeat.leaseExtends j row = true
          · obtain ⟨e, he, rfl, hg⟩ := extendable_iff.mp hx
            refine Or.inr ⟨row.extended t.clock (numSeconds leaseTtl), ?_, ?_⟩
            · rw [hjobs, hrow]; simp [JobRow.afterHeartbeat, hx]
            · rw [hrow]; exact .heartbeat hsecs he hg
          · refine Or.inl ⟨?_, hevents⟩
            rw [hjobs j, hrow]; simp [JobRow.afterHeartbeat, hx]
  | createJobWithOutbox id eventId request key headers =>
      rcases createJobWithOutbox_commits h with ⟨_, _, _, _, rfl⟩ |
        ⟨hc, event, _, hnone, _, _, rfl, _, _, hjobs, hevents, _⟩
      · exact touches_of_eq rfl rfl j
      · exact touches_of_put hjobs hevents rfl (by rw [hnone]; exact .create) j
  | requestJobCancellation id eventId =>
      obtain ⟨row, hrow, hlive, hcase⟩ := requestJobCancellation_commits h
      rcases hcase with ⟨_, _, rfl⟩ | ⟨hc, event, hp, _, rfl, _, _, hjobs, hevents, _⟩
      · exact touches_of_eq rfl rfl j
      · exact touches_of_put hjobs hevents rfl (by rw [hrow]; exact .cancel hlive hp) j
  | claimJobWithOptions id w l expires options eventId =>
      obtain ⟨row, worker, hc, _, hrow, hq, hw, hl, hexp, h⟩ := claimJobWithOptions_commits h
      obtain ⟨_, _, _, _, _, _, _, _, hjobs, hevents, _⟩ := h
      exact touches_of_put hjobs hevents rfl (by rw [hrow]; exact .claim hq hw hl hexp) j
  | transitionJobState id source target evidence lease payload eventId =>
      obtain ⟨row, hc, db₁, hval, hrow, hguard, _, hrel, _, _, hjobs, hevents, _⟩ :=
        transitionJobStateWith_commits h
      have hframe : db₁.jobs = db.jobs.put id ⟨row.transitioned target evidence t, hc⟩ ∧
          db₁.events = db.events := by
        cases hr : releasesOn target row with
        | none => rw [hr] at hrel; subst hrel; exact ⟨rfl, rfl⟩
        | some w =>
            rw [hr] at hrel
            obtain ⟨hj, he, _⟩ := releaseWorkerCapacity_frame hrel
            exact ⟨hj, he⟩
      rw [hframe.1] at hjobs
      rw [hframe.2] at hevents
      exact touches_of_put hjobs hevents rfl (by rw [hrow]; exact .transition hval hguard) j
  | recordJobResult result eventId =>
      obtain ⟨row, hc, hrow, hguard, _, _, _, _, hjobs, hevents, _⟩ := recordJobResult_commits h
      exact touches_of_put hjobs hevents rfl (by rw [hrow]; exact .result hguard) j
  | recoverStaleJob stale maxDeliver eventId =>
      rcases recoverStaleJobWith_commits h with ⟨_, rfl⟩ |
        ⟨row, worker, hc, db₁, _, hrow, hfence, _, _, _, hrel, _, _, hjobs, ⟨_, hevents, _⟩, _⟩
      · exact touches_of_eq rfl rfl j
      · obtain ⟨hj, he, _⟩ := releaseWorkerCapacity_frame hrel
        rw [hj] at hjobs
        rw [he] at hevents
        exact touches_of_put hjobs hevents rfl (by rw [hrow]; exact .recover hfence) j
  | enqueueJobDeadLetter deadLetter headers =>
      obtain ⟨_, _, _, _, _, _, honly, _⟩ := insertJobDeadLetterOutbox_commits h
      exact touches_of_eq honly.jobs honly.events j
  | leaseOutboxMessages dispatcherId subject leaseTimeout limit skip =>
      have honly := (leaseOutboxMessagesForSubject_kept h).1.only
      exact touches_of_eq honly.jobs honly.events j
  | markOutboxPublished id dispatcherId =>
      have honly := (markOutboxPublished_kept h).only
      exact touches_of_eq honly.jobs honly.events j
  | retryOutboxMessage id dispatcherId availableAt lastError =>
      have honly := (retryOutboxMessage_kept h).only
      exact touches_of_eq honly.jobs honly.events j

/-! ## Events -/

/-- The texts events are told apart by. -/
theorem RecoveryKind.eventType_ne_queued (kind : RecoveryKind) :
    kind.eventType ≠ "job.queued" := by
  cases kind <;> decide

theorem RecoveryKind.eventType_inj {a b : RecoveryKind} (h : a.eventType = b.eventType) :
    a = b := by
  cases a <;> cases b <;> first | rfl | exact absurd h (by decide)

theorem JobState.wire_ne_queued {s : JobState} (h : s ≠ .queued) :
    "job." ++ s.wire ≠ "job.queued" := by
  cases s <;> first | exact absurd rfl h | decide

theorem JobState.wire_ne_recovery (s : JobState) (kind : RecoveryKind) :
    "job." ++ s.wire ≠ kind.eventType := by
  cases s <;> cases kind <;> decide

/-- Where an event of a committed call comes from: a created job, a recovery, or a call of
neither kind. -/
inductive EventSource (op : Op) (db : Db) (e : JobEvent) : Prop
  | created (fresh : db.job? e.jobId = none) (type : e.eventType = "job.queued")
  | recovered {stale : StaleJob} {maxDeliver : Nat} {eventId : JobEventId} (row : JobRow)
      (call : op = .recoverStaleJob stale maxDeliver eventId) (job : e.jobId = stale.jobId)
      (row? : db.job? stale.jobId = some row) (fence : Recoverable stale row)
      (type : e.eventType = (recoveryKind stale maxDeliver row).eventType)
      (attempts : ("delivery_attempts", EventValue.number stale.deliveryAttempts) ∈ e.payload)
  | other (notQueued : e.eventType ≠ "job.queued")
      (notRecovery : ∀ kind : RecoveryKind, e.eventType ≠ kind.eventType)

/-- A `job.queued` event is of a job that is new. -/
theorem EventSource.fresh {op : Op} {db : Db} {e : JobEvent} (h : EventSource op db e)
    (htype : e.eventType = "job.queued") : db.job? e.jobId = none := by
  cases h with
  | created hfresh => exact hfresh
  | recovered _ _ _ _ _ hkind => exact absurd (hkind.symm.trans htype) (RecoveryKind.eventType_ne_queued _)
  | other hne => exact absurd htype hne

/-- **Events.** A call appends events of stored jobs, each from one of the listed
sources. -/
theorem Op.events {op : Op} {t : DbTime} {db db' : Db} {out : op.Out}
    (h : (op.tx t).Commits db out db') : ∃ l, db'.events = db.events ++ l ∧
      ∀ e ∈ l, (db'.job? e.jobId).isSome = true ∧ EventSource op db e := by
  have hput : ∀ {d : Db} {j : JobId} {row : JobRow} {hc : row.Checks},
      db'.jobs = d.jobs.put j ⟨row, hc⟩ → db'.job? j = some row := by
    intro d j row hc hjobs
    unfold Db.job?
    rw [hjobs]
    exact Table.row?_put_self _ _ _ _
  have hsame : db'.events = db.events → ∃ l, db'.events = db.events ++ l ∧
      ∀ e ∈ l, (db'.job? e.jobId).isSome = true ∧ EventSource op db e := fun he =>
    ⟨[], by rw [he, List.append_nil], fun e hmem => absurd hmem List.not_mem_nil⟩
  have hone : ∀ {event : JobEvent} {row : JobRow}, db'.events = db.events ++ [event] →
      db'.job? event.jobId = some row → EventSource op db event →
      ∃ l, db'.events = db.events ++ l ∧ ∀ e ∈ l, (db'.job? e.jobId).isSome = true ∧
        EventSource op db e := by
    intro event row he hrow hnew
    refine ⟨[event], he, fun e hmem => ?_⟩
    obtain rfl := List.mem_singleton.mp hmem
    exact ⟨by rw [hrow]; rfl, hnew⟩
  cases op with
  | setCatalog catalog =>
      obtain rfl := Tx.write_commits.mp h
      exact hsame rfl
  | upsertWorker registration =>
      rcases upsertWorker_commits h with ⟨_, _, rfl⟩ | ⟨_, _, _, rfl⟩ <;> exact hsame rfl
  | setWorkerState w state =>
      obtain ⟨_, _, _, rfl⟩ := setWorkerState_commits h
      exact hsame rfl
  | recordHeartbeat heartbeat leaseTtl =>
      obtain ⟨_, _, _, _, _, rfl, _, honly, _, _⟩ := recordHeartbeat_commits h
      exact hsame honly.events
  | createJobWithOutbox id eventId request key headers =>
      rcases createJobWithOutbox_commits h with ⟨_, _, _, _, rfl⟩ |
        ⟨hc, event, _, hnone, _, _, rfl, _, _, hjobs, hevents, _⟩
      · exact hsame rfl
      · exact hone hevents (hput hjobs) (.created hnone rfl)
  | requestJobCancellation id eventId =>
      obtain ⟨row, hrow, hlive, hcase⟩ := requestJobCancellation_commits h
      rcases hcase with ⟨_, _, rfl⟩ | ⟨hc, event, hp, _, rfl, _, _, hjobs, hevents, _⟩
      · exact hsame rfl
      · refine hone hevents (hput hjobs) (.other ?_ fun kind => ?_)
        · show "job.cancellation_requested" ≠ "job.queued"
          decide
        · show "job.cancellation_requested" ≠ kind.eventType
          cases kind <;> decide
  | claimJobWithOptions id w l expires options eventId =>
      obtain ⟨row, worker, hc, _, hrow, hq, hw, hl, hexp, h⟩ := claimJobWithOptions_commits h
      obtain ⟨_, _, _, _, _, _, _, _, hjobs, hevents, _⟩ := h
      refine hone hevents (hput hjobs) (.other ?_ fun kind => ?_)
      · show "job.claimed" ≠ "job.queued"
        decide
      · show "job.claimed" ≠ kind.eventType
        cases kind <;> decide
  | transitionJobState id source target evidence lease payload eventId =>
      obtain ⟨row, hc, db₁, hval, hrow, hguard, _, hrel, _, _, hjobs, hevents, _⟩ :=
        transitionJobStateWith_commits h
      have hframe : db₁.jobs = db.jobs.put id ⟨row.transitioned target evidence t, hc⟩ ∧
          db₁.events = db.events := by
        cases hr : releasesOn target row with
        | none => rw [hr] at hrel; subst hrel; exact ⟨rfl, rfl⟩
        | some w =>
            rw [hr] at hrel
            obtain ⟨hj, he, _⟩ := releaseWorkerCapacity_frame hrel
            exact ⟨hj, he⟩
      rw [hframe.1] at hjobs
      rw [hframe.2] at hevents
      -- no edge leads back to the queue
      exact hone hevents (hput hjobs) (.other
        (JobState.wire_ne_queued (validateTransition_edge hval).target_ne_queued)
        (JobState.wire_ne_recovery target))
  | recordJobResult result eventId =>
      obtain ⟨row, hc, hrow, hguard, _, _, _, _, hjobs, hevents, _⟩ := recordJobResult_commits h
      refine hone hevents (hput hjobs) (.other ?_ fun kind => ?_)
      · show "job.result_recorded" ≠ "job.queued"
        decide
      · show "job.result_recorded" ≠ kind.eventType
        cases kind <;> decide
  | recoverStaleJob stale maxDeliver eventId =>
      rcases recoverStaleJobWith_commits h with ⟨_, rfl⟩ |
        ⟨row, worker, hc, db₁, _, hrow, hfence, _, _, _, hrel, _, _, hjobs, ⟨_, hevents, hattempts⟩, _⟩
      · exact hsame rfl
      · obtain ⟨hj, he, _⟩ := releaseWorkerCapacity_frame hrel
        rw [hj] at hjobs
        rw [he] at hevents
        exact hone hevents (hput hjobs) (.recovered row rfl rfl hrow hfence rfl hattempts)
  | enqueueJobDeadLetter deadLetter headers =>
      obtain ⟨_, _, _, _, _, _, honly, _⟩ := insertJobDeadLetterOutbox_commits h
      exact hsame honly.events
  | leaseOutboxMessages dispatcherId subject leaseTimeout limit skip =>
      exact hsame (leaseOutboxMessagesForSubject_kept h).1.only.events
  | markOutboxPublished id dispatcherId => exact hsame (markOutboxPublished_kept h).only.events
  | retryOutboxMessage id dispatcherId availableAt lastError =>
      exact hsame (retryOutboxMessage_kept h).only.events

/-- Only administration changes the catalog. -/
theorem Op.catalog_eq {op : Op} {t : DbTime} {db db' : Db} {out : op.Out}
    (h : (op.tx t).Commits db out db') (hop : ∀ catalog, op ≠ .setCatalog catalog) :
    db'.catalog = db.catalog := by
  cases op with
  | setCatalog catalog => exact absurd rfl (hop catalog)
  | upsertWorker registration =>
      rcases upsertWorker_commits h with ⟨_, _, rfl⟩ | ⟨_, _, _, rfl⟩ <;> rfl
  | setWorkerState w state =>
      obtain ⟨_, _, _, rfl⟩ := setWorkerState_commits h
      rfl
  | recordHeartbeat heartbeat leaseTtl =>
      obtain ⟨_, _, _, _, _, rfl, _, honly, _, _⟩ := recordHeartbeat_commits h
      exact honly.catalog
  | createJobWithOutbox id eventId request key headers =>
      rcases createJobWithOutbox_commits h with ⟨_, _, _, _, rfl⟩ |
        ⟨_, _, _, _, _, _, _, hcat, _⟩
      · rfl
      · exact hcat
  | requestJobCancellation id eventId =>
      obtain ⟨_, _, _, hcase⟩ := requestJobCancellation_commits h
      rcases hcase with ⟨_, _, rfl⟩ | ⟨_, _, _, _, _, hcat, _⟩
      · rfl
      · exact hcat
  | claimJobWithOptions id w l expires options eventId =>
      obtain ⟨_, _, _, _, _, _, _, _, _, h⟩ := claimJobWithOptions_commits h
      obtain ⟨_, _, _, _, _, _, hcat, _⟩ := h
      exact hcat
  | transitionJobState id source target evidence lease payload eventId =>
      obtain ⟨row, _, _, _, _, _, _, hrel, hcat, _⟩ := transitionJobStateWith_commits h
      cases hr : releasesOn target row with
      | none => rw [hr] at hrel; subst hrel; exact hcat
      | some w =>
          rw [hr] at hrel
          exact hcat.trans (releaseWorkerCapacity_frame hrel).2.2.2.1
  | recordJobResult result eventId =>
      obtain ⟨_, _, _, _, _, _, hcat, _⟩ := recordJobResult_commits h
      exact hcat
  | recoverStaleJob stale maxDeliver eventId =>
      rcases recoverStaleJobWith_commits h with ⟨_, rfl⟩ |
        ⟨_, _, _, _, _, _, _, _, _, _, hrel, hcat, _⟩
      · rfl
      · exact hcat.trans (releaseWorkerCapacity_frame hrel).2.2.2.1
  | enqueueJobDeadLetter deadLetter headers =>
      obtain ⟨_, _, _, _, _, _, honly, _⟩ := insertJobDeadLetterOutbox_commits h
      exact honly.catalog
  | leaseOutboxMessages dispatcherId subject leaseTimeout limit skip =>
      exact (leaseOutboxMessagesForSubject_kept h).1.only.catalog
  | markOutboxPublished id dispatcherId => exact (markOutboxPublished_kept h).only.catalog
  | retryOutboxMessage id dispatcherId availableAt lastError =>
      exact (retryOutboxMessage_kept h).only.catalog

/-- A step of the repository touches each job in one of the listed ways. -/
theorem repository_step_rows {Allowed : Op → Prop} {db db' : Db} {call : Call}
    (h : (repository Allowed).step db call db') (j : JobId) :
    Touches call.op call.time j db db' := by
  rcases repository_step_cases h with ⟨_, _, hc⟩ | ⟨_, rfl⟩
  · exact Op.rows hc j
  · exact Or.inl ⟨rfl, rfl⟩

/-- **Row invariants.** A property of rows that every change establishes holds of
every row of every reachable database. -/
theorem rows_invariant {Allowed : Op → Prop} {P : JobRow → Prop}
    (hP : ∀ op t j old new, Allowed op → RowChange op t j old new →
      (∀ row ∈ old, row.Checks ∧ P row) → new.Checks → P new) :
    (repository Allowed).Invariant fun db => ∀ j row, db.job? j = some row → P row := by
  refine TSys.Inductive.invariant ⟨?_, ?_⟩
  · rintro _ ⟨catalog, rfl⟩ j row hrow
    cases hrow
  · intro db call db' _ ih hstep j row hrow
    rcases repository_step_rows hstep j with ⟨hsame, _⟩ | ⟨new, hnew, hchange⟩
    · exact ih j row (hsame ▸ hrow)
    · obtain rfl : new = row := Option.some.inj (hnew.symm.trans hrow)
      exact hP _ _ _ _ _ hstep.1 hchange
        (fun old hold => ⟨Db.job?_checks hold, ih j old hold⟩) (Db.job?_checks hnew)

/-! ## A small catalogue

One project, one package, one profile, one worker and one job, for the concrete
runs of the theorem modules. -/

namespace Sample

def project : ProjectId := ⟨"proj_a", by decide⟩
def upload : UploadId := ⟨"upl_a", by decide⟩
def profile : RuntimeProfileId := ⟨"rtp_a", by decide⟩
def worker : WorkerId := ⟨"wrk_a", by decide⟩
def job : JobId := ⟨"job_a", by decide⟩
def lease : LeaseId := ⟨"lease_a", by decide⟩
def lease' : LeaseId := ⟨"lease_b", by decide⟩

/-- The identifier with `n + 1` letters. -/
def lettered (pre : String) (n : Nat) : Ident pre where
  val := String.ofList (pre.toList ++ List.replicate (n + 1) 'a')
  valid := by
    unfold validateIdentifier
    rw [String.toList_ofList, stripPre_append]
    have hall : (List.replicate (n + 1) 'a').all isIdentifierChar = true := by
      rw [List.all_replicate, if_neg (Nat.succ_ne_zero n)]
      decide
    have hfull : (List.replicate (n + 1) 'a').isEmpty = false := rfl
    simp only [hall, hfull]
    rfl

theorem lettered_inj {pre : String} {m n : Nat} (h : lettered pre m = lettered pre n) : m = n := by
  have hlist := String.ofList_injective (congrArg Ident.val h)
  have hlength := congrArg List.length (List.append_cancel_left hlist)
  rw [List.length_replicate, List.length_replicate] at hlength
  omega

/-- The event identifier number `n`. -/
def event : Nat → JobEventId
  | 0 => ⟨"evt_0", by decide⟩
  | 1 => ⟨"evt_1", by decide⟩
  | 2 => ⟨"evt_2", by decide⟩
  | 3 => ⟨"evt_3", by decide⟩
  | 4 => ⟨"evt_4", by decide⟩
  | 5 => ⟨"evt_5", by decide⟩
  | 6 => ⟨"evt_6", by decide⟩
  | 7 => ⟨"evt_7", by decide⟩
  | 8 => ⟨"evt_8", by decide⟩
  | _ => ⟨"evt_9", by decide⟩

/-- A transaction whose clocks all read `s` seconds. -/
def at_ (s : Int) : DbTime := ⟨s * 1000000, s * 1000000, s * 1000000⟩

def catalog : Catalog where
  projects := Table.empty.put project ⟨2, 10⟩
  uploads := Table.empty.put upload ⟨project, .apk⟩
  runtimeProfiles := Table.empty.put profile
    ⟨34, "pixel", .x86_64, .x86_64, .redroid, "image", .sharedKernelPrivileged⟩
  webhooks := Table.empty
  artifacts := Table.empty

def request : CreateJobRequest where
  projectId := project
  apkUploadId := upload
  testUploadId := none
  runtimeProfile := profile
  mode := .headlessCi
  minIsolation := .sharedKernelPrivileged
  automation := .builtInSmoke
  artifacts := ⟨true, false, true, true⟩
  timeoutSeconds := ⟨600, by decide, by decide⟩

def register : Op := .upsertWorker ⟨worker, [.redroid], false, false, .x86_64, 2⟩
def create : Op := .createJobWithOutbox job (event 0) request "key" []

/-- Claim the job under lease `l` until second `until_`. -/
def claim (l : LeaseId) (until_ : Int) (n : Nat) : Op :=
  .claimJobWithOptions job worker l (until_ * 1000000) ⟨60000000⟩ (event n)

/-- A fenced transition without evidence. -/
def advance (source target : JobState) (n : Nat) : Op :=
  .transitionJobState job source target .default (some ⟨worker, lease⟩) [] (event n)

/-- A result of the job's owner. -/
def result (outcome : JobOutcome) : JobResult where
  jobId := job
  workerId := worker
  leaseId := lease
  outcome := outcome
  artifactIds := []
  artifactsFinalized := false
  cleanupCompleted := false
  error := none
  completedAt := 0

/-- The database after `ops`. -/
def after (ops : List (Op × DbTime)) : Db := (Db.empty catalog).replay ops

theorem after_reachable {Allowed : Op → Prop} {ops : List (Op × DbTime)}
    (h : ∀ x ∈ ops, Allowed x.1) : (repository Allowed).Reachable (after ops) :=
  Db.replay_reachable h catalog

/-- Registration and create. -/
def created : List (Op × DbTime) := [(register, at_ 1), (create, at_ 2)]

/-- The created job, claimed under `lease` until second `100`. -/
def claimed : List (Op × DbTime) := created ++ [(claim lease 100 1, at_ 3)]

/-- The claimed job up to its running tests. -/
def running : List (Op × DbTime) :=
  claimed ++ [(advance .claimed .provisioningRuntime 2, at_ 4),
    (advance .provisioningRuntime .booting 3, at_ 5), (advance .booting .installingApk 4, at_ 6),
    (advance .installingApk .runningTests 5, at_ 7)]

/-- A transition of the leader's finalizer. -/
def finalize (source target : JobState) (o : JobOutcome) (cleanup : Bool) (n : Nat) : Op :=
  .transitionJobState job source target ⟨some o, true, cleanup⟩ none [] (event n)

/-- A recovery of the first attempt, whose lease ran out at second `100`. -/
def recover (state : JobState) (maxDeliver : Nat) (n : Nat) : Op :=
  .recoverStaleJob ⟨job, worker, lease, state, 1, 100000000, 1000000, 200000000, 0⟩ maxDeliver
    (event n)

end Sample

end RunAnywhere
