import RunAnywhere.Repository.LockTrace

/-!
# Locks in one order

Every transaction of the repository asks for its locks in the order of `RowLock`: the
advisory lock, jobs by identifier, the project, the worker, debug sessions, outbox rows.

* **one proof a transaction** — `*_orderly`, by the rules of `LockTx`;
* **re-requests** — an event is appended under a job lock the transaction already has
  (`appendEvent_orderly`), a heartbeat extends leases of jobs it has locked before;
* **no deadlock** — `locks_in_order`.
-/

namespace RunAnywhere

open Logic
open LockTx Request

namespace Traced

/-- Nothing is claimed about what a whole transaction holds at its end. -/
abbrev Orderly {σ α : Type} (x : LockTx RowLock RepositoryError σ α) (s : σ) : Prop :=
  x.Orderly s ∅ fun _ _ _ => True

/-! ## Jobs -/

/-- An event is appended under the lock on its job. -/
theorem appendEvent_orderly {id : JobEventId} {j : JobId} {eventType : String}
    {state : Option JobState} {stateChanged : Bool} {payload : List (String × EventValue)}
    {t : DbTime} {db : Db} {held : Set RowLock} (hj : .job j ∈ held) :
    (appendEvent id j eventType state stateChanged payload t).Orderly db held
      fun held' _ _ => held' = held := by
  refine orderly_seq fun _ _ _ => orderly_seq_held hj fun _ _ _ => orderly_seq fun _ _ _ =>
    orderly_seq fun _ _ _ => orderly_seq fun _ _ _ => ?_
  split
  · exact orderly_seq fun _ _ _ => orderly_pure rfl
  · exact orderly_pure rfl

/-- Without a lock on its job, an event waits for it. -/
theorem appendEvent_waits {id : JobEventId} {j : JobId} {eventType : String}
    {state : Option JobState} {stateChanged : Bool} {payload : List (String × EventValue)}
    {t : DbTime} {db : Db} : Orderly (appendEvent id j eventType state stateChanged payload t) db := by
  refine orderly_seq fun _ _ _ => orderly_seq_wait (by simp) fun _ _ _ =>
    orderly_seq fun _ _ _ => orderly_seq fun _ _ _ => orderly_seq fun _ _ _ => ?_
  split
  · exact orderly_seq fun _ _ _ => orderly_pure trivial
  · exact orderly_pure trivial

/-- The job of a transaction that starts with its lock. -/
theorem lockJob_required {j : JobId} {e : RepositoryError} {β : Type} {f : JobRow → RepoLockTx β}
    {db : Db} {R : Set RowLock → β → Db → Prop} (hf : ∀ row, (f row).Orderly db {.job j} R) :
    (lockJob j >>= fun o => .okOr o e >>= f).Orderly db ∅ R := by
  refine orderly_lookup (by simp) (orderly_seq fun _ _ hc => ?_) fun row => ?_
  · cases (Tx.okOr_commits.mp hc).1
  · rw [insert_empty_eq]
    refine orderly_seq fun row' _ hc => ?_
    obtain ⟨_, rfl⟩ := Tx.okOr_commits.mp hc
    exact hf row'

/-- A project is locked and there. -/
theorem lockProject_orderly {p : ProjectId} {db : Db} {held : Set RowLock}
    (hheld : ∀ h ∈ held, h < .project p) :
    (lockProject p).Orderly db held fun held' _ _ => held' = insert (.project p) held := by
  refine orderly_wait hheld fun project _ hc => ?_
  obtain ⟨_, _, hread, hok⟩ := Tx.bind_commits.mp hc
  obtain ⟨rfl, rfl⟩ := Tx.read_commits.mp hread
  obtain ⟨hfound, _⟩ := Tx.okOr_commits.mp hok
  rw [hfound]
  rfl

theorem admitJob_orderly {request : CreateJobRequest} {db : Db} {held : Set RowLock}
    (hheld : ∀ h ∈ held, h < .project request.projectId) :
    (admitJob request).Orderly db held fun _ _ _ => True := by
  refine orderly_bind (lockProject_orderly hheld) fun _ _ _ _ => orderly_seq fun _ _ _ =>
    orderly_seq fun _ _ _ => orderly_seq fun _ _ _ => orderly_seq fun _ _ _ => ?_
  split
  · exact orderly_seq fun _ _ _ => orderly_seq fun _ _ _ => orderly_seq fun _ _ _ =>
      orderly_seq fun _ _ _ => orderly_pure trivial
  · exact orderly_seq fun _ _ _ => orderly_seq fun _ _ _ => orderly_seq fun _ _ _ =>
      orderly_pure trivial

/-- A transaction holds the row it inserts. -/
theorem insertJob_orderly {j : JobId} {row : JobRow} {db : Db} {held : Set RowLock} :
    (insertJob j row).Orderly db held fun held' _ _ => .job j ∈ held' := by
  refine orderly_stmt ?_ fun _ _ hc => ?_
  · split
    · exact .skip .nil
    · exact .nil
  · obtain ⟨_, hnone, _⟩ := insertJob_commits hc
    right
    rw [hnone]
    exact ⟨_, List.mem_singleton_self _, rfl⟩

theorem createJobWithOutbox_orderly (hashtext : String → Int) (id : JobId) (eventId : JobEventId)
    (request : CreateJobRequest) (key : String) (headers : List (String × String)) (t : DbTime)
    (db : Db) : Orderly (createJobWithOutbox hashtext id eventId request key headers t) db := by
  refine orderly_seq fun _ _ _ => orderly_seq_wait (by simp) fun _ _ _ =>
    orderly_seq fun found _ _ => ?_
  rw [if_pos rfl]
  cases found with
  | some => exact orderly_pure trivial
  | none =>
      refine orderly_bind (admitJob_orderly (by simp [RowLock.rank])) fun held _ db₂ _ =>
        orderly_seq fun _ _ _ => orderly_bind insertJob_orderly fun held' _ _ hjob => ?_
      -- the event is appended to the row just inserted
      exact orderly_bind (appendEvent_orderly hjob) fun _ _ _ _ => orderly_seq fun _ _ _ =>
        orderly_pure trivial

theorem requestJobCancellation_orderly (j : JobId) (eventId : JobEventId) (t : DbTime) (db : Db) :
    Orderly (requestJobCancellation j eventId t) db := by
  refine lockJob_required fun row => orderly_seq fun _ _ _ => ?_
  split
  · exact orderly_pure trivial
  · exact orderly_lift fun _ _ _ => trivial
  · refine orderly_seq_held rfl fun _ _ _ => orderly_seq fun _ _ _ => ?_
    exact orderly_bind (appendEvent_orderly rfl) fun _ _ _ _ => orderly_pure trivial

/-- After its checks a claim holds the job and the worker. -/
theorem admitClaim_orderly {j : JobId} {w : WorkerId} {expires : Time} {options : ClaimJobOptions}
    {t : DbTime} {db : Db} : (admitClaim j w expires options t).Orderly db ∅
      fun held' _ _ => .job j ∈ held' ∧ .worker w ∈ held' := by
  refine orderly_seq fun _ _ _ => lockJob_required fun job => orderly_seq fun _ db₁ _ => ?_
  refine orderly_bind (lockProject_orderly (by simp [RowLock.rank])) fun held db₂ _ hheld =>
    orderly_seq fun _ _ _ => orderly_seq fun _ _ _ => ?_
  obtain rfl := hheld
  refine orderly_lookup (by simp [RowLock.rank]) (orderly_seq fun _ _ hc => ?_) fun worker => ?_
  · cases (Tx.okOr_commits.mp hc).1
  · refine orderly_seq fun _ _ _ => orderly_seq fun _ _ _ => orderly_seq fun _ _ _ =>
      orderly_seq fun _ _ _ => orderly_seq fun _ _ _ => orderly_pure ⟨?_, Or.inl rfl⟩
    exact Or.inr (Or.inr rfl)

theorem claimJobWithOptions_orderly (j : JobId) (w : WorkerId) (l : LeaseId) (expires : Time)
    (options : ClaimJobOptions) (eventId : JobEventId) (t : DbTime) (db : Db) :
    Orderly (claimJobWithOptions j w l expires options eventId t) db := by
  refine orderly_bind admitClaim_orderly fun held _ _ ⟨hj, hw⟩ => ?_
  refine orderly_seq_held hw fun _ _ _ => orderly_seq fun _ _ _ => orderly_seq_held hj fun _ _ _ =>
    orderly_seq fun _ _ _ => ?_
  exact orderly_bind (appendEvent_orderly hj) fun _ _ _ _ => orderly_pure trivial

/-- A release of a worker whose row is held. -/
theorem releaseWorkerCapacity_held {t : DbTime} {w : WorkerId} {db : Db} {held : Set RowLock}
    (hw : .worker w ∈ held) :
    (releaseWorkerCapacity t w).Orderly db held fun held' _ _ => held' = held :=
  orderly_seq_held hw fun _ _ _ => orderly_pure rfl

/-- A release of a worker that comes after everything held. -/
theorem releaseWorkerCapacity_waits {t : DbTime} {w : WorkerId} {db : Db} {held : Set RowLock}
    (hw : ∀ h ∈ held, h < .worker w) :
    (releaseWorkerCapacity t w).Orderly db held fun held' _ _ => held ⊆ held' := by
  refine orderly_seq_wait hw fun _ _ _ => orderly_pure ?_
  split
  · exact Set.subset_insert _ _
  · exact subset_rfl

theorem transitionJobState_orderly (j : JobId) (source target : JobState)
    (evidence : TransitionEvidence) (lease : Option LeaseGuard)
    (payload : List (String × EventValue)) (eventId : JobEventId) (t : DbTime) (db : Db) :
    Orderly (transitionJobState j source target evidence lease payload eventId t) db := by
  refine orderly_seq fun _ _ _ => orderly_required (by simp) (fun row _ hc => ?_) fun row _ _ => ?_
  · rcases updateJob_commits hc with ⟨hnone, _⟩ | ⟨old, _, hold, hguard, _⟩
    · cases hnone
    · rw [hold]
      exact hguard
  · rw [insert_empty_eq]
    have hevent : ∀ {held : Set RowLock} {db' : Db}, .job j ∈ held →
        (do let _ ← appendEvent eventId j ("job." ++ target.wire) (some target)
              (decide (source ≠ target)) payload t
            pure (row.intoJob j) : RepoLockTx Job).Orderly db' held fun _ _ _ => True :=
      fun hj => orderly_bind (appendEvent_orderly hj) fun _ _ _ _ => orderly_pure trivial
    split
    · split
      · exact orderly_bind (releaseWorkerCapacity_waits (by simp [RowLock.rank]))
          fun _ _ _ hsub => hevent (hsub rfl)
      · exact hevent rfl
    · exact hevent rfl

theorem recordJobResult_orderly (result : JobResult) (eventId : JobEventId) (t : DbTime) (db : Db) :
    Orderly (recordJobResult result eventId t) db := by
  refine orderly_seq fun _ _ _ => orderly_seq fun _ _ _ => lockJob_required fun current =>
    orderly_seq fun _ _ _ => orderly_seq fun _ _ _ => orderly_seq fun _ _ _ => ?_
  have hrest : ∀ {db' : Db}, (do
      verifyArtifactIds result.jobId result.artifactIds
      .require (result.error.all fun failure => jsonbHolds failure.message)
        (.sqlx .untranslatableCharacter)
      let row ← updateJob result.jobId (resultGuard result t) (·.withResult result)
      let row ← .okOr row (.compareAndSwapLost "job result" result.jobId.val)
      let _ ← appendEvent eventId result.jobId "job.result_recorded" (some current.state) false
        [("outcome", .outcome result.outcome), ("completed_at", .instant result.completedAt),
          ("artifact_ids", .artifacts result.artifactIds)] t
      pure (row.intoJob result.jobId) : RepoLockTx Job).Orderly db' {.job result.jobId}
        fun _ _ _ => True := by
    intro db'
    refine orderly_seq fun _ _ _ => orderly_seq fun _ _ _ =>
      orderly_seq_held rfl fun _ _ _ => orderly_seq fun _ _ _ => ?_
    exact orderly_bind (appendEvent_orderly rfl) fun _ _ _ _ => orderly_pure trivial
  split
  · exact orderly_seq fun _ _ _ => hrest
  · exact hrest

/-! ## Dead letters and recovery -/

/-- A dead letter comes after everything held that is no outbox row. -/
theorem insertJobDeadLetterOutbox_orderly {deadLetter : JobDeadLetter}
    {headers : List (String × String)} {t : DbTime} {db : Db} {held : Set RowLock}
    (hheld : ∀ h ∈ held, h.rank < 5) :
    (insertJobDeadLetterOutbox deadLetter headers t).Orderly db held fun _ _ _ => True := by
  refine orderly_seq fun _ _ _ => orderly_seq fun _ _ _ => orderly_seq fun key _ _ =>
    orderly_seq fun inserted _ _ => ?_
  cases inserted with
  | some row => exact orderly_pure trivial
  | none =>
      refine orderly_seq_wait (fun h hh => RowLock.lt_iff.mpr (Or.inl (hheld h hh))) fun _ _ _ => ?_
      exact orderly_seq fun _ _ _ => orderly_seq fun _ _ _ => orderly_pure trivial

theorem insertExhaustionMarker_orderly {stale : StaleJob} {current : JobRow} {t : DbTime} {db : Db}
    {held : Set RowLock} (hheld : ∀ h ∈ held, h.rank < 5) :
    (insertExhaustionMarker stale current t).Orderly db held fun _ _ _ => True :=
  orderly_seq fun _ _ _ => orderly_bind (insertJobDeadLetterOutbox_orderly hheld) fun _ _ _ _ =>
    orderly_pure trivial

theorem recoverStaleJob_orderly (stale : StaleJob) (maxDeliver : Nat) (eventId : JobEventId)
    (t : DbTime) (db : Db) : Orderly (recoverStaleJob stale maxDeliver eventId t) db := by
  refine orderly_seq fun _ _ _ => orderly_lookup (by simp) (orderly_pure trivial) fun current => ?_
  rw [insert_empty_eq]
  refine orderly_seq fun matched _ _ => ?_
  split
  · exact orderly_pure trivial
  · refine orderly_lookup (by simp [RowLock.rank]) (orderly_pure trivial) fun worker => ?_
    -- the job and the worker are held from here on
    have hjob : RowLock.job stale.jobId ∈
        (insert (.worker stale.workerId) {.job stale.jobId} : Set RowLock) := Or.inr rfl
    have hworker : RowLock.worker stale.workerId ∈
        (insert (.worker stale.workerId) {.job stale.jobId} : Set RowLock) := Or.inl rfl
    simp only
    split
    · exact orderly_pure trivial
    · refine orderly_seq_held hjob fun updated _ _ => ?_
      cases updated with
      | none => exact orderly_pure trivial
      | some row =>
          refine orderly_bind (releaseWorkerCapacity_held hworker) fun held _ _ hheld => ?_
          obtain rfl := hheld
          refine orderly_bind (appendEvent_orderly hjob) fun held _ _ hheld => ?_
          obtain rfl := hheld
          split
          · exact orderly_bind (insertExhaustionMarker_orderly (by simp [RowLock.rank]))
              fun _ _ _ _ => orderly_pure trivial
          · exact orderly_pure trivial

/-! ## Workers -/

theorem upsertWorker_orderly (registration : WorkerRegistration) (t : DbTime) (db : Db) :
    Orderly (upsertWorker registration t) db := by
  refine orderly_seq fun _ _ _ => orderly_lookup (by simp) ?_ fun row => ?_
  · exact orderly_seq fun _ _ _ => orderly_pure trivial
  · exact orderly_seq_held (Or.inl rfl) fun _ _ _ => orderly_seq fun _ _ _ => orderly_pure trivial

theorem setWorkerState_orderly (w : WorkerId) (state : WorkerState) (t : DbTime) (db : Db) :
    Orderly (setWorkerState w state t) db :=
  orderly_seq_wait (by simp) fun _ _ _ => orderly_seq fun _ _ _ => orderly_pure trivial

/-- The jobs a heartbeat locks, each once and in order. -/
theorem extendedJobs_increasing (extends_ : List JobLeaseExtension) (db : Db) :
    ((extendedJobs extends_ db).map RowLock.job).Pairwise (· < ·) := by
  have hnodup : (extendedJobs extends_ db).Nodup :=
    (List.perm_insertionSort _ _).nodup_iff.mpr ((List.nodup_dedup _).filter _)
  have hsorted : (extendedJobs extends_ db).Pairwise fun a b => a.val ≤ b.val := by
    have htotal : Std.Total fun a b : JobId => a.val ≤ b.val := ⟨fun a b => le_total a.val b.val⟩
    have htrans : IsTrans JobId fun a b => a.val ≤ b.val := ⟨fun _ _ _ => le_trans⟩
    exact List.pairwise_insertionSort _ _
  rw [List.pairwise_map]
  refine (hsorted.and hnodup).imp fun {a b} h => ?_
  refine RowLock.lt_iff.mpr (Or.inr ⟨rfl, lt_of_le_of_ne h.1 fun heq => h.2 ?_⟩)
  exact Ident.ext heq

theorem mem_extendedJobs {extends_ : List JobLeaseExtension} {db : Db} {j : JobId} :
    j ∈ extendedJobs extends_ db ↔
      (∃ extension ∈ extends_, extension.jobId = j) ∧ (db.job? j).isSome = true := by
  simp [extendedJobs, List.mem_insertionSort]

/-- An extension touches stored jobs only, and adds none. -/
theorem extendLease_orderly {w : WorkerId} {recordedAt : Time} {leaseSeconds : Int}
    {extension : JobLeaseExtension} {db : Db} {held : Set RowLock}
    (hheld : (db.job? extension.jobId).isSome = true → .job extension.jobId ∈ held) :
    (extendLease w recordedAt leaseSeconds extension).Orderly db held fun held' _ db' =>
      held' = held ∧ ∀ j, (db'.job? j).isSome = (db.job? j).isSome := by
  refine orderly_bind (Q := fun held' _ db' =>
      held' = held ∧ ∀ j, (db'.job? j).isSome = (db.job? j).isSome) ?_ fun held' updated db₁ h => ?_
  · refine orderly_held (fun hany => hheld ?_) fun _ _ hc => ⟨rfl, fun j => ?_⟩
    · obtain ⟨row, hrow, _⟩ := Option.any_eq_true _ _ |>.mp hany
      rw [hrow]
      rfl
    · rcases updateJob_commits hc with ⟨_, rfl, _⟩ | ⟨row, _, hrow, _, _, rfl⟩
      · rfl
      · rw [Db.job?_putJob]
        split
        · next heq => rw [heq, hrow]; rfl
        · rfl
  · split
    · exact orderly_pure h
    · exact orderly_seq fun _ _ hread => orderly_pure ((Tx.read_commits.mp hread).2 ▸ h)

theorem extendLeases_orderly {w : WorkerId} {recordedAt : Time} {leaseSeconds : Int}
    {extends_ : List JobLeaseExtension} {db : Db} {held : Set RowLock}
    (hheld : ∀ extension ∈ extends_, (db.job? extension.jobId).isSome = true →
      .job extension.jobId ∈ held) :
    (extendLeases w recordedAt leaseSeconds extends_).Orderly db held fun _ _ _ => True := by
  induction extends_ generalizing db with
  | nil => exact orderly_pure trivial
  | cons extension rest ih =>
      refine orderly_bind (extendLease_orderly (hheld _ List.mem_cons_self)) fun held' _ db₁ h => ?_
      obtain ⟨rfl, hjobs⟩ := h
      refine orderly_bind (ih fun e he hsome => ?_) fun _ _ _ _ => orderly_pure trivial
      exact hheld e (List.mem_cons_of_mem _ he) (hjobs e.jobId ▸ hsome)

theorem recordHeartbeat_orderly (heartbeat : WorkerHeartbeat) (leaseTtl : Int) (t : DbTime)
    (db : Db) : Orderly (recordHeartbeat heartbeat leaseTtl t) db := by
  refine orderly_seq fun _ _ _ => orderly_seq fun _ _ _ => orderly_seq fun _ db₁ _ => ?_
  refine orderly_bind (Q := fun held' _ db' =>
      db' = db₁ ∧ ∀ l, l ∈ held' ↔ ∃ j ∈ extendedJobs heartbeat.leaseExtends db₁, .job j = l) ?_ ?_
  · refine orderly_stmt ?_ fun _ _ hc => ⟨(Tx.pure_commits.mp hc).2.symm, fun l => ?_⟩
    · have h := ordered_increasing (extendedJobs_increasing heartbeat.leaseExtends db₁)
        (fun h (hmem : h ∈ (∅ : Set RowLock)) => absurd hmem (Set.notMem_empty h))
      rwa [List.map_map] at h
    · simp [Request.lock]
  · rintro held _ _ ⟨rfl, hheld⟩
    have hworker : ∀ h ∈ held, h < .worker heartbeat.workerId := by
      intro h hh
      obtain ⟨j, _, rfl⟩ := (hheld h).mp hh
      simp [RowLock.rank]
    refine orderly_lookup hworker (orderly_seq fun _ _ hok => ?_) fun worker => ?_
    · cases (Tx.okOr_commits.mp hok).1
    · refine orderly_seq fun _ _ hok => orderly_seq fun _ _ hreq => ?_
      obtain ⟨_, rfl⟩ := Tx.okOr_commits.mp hok
      obtain ⟨_, rfl⟩ := Tx.require_commits.mp hreq
      refine orderly_seq_held (Or.inl rfl) fun _ db₂ hupdate => ?_
      refine extendLeases_orderly fun extension hmem hsome => Or.inr ((hheld _).mpr ⟨_, ?_, rfl⟩)
      refine mem_extendedJobs.mpr ⟨⟨extension, hmem, rfl⟩, ?_⟩
      -- the worker's update left the jobs alone
      rcases updateWorker_commits hupdate with ⟨_, rfl, _⟩ | ⟨_, _, _, _, _, rfl⟩
      · exact hsome
      · exact hsome

/-! ## The outbox -/

/-- The rows a lease selects are held. -/
theorem selectOutbox_orderly {candidates : Db → List String} {db : Db} :
    (selectOutbox candidates).Orderly db ∅
      fun held' keys _ => ∀ key ∈ keys, .outbox key ∈ held' := by
  refine orderly_stmt (ordered_skips _ _ _) fun keys _ hc key hkey => ?_
  obtain ⟨rfl, _⟩ := Tx.read_commits.mp hc
  exact Or.inr ⟨.skip (.outbox key), List.mem_map_of_mem hkey, rfl⟩

theorem lockOutboxRows_orderly {dispatcherId : String} {clock : Time} {keys : List String} {db : Db}
    {held : Set RowLock} (hheld : ∀ key ∈ keys, .outbox key ∈ held) :
    (lockOutboxRows dispatcherId clock keys).Orderly db held fun _ _ _ => True := by
  induction keys generalizing db with
  | nil => exact orderly_pure trivial
  | cons key rest ih =>
      refine orderly_seq_held (hheld key List.mem_cons_self) fun _ _ _ => ?_
      exact orderly_bind (ih fun k hk => hheld k (List.mem_cons_of_mem _ hk)) fun _ _ _ _ =>
        orderly_pure trivial

theorem leaseOutboxMessagesForSubject_orderly (dispatcherId subject : String) (leaseTimeout : Int)
    (limit : Nat) (skip : String → Bool) (t : DbTime) (db : Db) :
    Orderly (leaseOutboxMessagesForSubject dispatcherId subject leaseTimeout limit skip t) db :=
  orderly_seq fun _ _ _ => orderly_seq fun _ _ _ => orderly_seq fun _ _ _ => orderly_seq fun _ _ _ =>
    orderly_bind selectOutbox_orderly fun _ _ _ h => lockOutboxRows_orderly h

theorem leaseOutboxMessages_orderly (dispatcherId : String) (leaseTimeout : Int)
    (limit : Nat) (skip : String → Bool) (t : DbTime) (db : Db) :
    Orderly (leaseOutboxMessages dispatcherId leaseTimeout limit skip t) db :=
  orderly_seq fun _ _ _ => orderly_seq fun _ _ _ => orderly_seq fun _ _ _ =>
    orderly_bind selectOutbox_orderly fun _ _ _ h => lockOutboxRows_orderly h

theorem markOutboxPublished_orderly (messageId : Nat) (dispatcherId : String) (t : DbTime)
    (db : Db) : Orderly (markOutboxPublished messageId dispatcherId t) db :=
  orderly_seq fun _ _ _ => orderly_seq fun _ _ _ => orderly_seq fun _ _ _ =>
    orderly_seq_wait (by simp) fun _ _ _ => orderly_seq fun _ _ _ => orderly_pure trivial

theorem retryOutboxMessage_orderly (messageId : Nat) (dispatcherId : String) (availableAt : Time)
    (lastError : String) (db : Db) :
    Orderly (retryOutboxMessage messageId dispatcherId availableAt lastError) db :=
  orderly_seq fun _ _ _ => orderly_seq fun _ _ _ => orderly_seq fun _ _ _ => orderly_seq fun _ _ _ =>
    orderly_seq_wait (by simp) fun _ _ _ => orderly_seq fun _ _ _ => orderly_pure trivial

/-! ## Debug sessions -/

/-- An index allows one unended session a job, so at most one is found expired. -/
theorem endExpiredDebugSession_orderly {j : JobId} {c : DebugClocks} {s : DebugDb}
    {held : Set RowLock} (hone : s.OneUnended) (hheld : ∀ h ∈ held, h.rank < 4) :
    (endExpiredDebugSession j c).Orderly s held fun _ _ _ => True := by
  refine orderly_stmt ?_ fun _ _ _ => trivial
  have hsame : ∀ p ∈ s.sessions.rows.filter fun p => p.2.val.expiredOf j c.expiry,
      ∀ q ∈ s.sessions.rows.filter fun p => p.2.val.expiredOf j c.expiry, p.1 = q.1 := by
    intro p hp q hq
    obtain ⟨hp, hpe⟩ := List.mem_filter.mp hp
    obtain ⟨hq, hqe⟩ := List.mem_filter.mp hq
    obtain ⟨hpj, hpn, _⟩ := DebugSessionRow.expiredOf_iff.mp hpe
    obtain ⟨hqj, hqn, _⟩ := DebugSessionRow.expiredOf_iff.mp hqe
    exact hone p.1 q.1 p.2.val q.2.val (Table.row?_of_mem hp) (Table.row?_of_mem hq)
      (hpj.trans hqj.symm) hpn hqn
  have hnodup : ((s.sessions.rows.filter fun p => p.2.val.expiredOf j c.expiry).map
      Prod.fst).Nodup := s.sessions.nodup.sublist (List.filter_sublist.map _)
  generalize (s.sessions.rows.filter fun p => p.2.val.expiredOf j c.expiry) = rows at *
  rcases rows with - | ⟨p, - | ⟨q, rest⟩⟩
  · exact .nil
  · exact ordered_one fun h hh => RowLock.lt_iff.mpr (Or.inl (hheld h hh))
  · have heq := hsame p List.mem_cons_self q (List.mem_cons_of_mem _ List.mem_cons_self)
    simp [heq] at hnodup

theorem lockDebugSessionJob_orderly {j : JobId} {s : DebugDb} :
    (lockDebugSessionJob j).Orderly s ∅
      fun held' _ s' => (∀ h ∈ held', h.rank < 4) ∧ s' = s := by
  refine orderly_seq_wait (by simp) fun _ _ hc => orderly_lift fun _ _ hok => ⟨?_, ?_⟩
  · split
    · simp [RowLock.rank]
    · simp
  · exact ((Tx.read_commits.mp hc).2.trans (Tx.okOr_commits.mp hok).2).symm

theorem createDebugSession_orderly (request : DebugSessionRequest) (c : DebugClocks) {s : DebugDb}
    (hone : s.OneUnended) : Orderly (createDebugSession request c) s := by
  refine orderly_seq fun _ s₁ hvalid => ?_
  obtain ⟨_, rfl⟩ := Tx.require_commits.mp hvalid
  refine orderly_bind lockDebugSessionJob_orderly fun held _ s₂ h => ?_
  obtain ⟨hrank, rfl⟩ := h
  exact orderly_bind (endExpiredDebugSession_orderly hone hrank) fun _ _ _ _ =>
    orderly_lift fun _ _ _ => trivial

theorem createDebugSessionWithAudit_orderly (request : DebugSessionRequest) (c : DebugClocks)
    {s : DebugDb} (hone : s.OneUnended) : Orderly (createDebugSessionWithAudit request c) s := by
  refine orderly_seq fun _ s₁ hvalid => ?_
  obtain ⟨_, rfl⟩ := Tx.require_commits.mp hvalid
  refine orderly_bind lockDebugSessionJob_orderly fun held _ s₂ h => orderly_seq fun _ s₃ hstate => ?_
  obtain ⟨hrank, rfl⟩ := h
  obtain ⟨_, rfl⟩ := Tx.require_commits.mp hstate
  exact orderly_bind (endExpiredDebugSession_orderly hone hrank) fun _ _ _ _ =>
    orderly_seq fun _ _ _ => orderly_seq fun _ _ _ => orderly_pure trivial

theorem endDebugSession_orderly (id : DebugSessionId) (now : Time) (s : DebugDb) :
    Orderly (endDebugSession id now) s :=
  orderly_seq_wait (by simp) fun _ _ _ => orderly_seq fun _ _ _ => orderly_pure trivial

theorem endDebugSessions_orderly {actor : String} {clock : DebugSessionId → Time} {now : Time}
    {candidates : List (DebugSessionId × DebugSessionEndReason)} {s : DebugDb} {held : Set RowLock}
    (hheld : ∀ p ∈ candidates, .session p.1 ∈ held) :
    (endDebugSessions actor clock now candidates).Orderly s held fun _ _ _ => True := by
  induction candidates generalizing s with
  | nil => exact orderly_pure trivial
  | cons candidate rest ih =>
      refine orderly_seq_held (hheld candidate List.mem_cons_self) fun _ _ _ =>
        orderly_seq fun _ _ _ => orderly_seq fun _ _ _ => ?_
      exact orderly_bind (ih fun p hp => hheld p (List.mem_cons_of_mem _ hp)) fun _ _ _ _ =>
        orderly_pure trivial

theorem endExpiredOrTerminalDebugSessionsWithAudit_orderly (expiredBefore : Time) (actor : String)
    (limit : Nat) (skip : DebugSessionId → Bool) (clock : DebugSessionId → Time) (now : Time)
    (s : DebugDb) : Orderly
      (endExpiredOrTerminalDebugSessionsWithAudit expiredBefore actor limit skip clock now) s := by
  refine orderly_seq fun _ _ _ => orderly_seq fun _ _ _ => ?_
  refine orderly_bind (Q := fun held' candidates _ => ∀ p ∈ candidates, .session p.1 ∈ held') ?_
    fun _ _ _ h => endDebugSessions_orderly h
  refine orderly_stmt (ordered_skips _ _ _) fun candidates _ hc p hp => ?_
  obtain ⟨rfl, _⟩ := Tx.read_commits.mp hc
  exact Or.inr ⟨.skip (.session p.1), List.mem_map_of_mem hp, rfl⟩

/-! ## All of them -/

theorem op_orderly (hashtext : String → Int) (o : Op) (t : DbTime) (db : Db) :
    Orderly (op hashtext o t) db := by
  cases o with
  | setCatalog catalog => exact orderly_lift fun _ _ _ => trivial
  | upsertWorker registration => exact upsertWorker_orderly _ _ _
  | setWorkerState w state => exact setWorkerState_orderly _ _ _ _
  | recordHeartbeat heartbeat leaseTtl => exact recordHeartbeat_orderly _ _ _ _
  | createJobWithOutbox id eventId request key headers =>
      exact createJobWithOutbox_orderly _ _ _ _ _ _ _ _
  | requestJobCancellation j eventId => exact requestJobCancellation_orderly _ _ _ _
  | claimJobWithOptions j w l expires options eventId =>
      exact claimJobWithOptions_orderly _ _ _ _ _ _ _ _
  | transitionJobState j source target evidence lease payload eventId =>
      exact transitionJobState_orderly _ _ _ _ _ _ _ _ _
  | recordJobResult result eventId => exact recordJobResult_orderly _ _ _ _
  | recoverStaleJob stale maxDeliver eventId => exact recoverStaleJob_orderly _ _ _ _ _
  | enqueueJobDeadLetter deadLetter headers => exact insertJobDeadLetterOutbox_orderly (by simp)
  | leaseOutboxMessages dispatcherId subject leaseTimeout limit skip =>
      exact leaseOutboxMessagesForSubject_orderly _ _ _ _ _ _ _
  | markOutboxPublished id dispatcherId => exact markOutboxPublished_orderly _ _ _ _
  | retryOutboxMessage id dispatcherId availableAt lastError =>
      exact retryOutboxMessage_orderly _ _ _ _ _

/-- **One order.** Each transaction climbs in the order of `RowLock`. -/
theorem Requested.ordered {hashtext : String → Int} {rs : List (Logic.Request RowLock)}
    (h : Requested hashtext rs) : Ordered ∅ rs := by
  cases h with
  | op o t db => exact (op_orderly hashtext o t db).1
  | appendJobEvent => exact appendEvent_waits.1
  | leaseOutboxMessages => exact (leaseOutboxMessages_orderly _ _ _ _ _ _).1
  | createDebugSession request c s one => exact (createDebugSession_orderly request c one).1
  | createDebugSessionWithAudit request c s one =>
      exact (createDebugSessionWithAudit_orderly request c one).1
  | endDebugSession => exact (endDebugSession_orderly _ _ _).1
  | endExpiredOrTerminalDebugSessionsWithAudit =>
      exact (endExpiredOrTerminalDebugSessionsWithAudit_orderly _ _ _ _ _ _ _).1

end Traced

open Traced

/-- **Locks in one order.** Whatever the database and the arguments, a transaction asks for
its locks in increasing order; so in no schedule of any transactions one waits, over
others, for itself. -/
theorem locks_in_order (ι : Type) [DecidableEq ι] (hashtext : String → Int) :
    (∀ rs, Requested hashtext rs → Ordered ∅ rs) ∧
      (Locking.system ι (Requested hashtext)).Invariant fun s =>
        ∀ i, ¬ Relation.TransGen (Locking.Waits s) i i :=
  ⟨fun _ h => h.ordered, Locking.acyclic fun _ h => h.ordered⟩

/-- A heartbeat that names its lease twice. -/
def Sample.beatTwice : WorkerHeartbeat :=
  ⟨Sample.worker, 1, 2, [.redroid], false, false, .x86_64,
    [⟨Sample.job, Sample.lease⟩, ⟨Sample.job, Sample.lease⟩], 0⟩

/-- It asks for its job twice more after the worker, and has it already. -/
theorem locks_in_order_heartbeat :
    Ordered ∅ ((op (fun _ => 0) (.recordHeartbeat Sample.beatTwice 60000000) (Sample.at_ 8)).requests
      (Sample.after Sample.running)) :=
  (locks_in_order Nat fun _ => 0).1 _
    (.op (.recordHeartbeat Sample.beatTwice 60000000) (Sample.at_ 8) (Sample.after Sample.running))

end RunAnywhere
