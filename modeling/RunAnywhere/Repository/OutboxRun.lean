import RunAnywhere.Repository.Run

/-!
# The outbox along a run

`Op.outbox` is the inversion of a call for the outbox: rows are never removed, keep
identity, channel, payload and publication, and a row that was not there before is a
webhook delivery, the queue message of a created job, the marker of an exhausted job or
an enqueued dead letter. Only a mark publishes a row.
-/

namespace RunAnywhere

open Logic

/-- Where a row of the outbox comes from after a committed call. -/
inductive RowSource (op : Op) (db db' : Db) (key : String) (new : OutboxRow) : Prop
  | kept (old : OutboxRow) (was : db.message? key = some old) (keeps : old.Keeps new)
      (marked : new.publishedAt.isSome →
        old.publishedAt.isSome ∨ ∃ dispatcher, op = .markOutboxPublished old.id dispatcher)
  | webhook (was : db.message? key = none) (unpublished : new.publishedAt = none)
      (row : IsWebhookRow key new)
  | created {id : JobId} {eventId : JobEventId} {request : CreateJobRequest} {k : String}
      {headers : List (String × String)} (job : JobRow) (was : db.message? key = none)
      (unpublished : new.publishedAt = none)
      (call : op = .createJobWithOutbox id eventId request k headers) (keyed : key = id.val)
      (row : db'.job? id = some job) (payload : new.payload = .jobQueued (job.queued id))
      (channel : new.subject = jobsQueuedSubject)
  | marker {stale : StaleJob} {maxDeliver : Nat} {eventId : JobEventId} (job : JobRow)
      (was : db.message? key = none) (unpublished : new.publishedAt = none)
      (call : op = .recoverStaleJob stale maxDeliver eventId) (limit : maxDeliver ≠ 0)
      (job? : db.job? stale.jobId = some job) (fence : Recoverable stale job)
      (kind : recoveryKind stale maxDeliver job = .exhausted)
      (row : db'.job? stale.jobId = some (job.recovered .exhausted))
      (keyed : key = "dlq:" ++ stale.jobId.val ++ ":" ++ toString stale.deliveryAttempts)
      (channel : new.subject = jobsDeadSubject)
      (payload : ∃ deadLetter : JobDeadLetter, new.payload = .jobDeadLetter deadLetter ∧
        deadLetter.reason = .attemptsExhausted ∧ deadLetter.jobId = some stale.jobId ∧
        deadLetter.attempt = stale.deliveryAttempts)
  | letter {deadLetter : JobDeadLetter} {headers : List (String × String)}
      (was : db.message? key = none) (unpublished : new.publishedAt = none)
      (call : op = .enqueueJobDeadLetter deadLetter headers)
      (keyed : deadLetter.idempotencyKey = .ok key) (channel : new.subject = jobsDeadSubject)
      (payload : new.payload = .jobDeadLetter deadLetter)

/-- What a committed call does to the outbox. -/
structure OutboxStep (op : Op) (db db' : Db) : Prop where
  old : ∀ key old, db.message? key = some old → ∃ new, db'.message? key = some new ∧ old.Keeps new
  new : ∀ key new, db'.message? key = some new → RowSource op db db' key new
  ids : OutboxIds db → OutboxIds db'

/-- The call is one of a publisher. -/
def Op.publishes : Op → Bool
  | .leaseOutboxMessages _ _ _ _ _ | .markOutboxPublished _ _ | .retryOutboxMessage _ _ _ _ => true
  | _ => false

/-- A row inserted by the call, by its source. -/
def Inserted (op : Op) (db db' : Db) (key : String) (row : OutboxRow) : Prop :=
  db.message? key = none → row.publishedAt = none → RowSource op db db' key row

/-- Releasing capacity leaves the outbox alone. -/
theorem releaseWorkerCapacity_outbox {t : DbTime} {w : WorkerId} {db db' : Db} {u : Unit}
    (h : (releaseWorkerCapacity t w).Commits db u db') :
    db'.outbox = db.outbox ∧ db'.nextOutboxId = db.nextOutboxId := by
  rcases releaseWorkerCapacity_commits h with ⟨_, rfl⟩ | ⟨_, _, _, rfl⟩ <;> exact ⟨rfl, rfl⟩

/-- **Growth.** A call that is not one of a publisher inserts rows and changes none. -/
theorem Op.grew {op : Op} {t : DbTime} {db db' : Db} {out : op.Out}
    (h : (op.tx t).Commits db out db') (hop : op.publishes = false) :
    OutboxGrew (Inserted op db db') db db' := by
  cases op with
  | setCatalog catalog =>
      obtain rfl := Tx.write_commits.mp h
      exact .of_eq rfl rfl
  | upsertWorker registration =>
      rcases upsertWorker_commits h with ⟨_, _, rfl⟩ | ⟨_, _, _, rfl⟩ <;> exact .of_eq rfl rfl
  | setWorkerState w state =>
      obtain ⟨_, _, _, rfl⟩ := setWorkerState_commits h
      exact .of_eq rfl rfl
  | recordHeartbeat heartbeat leaseTtl =>
      obtain ⟨_, _, _, _, _, rfl, _, honly, _, _⟩ := recordHeartbeat_commits h
      exact .of_eq honly.outbox honly.nextOutboxId
  | createJobWithOutbox id eventId request k headers =>
      rcases createJobWithOutbox_commits h with ⟨_, _, _, _, rfl⟩ |
        ⟨hc, event, _, _, _, _, _, _, _, hjobs, _, hgrew, _⟩
      · exact .of_eq rfl rfl
      · have hrow : db'.job? id = some (newJobRow request k t) := by
          unfold Db.job?
          rw [hjobs]
          exact Table.row?_put_self _ _ _ _
        refine .mono (fun key row hk hnone hpub => ?_) hgrew
        rcases hk with hweb | ⟨hkey, hsub, hpay⟩
        · exact .webhook hnone hpub hweb
        · exact .created _ hnone hpub rfl hkey hrow hpay hsub
  | requestJobCancellation id eventId =>
      obtain ⟨row, _, _, hcase⟩ := requestJobCancellation_commits h
      rcases hcase with ⟨_, _, rfl⟩ | ⟨_, _, _, _, _, _, _, _, _, hgrew⟩
      · exact .of_eq rfl rfl
      · exact .mono (fun key row hk hnone hpub => .webhook hnone hpub hk) hgrew
  | claimJobWithOptions id w l expires options eventId =>
      obtain ⟨_, _, _, _, _, _, _, _, _, h⟩ := claimJobWithOptions_commits h
      obtain ⟨_, _, _, _, _, _, _, _, _, _, hgrew⟩ := h
      exact .mono (fun key row hk hnone hpub => .webhook hnone hpub hk) hgrew
  | transitionJobState id source target evidence lease payload eventId =>
      obtain ⟨row, hc, db₁, _, _, _, _, hrel, _, _, _, _, hgrew⟩ := transitionJobStateWith_commits h
      have hframe : db₁.outbox = db.outbox ∧ db₁.nextOutboxId = db.nextOutboxId := by
        cases hr : releasesOn target row with
        | none => rw [hr] at hrel; subst hrel; exact ⟨rfl, rfl⟩
        | some w =>
            rw [hr] at hrel
            have h₁ := releaseWorkerCapacity_outbox hrel
            exact h₁
      exact .mono (fun key row hk hnone hpub => .webhook hnone hpub hk)
        (hgrew.of_source hframe.1 hframe.2)
  | recordJobResult result eventId =>
      obtain ⟨_, _, _, _, _, _, _, _, _, _, hout, hn⟩ := recordJobResult_commits h
      exact .of_eq hout hn
  | recoverStaleJob stale maxDeliver eventId =>
      rcases recoverStaleJobWith_commits h with ⟨_, rfl⟩ |
        ⟨row, worker, hc, db₁, hmax, hrow, hfence, _, _, _, hrel, _, _, hjobs, _, hgrew, _⟩
      · exact .of_eq rfl rfl
      · obtain ⟨ho, hn⟩ := releaseWorkerCapacity_outbox hrel
        have hj := (releaseWorkerCapacity_frame hrel).1
        have hrow' : db'.job? stale.jobId =
            some (row.recovered (recoveryKind stale maxDeliver row)) := by
          unfold Db.job?
          rw [hjobs, hj]
          exact Table.row?_put_self _ _ _ _
        refine .mono (fun key new hk hnone hpub => ?_) (hgrew.of_source ho hn)
        rcases hk with hweb | ⟨hkind, hkey, hsub, hpay⟩
        · exact .webhook hnone hpub hweb
        · rw [hkind] at hrow'
          exact .marker row hnone hpub rfl hmax hrow hfence hkind hrow' hkey hsub hpay
  | enqueueJobDeadLetter deadLetter headers =>
      obtain ⟨key, _, hkey, _, _, _, _, hgrew⟩ := insertJobDeadLetterOutbox_commits h
      refine .mono (fun key' row hk hnone hpub => ?_) hgrew
      obtain ⟨rfl, hsub, hpay⟩ := hk
      exact .letter hnone hpub rfl hkey hsub hpay
  | leaseOutboxMessages dispatcherId subject leaseTimeout limit skip => cases hop
  | markOutboxPublished id dispatcherId => cases hop
  | retryOutboxMessage id dispatcherId availableAt lastError => cases hop

theorem OutboxStep.of_grew {op : Op} {db db' : Db} (h : OutboxGrew (Inserted op db db') db db') :
    OutboxStep op db db' := by
  refine ⟨fun key old hold => ⟨old, h.old hold, .refl old⟩, fun key new hn => ?_, h.ids⟩
  rcases h.rows key with hsame | ⟨row, hnone, hsome, hpub, _, _, hk⟩
  · exact .kept new (hsame ▸ hn) (.refl new) Or.inl
  · obtain rfl := Option.some.inj (hsome.symm.trans hn)
    exact hk hnone hpub

theorem OutboxStep.of_kept {op : Op} {db db' : Db} {marks : Nat → Prop}
    (h : OutboxKept marks db db')
    (hmarks : ∀ id, marks id → ∃ dispatcher, op = .markOutboxPublished id dispatcher) :
    OutboxStep op db db' := by
  refine ⟨fun key old hold => h.after hold, fun key new hn => ?_, h.ids⟩
  obtain ⟨old, hold, hkeep, hpub⟩ := h.before hn
  exact .kept old hold hkeep fun hp => (hpub hp).imp_right (hmarks _)

/-- **Outbox.** What a committed call does to the outbox. -/
theorem Op.outbox {op : Op} {t : DbTime} {db db' : Db} {out : op.Out}
    (h : (op.tx t).Commits db out db') : OutboxStep op db db' := by
  cases op with
  | leaseOutboxMessages dispatcherId subject leaseTimeout limit skip =>
      exact .of_kept (leaseOutboxMessagesForSubject_kept h).1 fun _ hf => hf.elim
  | markOutboxPublished id dispatcherId =>
      refine .of_kept (markOutboxPublished_kept h) fun id' hid => ?_
      subst hid
      exact ⟨dispatcherId, rfl⟩
  | retryOutboxMessage id dispatcherId availableAt lastError =>
      exact .of_kept (retryOutboxMessage_kept h) fun _ hf => hf.elim
  | _ => exact .of_grew (Op.grew h rfl)

/-- Every reachable database keeps its identities apart. -/
theorem outboxIds_invariant (Allowed : Op → Prop) :
    (repository Allowed).Invariant OutboxIds := by
  refine TSys.Inductive.invariant ⟨?_, fun db call db' _ ih hstep => ?_⟩
  · rintro _ ⟨catalog, rfl⟩ key row hrow
    cases hrow
  · rcases repository_step_cases hstep with ⟨_, _, hc⟩ | ⟨_, rfl⟩
    · exact (Op.outbox hc).ids ih
    · exact ih

/-! ## Leases of rows -/

/-- The row after it was published. -/
def OutboxRow.published (clock : Time) (row : OutboxRow) : OutboxRow :=
  { row with publishedAt := some clock, lockedBy := none, lockedAt := none, lastError := none }

/-- The row after its publication failed. -/
def OutboxRow.released (availableAt : Time) (lastError : String) (row : OutboxRow) : OutboxRow :=
  { row with
    availableAt := availableAt, lastError := some lastError, lockedBy := none, lockedAt := none }

/-- The selected keys are apart. -/
theorem Db.nodup_leaseCandidates (db : Db) (subject : String) (micros : Int) (clock : Time)
    (limit : Nat) (skip : String → Bool) :
    (db.leaseCandidates subject micros clock limit skip).Nodup := by
  unfold leaseCandidates
  have hrows : (db.outbox.rows.map Prod.fst).Nodup := db.outbox.nodup
  apply List.Nodup.sublist ((List.take_sublist _ _).map _)
  apply ((List.perm_insertionSort _ _).map Prod.fst).nodup_iff.mpr
  exact hrows.sublist (List.filter_sublist.map _)

/-- A selected key is the key of a leasable row. -/
theorem Db.leasable_of_mem_leaseCandidates {db : Db} {subject : String} {micros : Int}
    {clock : Time} {limit : Nat} {skip : String → Bool} {key : String}
    (h : key ∈ db.leaseCandidates subject micros clock limit skip) :
    ∃ row, db.message? key = some row ∧ row.leasable subject micros clock = true := by
  obtain ⟨⟨k, row⟩, hmem, rfl⟩ := List.mem_map.mp h
  have hready := (List.mem_insertionSort _).mp (List.mem_of_mem_take hmem)
  obtain ⟨hrow, hcond⟩ := List.mem_filter.mp hready
  simp only [Bool.and_eq_true] at hcond
  refine ⟨row.val, ?_, hcond.1⟩
  unfold Db.message? Table.row?
  rw [(Table.mem_rows_iff _ _ _).mp hrow]
  rfl

/-- Locking present rows locks each of them once, and no other row. -/
theorem lockOutboxRows_commits {d : String} {clock : Time} {keys : List String} {db db' : Db}
    {out : List OutboxMessage} (h : (lockOutboxRows d clock keys).Commits db out db')
    (hnodup : keys.Nodup) (hall : ∀ key ∈ keys, (db.message? key).isSome = true) :
    out.map (·.eventKey) = keys ∧ (∀ key, key ∉ keys → db'.message? key = db.message? key) ∧
      ∀ m ∈ out, ∃ row, db.message? m.eventKey = some row ∧
        db'.message? m.eventKey = some (row.lock d clock) ∧
        m = (row.lock d clock).intoMessage m.eventKey := by
  induction keys generalizing db out with
  | nil =>
      obtain ⟨rfl, rfl⟩ := Tx.pure_commits.mp h
      exact ⟨rfl, fun _ _ => rfl, fun m hm => by cases hm⟩
  | cons key rest ih =>
      obtain ⟨hkey, hrest⟩ := List.nodup_cons.mp hnodup
      simp only [lockOutboxRows, Tx.bind_commits, Tx.pure_commits] at h
      obtain ⟨locked, db₁, hup, messages, _, hlock, rfl, rfl⟩ := h
      rcases updateOutbox_commits hup with ⟨_, _, hany⟩ | ⟨row, hc, hrow, _, rfl, rfl⟩
      · obtain ⟨row, hrow⟩ := Option.isSome_iff_exists.mp (hall key List.mem_cons_self)
        rw [hrow] at hany
        cases hany
      · -- the first row is locked, and the rest of the loop leaves it alone
        have hother : ∀ k, k ≠ key → Db.message? { db with
            outbox := db.outbox.put key ⟨row.lock d clock, hc⟩ } k = db.message? k := by
          intro k hk
          exact Table.row?_put_of_ne _ _ _ hk
        have hself : Db.message? { db with
            outbox := db.outbox.put key ⟨row.lock d clock, hc⟩ } key = some (row.lock d clock) :=
          Table.row?_put_self _ _ _ _
        obtain ⟨hkeys, hframe, hout⟩ := ih hlock hrest fun k hk => by
          rw [hother k fun heq => hkey (heq ▸ hk)]
          exact hall k (List.mem_cons_of_mem _ hk)
        refine ⟨?_, fun k hk => ?_, fun m hm => ?_⟩
        · show key :: messages.map (·.eventKey) = key :: rest
          rw [hkeys]
        · rw [List.mem_cons, not_or] at hk
          rw [hframe k hk.2, hother k hk.1]
        · rcases List.mem_cons.mp hm with rfl | hm
          · exact ⟨row, hrow, (hframe key hkey).trans hself, rfl⟩
          · obtain ⟨row', hold, hnew, heq⟩ := hout m hm
            have hmem : m.eventKey ∈ rest := hkeys ▸ List.mem_map_of_mem hm
            have hne : m.eventKey ≠ key := fun heq => hkey (heq ▸ hmem)
            exact ⟨row', (hother _ hne) ▸ hold, hnew, heq⟩

/-- **Lease.** The answer lists the rows the lease locked, each once and as it left
them; they were leasable, and no other row changed. -/
theorem leaseOutboxMessagesForSubject_commits {d subject : String} {timeout : Int} {limit : Nat}
    {skip : String → Bool} {t : DbTime} {db db' : Db} {out : List OutboxMessage}
    (h : (leaseOutboxMessagesForSubject d subject timeout limit skip t).Commits db out db') :
    (out.map (·.eventKey)).Nodup ∧
      (∀ key, key ∉ out.map (·.eventKey) → db'.message? key = db.message? key) ∧
      ∀ m ∈ out, ∃ row, db.message? m.eventKey = some row ∧
        row.leasable subject (timeout.tdiv 1000 * 1000) t.clock = true ∧
        db'.message? m.eventKey = some (row.lock d t.clock) ∧
        m = (row.lock d t.clock).intoMessage m.eventKey := by
  simp only [leaseOutboxMessagesForSubject, validateDispatcherId, validateSubject, checkedLimit,
    Tx.bind_commits, Tx.require_commits, Tx.read_commits] at h
  obtain ⟨_, _, ⟨_, rfl⟩, _, _, ⟨_, rfl⟩, _, _, ⟨_, rfl⟩, _, _, ⟨_, rfl⟩, h⟩ := h
  obtain ⟨keys, _, ⟨rfl, rfl⟩, h⟩ := h
  obtain ⟨hkeys, hframe, hout⟩ := lockOutboxRows_commits h (Db.nodup_leaseCandidates _ _ _ _ _ _)
    fun key hkey => by
      obtain ⟨row, hrow, _⟩ := Db.leasable_of_mem_leaseCandidates hkey
      rw [hrow]
      rfl
  rw [hkeys]
  refine ⟨Db.nodup_leaseCandidates _ _ _ _ _ _, hframe, fun m hm => ?_⟩
  obtain ⟨row, hold, hnew, heq⟩ := hout m hm
  have hmem := hkeys ▸ List.mem_map_of_mem hm
  obtain ⟨row', hrow', hleasable⟩ := Db.leasable_of_mem_leaseCandidates hmem
  obtain rfl := Option.some.inj (hrow'.symm.trans hold)
  exact ⟨row', hold, hleasable, hnew, heq⟩

/-- **Mark.** -/
theorem markOutboxPublished_commits {id : Nat} {d : String} {t : DbTime} {db db' : Db}
    {out : OutboxMessage} (h : (markOutboxPublished id d t).Commits db out db') :
    ∃ key row, db.message? key = some row ∧ row.id = id ∧ row.publishedAt = none ∧
      row.lockedBy = some d ∧ db'.message? key = some (row.published t.clock) ∧
      ∀ k, k ≠ key → db'.message? k = db.message? k := by
  simp only [markOutboxPublished, validateDispatcherId, Tx.bind_commits, Tx.require_commits,
    Tx.read_commits, Tx.okOr_commits, Tx.pure_commits] at h
  obtain ⟨_, _, ⟨_, rfl⟩, _, _, ⟨rfl, rfl⟩, key, _, ⟨hkey, rfl⟩, _, _, hup, row, _, ⟨hsome, rfl⟩, _,
    rfl⟩ := h
  rcases updateOutbox_commits hup with ⟨rfl, _⟩ | ⟨row₀, hc, hrow, hguard, _, rfl⟩
  · cases hsome
  · simp only [Bool.and_eq_true, Option.isNone_iff_eq_none, decide_eq_true_eq] at hguard
    exact ⟨key, row₀, hrow, Db.messageKey?_row hkey hrow, hguard.1, hguard.2,
      Table.row?_put_self _ _ _ _, fun k hk => Table.row?_put_of_ne _ _ _ hk⟩

/-- **Retry.** -/
theorem retryOutboxMessage_commits {id : Nat} {d : String} {availableAt : Time} {error : String}
    {db db' : Db} {out : OutboxMessage}
    (h : (retryOutboxMessage id d availableAt error).Commits db out db') :
    ∃ key row, db.message? key = some row ∧ row.id = id ∧ row.publishedAt = none ∧
      row.lockedBy = some d ∧ db'.message? key = some (row.released availableAt error) ∧
      ∀ k, k ≠ key → db'.message? k = db.message? k := by
  simp only [retryOutboxMessage, validateDispatcherId, Tx.bind_commits, Tx.require_commits,
    Tx.read_commits, Tx.okOr_commits, Tx.pure_commits] at h
  obtain ⟨_, _, ⟨_, rfl⟩, _, _, ⟨_, rfl⟩, _, _, ⟨rfl, rfl⟩, h⟩ := h
  obtain ⟨key, _, ⟨hkey, rfl⟩, _, _, hup, row, _, ⟨hsome, rfl⟩, _, rfl⟩ := h
  rcases updateOutbox_commits hup with ⟨rfl, _⟩ | ⟨row₀, hc, hrow, hguard, _, rfl⟩
  · cases hsome
  · simp only [Bool.and_eq_true, Option.isNone_iff_eq_none, decide_eq_true_eq] at hguard
    exact ⟨key, row₀, hrow, Db.messageKey?_row hkey hrow, hguard.1, hguard.2,
      Table.row?_put_self _ _ _ _, fun k hk => Table.row?_put_of_ne _ _ _ hk⟩

/-- What a call does to a stored row. -/
inductive LeaseChange (op : Op) (t : DbTime) (old : OutboxRow) : OutboxRow → Prop
  | kept : LeaseChange op t old old
  | leased {d subject : String} {timeout : Int} {limit : Nat} {skip : String → Bool} :
      op = .leaseOutboxMessages d subject timeout limit skip →
      old.leasable subject (timeout.tdiv 1000 * 1000) t.clock = true →
      LeaseChange op t old (old.lock d t.clock)
  | published {d : String} : op = .markOutboxPublished old.id d → old.publishedAt = none →
      old.lockedBy = some d → LeaseChange op t old (old.published t.clock)
  | released {d : String} {availableAt : Time} {error : String} :
      op = .retryOutboxMessage old.id d availableAt error → old.publishedAt = none →
      old.lockedBy = some d → LeaseChange op t old (old.released availableAt error)

/-- **Stored rows.** A call keeps every row of the outbox, or changes its lease in one of
the listed ways. -/
theorem Op.leases {op : Op} {t : DbTime} {db db' : Db} {out : op.Out}
    (h : (op.tx t).Commits db out db') {key : String} {old : OutboxRow}
    (hold : db.message? key = some old) :
    ∃ new, db'.message? key = some new ∧ LeaseChange op t old new := by
  cases op with
  | leaseOutboxMessages d subject timeout limit skip =>
      obtain ⟨_, hframe, hout⟩ := leaseOutboxMessagesForSubject_commits h
      by_cases hkey : key ∈ (out : List OutboxMessage).map (·.eventKey)
      · obtain ⟨m, hm, rfl⟩ := List.mem_map.mp hkey
        obtain ⟨row, hrow, hleasable, hnew, _⟩ := hout m hm
        obtain rfl := Option.some.inj (hrow.symm.trans hold)
        exact ⟨_, hnew, .leased rfl hleasable⟩
      · exact ⟨old, (hframe key hkey).trans hold, .kept⟩
  | markOutboxPublished id d =>
      obtain ⟨k, row, hrow, rfl, hpub, hlocked, hnew, hframe⟩ := markOutboxPublished_commits h
      by_cases hk : key = k
      · subst hk
        obtain rfl := Option.some.inj (hrow.symm.trans hold)
        exact ⟨_, hnew, .published rfl hpub hlocked⟩
      · exact ⟨old, (hframe key hk).trans hold, .kept⟩
  | retryOutboxMessage id d availableAt error =>
      obtain ⟨k, row, hrow, rfl, hpub, hlocked, hnew, hframe⟩ := retryOutboxMessage_commits h
      by_cases hk : key = k
      · subst hk
        obtain rfl := Option.some.inj (hrow.symm.trans hold)
        exact ⟨_, hnew, .released rfl hpub hlocked⟩
      · exact ⟨old, (hframe key hk).trans hold, .kept⟩
  | _ => exact ⟨old, (Op.grew h rfl).old hold, .kept⟩

/-- **New rows.** A row that was not there before has never been leased. -/
theorem Op.newMessage {op : Op} {t : DbTime} {db db' : Db} {out : op.Out}
    (h : (op.tx t).Commits db out db') {key : String} {new : OutboxRow}
    (hold : db.message? key = none) (hnew : db'.message? key = some new) :
    new.publishedAt = none ∧ new.lockedBy = none ∧ new.attempts = 0 := by
  have hgrew : ∀ {New : String → OutboxRow → Prop}, OutboxGrew New db db' →
      new.publishedAt = none ∧ new.lockedBy = none ∧ new.attempts = 0 := by
    intro New hg
    rcases hg.rows key with hsame | ⟨row, _, hsome, hpub, hlocked, hattempts, _⟩
    · rw [hsame, hold] at hnew
      cases hnew
    · obtain rfl := Option.some.inj (hsome.symm.trans hnew)
      exact ⟨hpub, hlocked, hattempts⟩
  have hkept : ∀ {marks : Nat → Prop}, OutboxKept marks db db' →
      new.publishedAt = none ∧ new.lockedBy = none ∧ new.attempts = 0 := by
    intro marks hk
    obtain ⟨old, hsome, _⟩ := hk.before hnew
    rw [hold] at hsome
    cases hsome
  cases op with
  | leaseOutboxMessages d subject timeout limit skip =>
      exact hkept (leaseOutboxMessagesForSubject_kept h).1
  | markOutboxPublished id d => exact hkept (markOutboxPublished_kept h)
  | retryOutboxMessage id d availableAt error => exact hkept (retryOutboxMessage_kept h)
  | _ => exact hgrew (Op.grew h rfl)

end RunAnywhere
