import RunAnywhere.Repository.Spec

/-!
# What a committed worker or outbox operation did

The inversion lemmas of registration, heartbeats and the publisher's calls. The
heartbeat is a loop: `extendLeases_commits` gives the row of every job after the
whole loop in closed form, and the three lists of the receipt as filters of the
request over the database the heartbeat started from.
-/

namespace RunAnywhere

open Logic

/-! ## Registration -/

/-- **Registration.** A new worker starts without jobs; a known one keeps its
reservations, which fit the new capacity. -/
theorem upsertWorker_commits {registration : WorkerRegistration} {t : DbTime} {db db' : Db}
    {status : WorkerStatus} (h : (upsertWorker registration t).Commits db status db') :
    (∃ hc : (newWorkerRow registration t).Checks, db.worker? registration.workerId = none ∧
      db' = { db with workers :=
        db.workers.put registration.workerId ⟨newWorkerRow registration t, hc⟩ }) ∨
    ∃ row, ∃ hc : (row.registered registration t).Checks,
      db.worker? registration.workerId = some row ∧
      db' = { db with workers :=
        db.workers.put registration.workerId ⟨row.registered registration t, hc⟩ } := by
  simp only [upsertWorker, validateRuntimes, Tx.bind_commits, Tx.require_commits,
    lockWorker_commits] at h
  obtain ⟨_, _, ⟨_, _, ⟨_, rfl⟩, _, rfl⟩, found, _, ⟨hfound, rfl⟩, h⟩ := h
  cases found with
  | none =>
      simp only [Tx.bind_commits, Tx.pure_commits] at h
      obtain ⟨_, _, hins, _, rfl⟩ := h
      obtain ⟨hc, rfl⟩ := insertWorker_commits hins
      exact Or.inl ⟨hc, hfound, rfl⟩
  | some known =>
      simp only [Tx.bind_commits, Tx.okOr_commits, Tx.pure_commits] at h
      obtain ⟨updated, _, hup, _, _, ⟨hsome, rfl⟩, _, rfl⟩ := h
      rcases updateWorker_commits hup with ⟨rfl, _⟩ | ⟨row, hc, hrow, _, _, rfl⟩
      · cases hsome
      · exact Or.inr ⟨row, hc, hrow, rfl⟩

theorem setWorkerState_commits {w : WorkerId} {state : WorkerState} {t : DbTime} {db db' : Db}
    {status : WorkerStatus} (h : (setWorkerState w state t).Commits db status db') :
    ∃ row, ∃ hc : (row.withState state t).Checks, db.worker? w = some row ∧
      db' = { db with workers := db.workers.put w ⟨row.withState state t, hc⟩ } := by
  simp only [setWorkerState, Tx.bind_commits, Tx.okOr_commits, Tx.pure_commits] at h
  obtain ⟨updated, _, hup, _, _, ⟨hsome, rfl⟩, _, rfl⟩ := h
  rcases updateWorker_commits hup with ⟨rfl, _⟩ | ⟨row, hc, hrow, _, _, rfl⟩
  · cases hsome
  · exact ⟨row, hc, hrow, rfl⟩

/-! ## Heartbeats -/

theorem extendGuard_iff {w : WorkerId} {l : LeaseId} {now : Time} {row : JobRow} :
    extendGuard w l now row = true ↔
      row.workerId = some w ∧ row.leaseId = some l ∧
      (∃ e, row.leaseExpiresAt = some e ∧ now < e) ∧ row.pendingOutcome = none ∧
      row.state ≠ .queued ∧ row.state.isTerminal = false := by
  simp only [extendGuard, Bool.and_eq_true, JobRow.heldBy_iff, JobRow.leaseLiveAt_iff,
    Option.isNone_iff_eq_none, Bool.not_eq_true', Bool.or_eq_false_iff, decide_eq_false_iff_not]
  tauto

/-- An extended lease is live, so the guard still accepts it. -/
theorem extendGuard_extended {w : WorkerId} {l : LeaseId} {now : Time} {secs : Int}
    (hsecs : 0 < secs) {row : JobRow} (h : extendGuard w l now row = true) (l' : LeaseId) :
    extendGuard w l' now (row.extended now secs) = extendGuard w l' now row := by
  obtain ⟨hw, hl, hexp, hp, hq, ht⟩ := extendGuard_iff.mp h
  have hstep : 0 < secs * 1000000 := by omega
  have hlater : now < now + secs * 1000000 := Int.lt_add_of_pos_right now hstep
  have hlive : ∃ e, (row.extended now secs).leaseExpiresAt = some e ∧ now < e :=
    ⟨_, rfl, hlater⟩
  rw [Bool.eq_iff_iff, extendGuard_iff, extendGuard_iff]
  constructor
  · rintro ⟨_, hl', _⟩
    exact ⟨hw, hl', hexp, hp, hq, ht⟩
  · rintro ⟨_, hl', _⟩
    exact ⟨hw, hl', hlive, hp, hq, ht⟩

/-- Extending twice at one instant is extending once. -/
@[simp] theorem JobRow.extended_extended (row : JobRow) (now : Time) (secs : Int) :
    (row.extended now secs).extended now secs = row.extended now secs := rfl

/-- Some listed lease of job `j` may be extended on `row`. -/
def extendable (w : WorkerId) (now : Time) (exts : List JobLeaseExtension) (j : JobId)
    (row : JobRow) : Bool :=
  exts.any fun e => decide (e.jobId = j) && extendGuard w e.leaseId now row

theorem extendable_iff {w : WorkerId} {now : Time} {exts : List JobLeaseExtension} {j : JobId}
    {row : JobRow} : extendable w now exts j row = true ↔
      ∃ e ∈ exts, e.jobId = j ∧ extendGuard w e.leaseId now row = true := by
  simp [extendable]

/-- Only the job table differs. -/
structure OnlyJobs (db db' : Db) : Prop where
  catalog : db'.catalog = db.catalog
  workers : db'.workers = db.workers
  events : db'.events = db.events
  sequence : db'.nextEventSequence = db.nextEventSequence
  outbox : db'.outbox = db.outbox
  nextOutboxId : db'.nextOutboxId = db.nextOutboxId

/-- The row of a job after a heartbeat that lists `exts`. -/
def JobRow.afterHeartbeat (w : WorkerId) (now : Time) (secs : Int)
    (exts : List JobLeaseExtension) (j : JobId) (row : JobRow) : JobRow :=
  if extendable w now exts j row then row.extended now secs else row

/-- What one requested extension is answered, from the row of its job. -/
def extensionOutcome (w : WorkerId) (now : Time) (l : LeaseId) (row : Option JobRow) :
    ExtensionOutcome :=
  if row.any (extendGuard w l now) then .extended
  else if row.any (cancelGuard w l) then .cancelRequested
  else .rejected

/-- **One extension.** -/
theorem extendLease_commits {w : WorkerId} {now : Time} {secs : Int} {e : JobLeaseExtension}
    {db db' : Db} {outcome : ExtensionOutcome}
    (h : (extendLease w now secs e).Commits db outcome db') :
    outcome = extensionOutcome w now e.leaseId (db.job? e.jobId) ∧
    ((db = db' ∧ (db.job? e.jobId).any (extendGuard w e.leaseId now) = false) ∨
      ∃ row, ∃ hc : (row.extended now secs).Checks, db.job? e.jobId = some row ∧
        extendGuard w e.leaseId now row = true ∧
        db' = { db with jobs := db.jobs.put e.jobId ⟨row.extended now secs, hc⟩ }) := by
  simp only [extendLease, Tx.bind_commits] at h
  obtain ⟨updated, db₁, hup, h⟩ := h
  rcases updateJob_commits hup with ⟨rfl, rfl, hany⟩ | ⟨row, hc, hrow, hguard, rfl, rfl⟩
  · simp only [Option.isSome_none, Bool.false_eq_true, if_false, Tx.bind_commits,
      Tx.read_commits, Tx.pure_commits] at h
    obtain ⟨_, _, ⟨rfl, rfl⟩, rfl, rfl⟩ := h
    exact ⟨by simp [extensionOutcome, hany], Or.inl ⟨rfl, hany⟩⟩
  · simp only [Option.isSome_some, if_true, Tx.pure_commits] at h
    obtain ⟨rfl, rfl⟩ := h
    exact ⟨by simp [extensionOutcome, hrow, hguard], Or.inr ⟨row, hc, hrow, hguard, rfl⟩⟩

/-- One extension only changes the row of its job, and only when its guard holds. -/
theorem extendLease_job? {w : WorkerId} {now : Time} {secs : Int} {e : JobLeaseExtension}
    {db db' : Db} {outcome : ExtensionOutcome}
    (h : (extendLease w now secs e).Commits db outcome db') (j : JobId) :
    db'.job? j = (db.job? j).map (JobRow.afterHeartbeat w now secs [e] j) := by
  have hnone : ∀ {j : JobId}, (∀ row, db.job? j = some row → extendable w now [e] j row = false) →
      (db.job? j).map (JobRow.afterHeartbeat w now secs [e] j) = db.job? j := by
    intro j hrows
    cases hj : db.job? j with
    | none => rfl
    | some row => simp [JobRow.afterHeartbeat, hrows row hj]
  rcases (extendLease_commits h).2 with ⟨rfl, hany⟩ | ⟨row, hc, hrow, hguard, rfl⟩
  · refine (hnone fun row hrow => ?_).symm
    by_contra hx
    obtain ⟨e', he', rfl, hg⟩ := extendable_iff.mp (Bool.not_eq_false _ |>.mp hx)
    obtain rfl := List.mem_singleton.mp he'
    rw [hrow] at hany
    simp [hg] at hany
  · rw [Db.job?_putJob]
    by_cases hj : j = e.jobId
    · subst hj
      have hx : extendable w now [e] e.jobId row = true :=
        extendable_iff.mpr ⟨e, by simp, rfl, hguard⟩
      simp [hrow, JobRow.afterHeartbeat, hx]
    · rw [if_neg hj]
      refine (hnone fun row' _ => ?_).symm
      by_contra hx
      obtain ⟨e', he', hj', _⟩ := extendable_iff.mp (Bool.not_eq_false _ |>.mp hx)
      obtain rfl := List.mem_singleton.mp he'
      exact hj hj'.symm

/-- The receipt lists the requested extensions by their answers. -/
structure ReceiptOf (w : WorkerId) (now : Time) (exts : List JobLeaseExtension)
    (job? : JobId → Option JobRow) (receipt : HeartbeatReceipt) : Prop where
  recordedAt : receipt.recordedAt = now
  extended : receipt.extended = exts.filter fun e =>
    extensionOutcome w now e.leaseId (job? e.jobId) = .extended
  cancelRequested : receipt.cancelRequested = exts.filter fun e =>
    extensionOutcome w now e.leaseId (job? e.jobId) = .cancelRequested
  rejected : receipt.rejected = exts.filter fun e =>
    extensionOutcome w now e.leaseId (job? e.jobId) = .rejected

/-- The answer to an extension does not depend on the extensions made before it. -/
theorem extensionOutcome_afterHeartbeat {w : WorkerId} {now : Time} {secs : Int}
    (hsecs : 0 < secs) (exts : List JobLeaseExtension) (j : JobId) (l : LeaseId)
    (row : Option JobRow) :
    extensionOutcome w now l (row.map (JobRow.afterHeartbeat w now secs exts j)) =
      extensionOutcome w now l row := by
  cases row with
  | none => rfl
  | some row =>
      unfold JobRow.afterHeartbeat
      by_cases hx : extendable w now exts j row = true
      · obtain ⟨e, _, _, hg⟩ := extendable_iff.mp hx
        have hcancel : cancelGuard w l (row.extended now secs) = cancelGuard w l row := rfl
        simp [hx, extensionOutcome, extendGuard_extended hsecs hg, hcancel]
      · simp [hx]

/-- **Heartbeat loop.** Only job rows change, each by its closed form; the lists of
the receipt are filters of the request over the first database. -/
theorem extendLeases_commits {w : WorkerId} {now : Time} {secs : Int} (hsecs : 0 < secs)
    {exts : List JobLeaseExtension} {db db' : Db} {receipt : HeartbeatReceipt}
    (h : (extendLeases w now secs exts).Commits db receipt db') :
    OnlyJobs db db' ∧ ReceiptOf w now exts db.job? receipt ∧
      ∀ j, db'.job? j = (db.job? j).map (JobRow.afterHeartbeat w now secs exts j) := by
  induction exts generalizing db receipt with
  | nil =>
      obtain ⟨rfl, rfl⟩ := Tx.pure_commits.mp h
      refine ⟨⟨rfl, rfl, rfl, rfl, rfl, rfl⟩, ⟨rfl, rfl, rfl, rfl⟩, fun j => ?_⟩
      cases db.job? j <;> simp [JobRow.afterHeartbeat, extendable]
  | cons e rest ih =>
      simp only [extendLeases, Tx.bind_commits, Tx.pure_commits] at h
      obtain ⟨outcome, db₁, hone, tail, _, hrest, hreceipt, rfl⟩ := h
      obtain ⟨honly, htail, hjobs⟩ := ih hrest
      have hfirst := extendLease_job? hone
      have houtcome := (extendLease_commits hone).1
      -- the tail was answered over `db₁`, which answers as `db` does
      have hsame : ∀ (l : LeaseId) (j : JobId), extensionOutcome w now l (db₁.job? j) =
          extensionOutcome w now l (db.job? j) := by
        intro l j
        rw [hfirst j]
        exact extensionOutcome_afterHeartbeat hsecs [e] j l _
      refine ⟨?_, ?_, fun j => ?_⟩
      · rcases (extendLease_commits hone).2 with ⟨rfl, _⟩ | ⟨row, hc, _, _, rfl⟩
        · exact honly
        · exact ⟨honly.1, honly.2, honly.3, honly.4, honly.5, honly.6⟩
      · obtain ⟨hat, hext, hcan, hrej⟩ := htail
        simp only [hsame] at hext hcan hrej
        rw [houtcome] at hreceipt
        subst hreceipt
        cases ho : extensionOutcome w now e.leaseId (db.job? e.jobId) <;>
          exact ⟨by simpa using hat, by simp [ho, hext], by simp [ho, hcan], by simp [ho, hrej]⟩
      · rw [hjobs j, hfirst j, Option.map_map]
        congr 1
        funext row
        simp only [Function.comp_apply, JobRow.afterHeartbeat]
        have hsplit : extendable w now (e :: rest) j row =
            (extendable w now [e] j row || extendable w now rest j row) := by
          simp [extendable]
        rw [hsplit]
        by_cases hx : extendable w now [e] j row = true
        · simp [hx]
        · simp [hx]

/-- **Heartbeat.** The worker row takes the report, live leases move, and nothing
else changes. -/
theorem recordHeartbeat_commits {heartbeat : WorkerHeartbeat} {leaseTtl : Int} {t : DbTime}
    {db db' : Db} {receipt : HeartbeatReceipt}
    (h : (recordHeartbeat heartbeat leaseTtl t).Commits db receipt db') :
    ∃ worker, ∃ hc : (worker.heartbeat heartbeat t.clock).Checks, ∃ db₁,
      0 < numSeconds leaseTtl ∧ db.worker? heartbeat.workerId = some worker ∧
      db₁ = { db with workers :=
        db.workers.put heartbeat.workerId ⟨worker.heartbeat heartbeat t.clock, hc⟩ } ∧
      (extendLeases heartbeat.workerId t.clock (numSeconds leaseTtl)
        heartbeat.leaseExtends).Commits db₁ receipt db' ∧
      OnlyJobs db₁ db' ∧
      ReceiptOf heartbeat.workerId t.clock heartbeat.leaseExtends db.job? receipt ∧
      ∀ j, db'.job? j = (db.job? j).map (JobRow.afterHeartbeat heartbeat.workerId t.clock
        (numSeconds leaseTtl) heartbeat.leaseExtends j) := by
  simp only [recordHeartbeat, validateRuntimes, Tx.bind_commits, Tx.require_commits,
    Tx.okOr_commits, lockWorker_commits] at h
  obtain ⟨_, _, ⟨httl, rfl⟩, _, _, ⟨_, rfl⟩, _, _, ⟨_, _, ⟨_, rfl⟩, _, rfl⟩, h⟩ := h
  obtain ⟨_, _, ⟨rfl, rfl⟩, worker, _, ⟨hworker, rfl⟩, _, _, ⟨_, rfl⟩, _, db₁, hup, hloop⟩ := h
  have hsecs : 0 < numSeconds leaseTtl := by simpa using httl
  rcases updateWorker_commits hup with ⟨_, rfl, hany⟩ | ⟨row, hc, hrow, _, _, rfl⟩
  · rw [hworker] at hany
    cases hany
  · obtain ⟨honly, hreceipt, hjobs⟩ := extendLeases_commits hsecs hloop
    exact ⟨row, hc, _, hsecs, hrow, rfl, hloop, honly, hreceipt, hjobs⟩

/-! ## Publisher -/

/-- **Outbox update.** -/
theorem updateOutbox_commits {key : String} {guard : OutboxRow → Bool}
    {set : OutboxRow → OutboxRow} {db db' : Db} {out : Option OutboxRow}
    (h : (updateOutbox key guard set).Commits db out db') :
    (out = none ∧ db = db' ∧ (db.message? key).any guard = false) ∨
    ∃ row, ∃ hc : (set row).Checks, db.message? key = some row ∧ guard row = true ∧
      out = some (set row) ∧ db' = { db with outbox := db.outbox.put key ⟨set row, hc⟩ } := by
  unfold Tx.Commits updateOutbox at h
  cases hk : db.message? key with
  | none =>
      rw [hk] at h
      cases h
      exact Or.inl ⟨rfl, rfl, rfl⟩
  | some row =>
      rw [hk] at h
      simp only at h
      split at h
      · next hg =>
          split at h
          · next hc => cases h; exact Or.inr ⟨row, hc, rfl, hg, rfl, rfl⟩
          · cases h
      · next hg => cases h; exact Or.inl ⟨rfl, rfl, by simpa using hg⟩

/-- What no publisher call changes in a row: its identity, its channel, its payload,
and the fact that it was published. -/
structure OutboxRow.Keeps (old new : OutboxRow) : Prop where
  id : new.id = old.id
  subject : new.subject = old.subject
  payload : new.payload = old.payload
  published : old.publishedAt.isSome → new.publishedAt = old.publishedAt

theorem OutboxRow.Keeps.refl (row : OutboxRow) : row.Keeps row := ⟨rfl, rfl, rfl, fun _ => rfl⟩

theorem OutboxRow.Keeps.trans {a b c : OutboxRow} (h : a.Keeps b) (k : b.Keeps c) : a.Keeps c := by
  refine ⟨k.1.trans h.1, k.2.trans h.2, k.3.trans h.3, fun hp => ?_⟩
  rw [k.4 (by rw [h.4 hp]; exact hp), h.4 hp]

/-- Rows are neither added nor removed, and each keeps identity, channel, payload
and publication. Only rows with an identity in `marks` are published. -/
structure OutboxKept (marks : Nat → Prop) (db db' : Db) : Prop where
  only : OnlyOutbox db db'
  next : db'.nextOutboxId = db.nextOutboxId
  rows : ∀ key, (db.message? key = none ∧ db'.message? key = none) ∨
    ∃ row row', db.message? key = some row ∧ db'.message? key = some row' ∧ row.Keeps row' ∧
      (row'.publishedAt.isSome → row.publishedAt.isSome ∨ marks row.id)

theorem OutboxKept.refl (marks : Nat → Prop) (db : Db) : OutboxKept marks db db := by
  refine ⟨.refl db, rfl, fun key => ?_⟩
  cases hk : db.message? key with
  | none => exact Or.inl ⟨rfl, rfl⟩
  | some row => exact Or.inr ⟨row, row, rfl, rfl, .refl row, Or.inl⟩

theorem OutboxKept.trans {marks : Nat → Prop} {a b c : Db} (h : OutboxKept marks a b)
    (k : OutboxKept marks b c) : OutboxKept marks a c := by
  refine ⟨h.only.trans k.only, k.next.trans h.next, fun key => ?_⟩
  rcases h.rows key with ⟨ha, hb⟩ | ⟨row, row', ha, hb, hkeep, hpub⟩
  · rcases k.rows key with ⟨_, hc⟩ | ⟨_, _, hb', _⟩
    · exact Or.inl ⟨ha, hc⟩
    · rw [hb] at hb'; cases hb'
  · rcases k.rows key with ⟨hb', _⟩ | ⟨row₁, row₂, hb', hc, hkeep', hpub'⟩
    · rw [hb] at hb'; cases hb'
    · obtain rfl : row' = row₁ := Option.some.inj (hb.symm.trans hb')
      refine Or.inr ⟨row, row₂, ha, hc, hkeep.trans hkeep', fun hp => ?_⟩
      rcases hpub' hp with hold | hmark
      · exact hpub hold
      · exact Or.inr (hkeep.id ▸ hmark)

/-- A row of the kept outbox was there before. -/
theorem OutboxKept.before {marks : Nat → Prop} {db db' : Db} (h : OutboxKept marks db db')
    {key : String} {row' : OutboxRow} (hr : db'.message? key = some row') :
    ∃ row, db.message? key = some row ∧ row.Keeps row' ∧
      (row'.publishedAt.isSome → row.publishedAt.isSome ∨ marks row.id) := by
  rcases h.rows key with ⟨_, hn⟩ | ⟨row, r, ha, hb, hkeep⟩
  · rw [hn] at hr; cases hr
  · obtain rfl := Option.some.inj (hb.symm.trans hr)
    exact ⟨row, ha, hkeep⟩

/-- A row is still there in the kept outbox. -/
theorem OutboxKept.after {marks : Nat → Prop} {db db' : Db} (h : OutboxKept marks db db')
    {key : String} {row : OutboxRow} (hr : db.message? key = some row) :
    ∃ row', db'.message? key = some row' ∧ row.Keeps row' := by
  rcases h.rows key with ⟨hn, _⟩ | ⟨r, row', ha, hb, hkeep, _⟩
  · rw [hn] at hr; cases hr
  · obtain rfl := Option.some.inj (ha.symm.trans hr)
    exact ⟨row', hb, hkeep⟩

/-- Kept rows keep their identities apart. -/
theorem OutboxKept.ids {marks : Nat → Prop} {db db' : Db} (h : OutboxKept marks db db')
    (hids : OutboxIds db) : OutboxIds db' := by
  intro key row' hr
  obtain ⟨row, hr₀, hkeep, _⟩ := h.before hr
  refine ⟨by rw [h.next, hkeep.id]; exact (hids key row hr₀).1, fun k r' hk hsame => ?_⟩
  obtain ⟨r, hk₀, hkeep', _⟩ := h.before hk
  exact (hids key row hr₀).2 k r hk₀ (by rw [← hkeep'.id, hsame, hkeep.id])

/-- An update whose SET list keeps each row it accepts keeps the outbox. -/
theorem updateOutbox_kept {marks : Nat → Prop} {key : String} {guard : OutboxRow → Bool}
    {set : OutboxRow → OutboxRow} {db db' : Db} {out : Option OutboxRow}
    (h : (updateOutbox key guard set).Commits db out db')
    (hset : ∀ row, db.message? key = some row → guard row = true → row.Keeps (set row) ∧
      ((set row).publishedAt.isSome → row.publishedAt.isSome ∨ marks row.id)) :
    OutboxKept marks db db' := by
  rcases updateOutbox_commits h with ⟨_, rfl, _⟩ | ⟨row, hc, hrow, hg, _, rfl⟩
  · exact .refl _ _
  · refine ⟨⟨rfl, rfl, rfl, rfl, rfl⟩, rfl, fun key' => ?_⟩
    have hget := Db.message?_putMessage db key (set row) hc db.nextOutboxId key'
    by_cases hk : key' = key
    · subst hk
      exact Or.inr ⟨row, set row, hrow, by rw [hget, if_pos rfl], hset row hrow hg⟩
    · rw [if_neg hk] at hget
      rcases (OutboxKept.refl marks db).rows key' with ⟨ha, _⟩ | ⟨r, r', ha, hb, hkeep⟩
      · exact Or.inl ⟨ha, hget.trans ha⟩
      · exact Or.inr ⟨r, r', ha, hget.trans hb, hkeep⟩

/-- A message copies a row of the outbox, as far as no publisher changes it. -/
def OutboxMessage.Copies (db : Db) (m : OutboxMessage) : Prop :=
  ∃ row, db.message? m.eventKey = some row ∧ m.id = row.id ∧ m.subject = row.subject ∧
    m.payload = row.payload

theorem OutboxMessage.Copies.kept {marks : Nat → Prop} {db db' : Db} {m : OutboxMessage}
    (h : m.Copies db) (k : OutboxKept marks db db') : m.Copies db' := by
  obtain ⟨row, hrow, hid, hsub, hpay⟩ := h
  obtain ⟨row', hrow', hkeep⟩ := k.after hrow
  exact ⟨row', hrow', by rw [hid, hkeep.id], by rw [hsub, hkeep.subject],
    by rw [hpay, hkeep.payload]⟩

/-- Locking rows publishes nothing and returns copies of the locked rows. -/
theorem lockOutboxRows_kept {dispatcher : String} {clock : Time} {keys : List String}
    {db db' : Db} {out : List OutboxMessage}
    (h : (lockOutboxRows dispatcher clock keys).Commits db out db') :
    OutboxKept (fun _ => False) db db' ∧ ∀ m ∈ out, m.eventKey ∈ keys ∧ m.Copies db' := by
  induction keys generalizing db out with
  | nil =>
      obtain ⟨rfl, rfl⟩ := Tx.pure_commits.mp h
      exact ⟨.refl _ _, fun m hm => by cases hm⟩
  | cons key rest ih =>
      simp only [lockOutboxRows, Tx.bind_commits, Tx.pure_commits] at h
      obtain ⟨locked, db₁, hup, messages, _, hrest, rfl, rfl⟩ := h
      obtain ⟨hkept, hcopies⟩ := ih hrest
      have hfirst : OutboxKept (fun _ => False) db db₁ :=
        updateOutbox_kept hup fun _ _ _ => ⟨⟨rfl, rfl, rfl, fun _ => rfl⟩, Or.inl⟩
      refine ⟨hfirst.trans hkept, fun m hm => ?_⟩
      rcases List.mem_append.mp hm with hm | hm
      · rcases updateOutbox_commits hup with ⟨rfl, _⟩ | ⟨row, hc, _, _, rfl, rfl⟩
        · cases hm
        · obtain rfl : m = (row.lock dispatcher clock).intoMessage key := by simpa using hm
          refine ⟨List.mem_cons_self, OutboxMessage.Copies.kept ?_ hkept⟩
          refine ⟨row.lock dispatcher clock, ?_, rfl, rfl, rfl⟩
          exact Table.row?_put_self _ _ _ _
      · obtain ⟨hkey, hcopy⟩ := hcopies m hm
        exact ⟨List.mem_cons_of_mem _ hkey, hcopy⟩

/-- A leased key is the key of a row of the channel. -/
theorem Db.mem_leaseCandidates {db : Db} {subject : String} {micros : Int} {clock : Time}
    {limit : Nat} {skip : String → Bool} {key : String}
    (h : key ∈ db.leaseCandidates subject micros clock limit skip) :
    ∃ row, db.message? key = some row ∧ row.subject = subject := by
  obtain ⟨⟨k, row⟩, hmem, rfl⟩ := List.mem_map.mp h
  have hready := (List.mem_insertionSort _).mp (List.mem_of_mem_take hmem)
  obtain ⟨hrow, hcond⟩ := List.mem_filter.mp hready
  simp only [OutboxRow.leasable, Bool.and_eq_true, decide_eq_true_eq] at hcond
  refine ⟨row.val, ?_, hcond.1.1.1.2⟩
  unfold Db.message? Table.row?
  rw [(Table.mem_rows_iff _ _ _).mp hrow]
  rfl

/-- **Lease.** Leasing rows for publication publishes nothing, and returns copies of
rows of the channel. -/
theorem leaseOutboxMessagesForSubject_kept {dispatcher subject : String} {timeout : Int}
    {limit : Nat} {skip : String → Bool} {t : DbTime} {db db' : Db} {out : List OutboxMessage}
    (h : (leaseOutboxMessagesForSubject dispatcher subject timeout limit skip t).Commits
      db out db') :
    OutboxKept (fun _ => False) db db' ∧ ∀ m ∈ out, m.Copies db' ∧ m.subject = subject := by
  simp only [leaseOutboxMessagesForSubject, validateDispatcherId, validateSubject, checkedLimit,
    Tx.bind_commits, Tx.require_commits, Tx.read_commits] at h
  obtain ⟨_, _, ⟨_, rfl⟩, _, _, ⟨_, rfl⟩, _, _, ⟨_, rfl⟩, _, _, ⟨_, rfl⟩, h⟩ := h
  obtain ⟨keys, _, ⟨hkeys, rfl⟩, h⟩ := h
  obtain ⟨hkept, hout⟩ := lockOutboxRows_kept h
  refine ⟨hkept, fun m hm => ?_⟩
  obtain ⟨hkey, row', hrow', hid, hsub, hpay⟩ := hout m hm
  refine ⟨⟨row', hrow', hid, hsub, hpay⟩, ?_⟩
  obtain ⟨row, hrow, hchannel⟩ := Db.mem_leaseCandidates (hkeys ▸ hkey)
  obtain ⟨row₁, hrow₁, hkeep, _⟩ := hkept.before hrow'
  obtain rfl : row = row₁ := Option.some.inj (hrow.symm.trans hrow₁)
  rw [hsub, hkeep.subject, hchannel]

/-- The key found for an identity is the key of a row that has it. -/
theorem Db.messageKey?_row {db : Db} {id : Nat} {key : String} {row : OutboxRow}
    (h : db.messageKey? id = some key) (hr : db.message? key = some row) : row.id = id := by
  obtain ⟨⟨k, r⟩, hfind, rfl⟩ := Option.map_eq_some_iff.mp h
  have hid := List.find?_some hfind
  have hmem := (Table.mem_rows_iff _ _ _).mp (List.mem_of_find?_eq_some hfind)
  unfold Db.message? Table.row? at hr
  rw [hmem] at hr
  obtain rfl := Option.some.inj hr
  simpa using hid

/-- **Mark.** The row leased by this publisher is published, and stays so. -/
theorem markOutboxPublished_kept {id : Nat} {dispatcher : String} {t : DbTime} {db db' : Db}
    {out : OutboxMessage} (h : (markOutboxPublished id dispatcher t).Commits db out db') :
    OutboxKept (· = id) db db' := by
  simp only [markOutboxPublished, validateDispatcherId, Tx.bind_commits, Tx.require_commits,
    Tx.read_commits, Tx.okOr_commits, Tx.pure_commits] at h
  obtain ⟨_, _, ⟨_, rfl⟩, _, _, ⟨rfl, rfl⟩, key, _, ⟨hkey, rfl⟩, _, _, hup, _, _, ⟨_, rfl⟩, _,
    rfl⟩ := h
  refine updateOutbox_kept hup fun row hrow hg => ⟨⟨rfl, rfl, rfl, fun hp => ?_⟩, fun _ => ?_⟩
  · simp only [Bool.and_eq_true, Option.isNone_iff_eq_none] at hg
    rw [hg.1] at hp
    cases hp
  · exact Or.inr (Db.messageKey?_row hkey hrow)

/-- **Retry.** A failed publication publishes nothing. -/
theorem retryOutboxMessage_kept {id : Nat} {dispatcher : String} {availableAt : Time}
    {lastError : String} {db db' : Db} {out : OutboxMessage}
    (h : (retryOutboxMessage id dispatcher availableAt lastError).Commits db out db') :
    OutboxKept (fun _ => False) db db' := by
  simp only [retryOutboxMessage, validateDispatcherId, Tx.bind_commits, Tx.require_commits,
    Tx.read_commits, Tx.okOr_commits, Tx.pure_commits] at h
  obtain ⟨_, _, ⟨_, rfl⟩, _, _, ⟨_, rfl⟩, _, _, ⟨_, rfl⟩, h⟩ := h
  obtain ⟨key, _, ⟨_, rfl⟩, _, _, hup, _, _, ⟨_, rfl⟩, _, rfl⟩ := h
  exact updateOutbox_kept hup fun _ _ _ => ⟨⟨rfl, rfl, rfl, fun _ => rfl⟩, Or.inl⟩

end RunAnywhere
