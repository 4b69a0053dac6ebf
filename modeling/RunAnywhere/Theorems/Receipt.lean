import RunAnywhere.Theorems.Heartbeat

/-!
# Heartbeat receipts

A heartbeat processes its list of lease extensions one UPDATE at a time, after it has
rewritten the worker's row. The loop lemmas say that every extension is answered as over
the database the heartbeat started from; what follows of them here is that a receipt
accounts for the whole request (`ReceiptOf.partition`) and that the heartbeat moves nothing
but the extended leases and its own worker's row (`heartbeat_partitions`).
-/

namespace RunAnywhere

open Logic

/-- A list is the union of the answers it was given. -/
theorem perm_by_outcome {β : Type} (outcome : β → ExtensionOutcome) (l : List β) :
    (l.filter (outcome · = .extended) ++ l.filter (outcome · = .cancelRequested) ++
      l.filter (outcome · = .rejected)).Perm l := by
  induction l with
  | nil => simp
  | cons x rest ih =>
      cases hx : outcome x with
      | extended =>
          simp only [List.filter_cons, hx, decide_true, if_true, decide_false, reduceCtorEq,
            Bool.false_eq_true, if_false, List.cons_append]
          exact ih.cons x
      | cancelRequested =>
          simp only [List.filter_cons, hx, decide_true, if_true, decide_false, reduceCtorEq,
            Bool.false_eq_true, if_false, List.append_assoc, List.cons_append]
          rw [List.append_assoc] at ih
          exact List.perm_middle.trans (ih.cons x)
      | rejected =>
          simp only [List.filter_cons, hx, decide_true, if_true, decide_false, reduceCtorEq,
            Bool.false_eq_true, if_false]
          exact List.perm_middle.trans (ih.cons x)

namespace ReceiptOf

variable {w : WorkerId} {now : Time} {exts : List JobLeaseExtension}
  {job? : JobId → Option JobRow} {receipt : HeartbeatReceipt}

/-- **Partition.** Every requested extension is answered once. -/
theorem partition (h : ReceiptOf w now exts job? receipt) :
    (receipt.extended ++ receipt.cancelRequested ++ receipt.rejected).Perm exts := by
  rw [h.extended, h.cancelRequested, h.rejected]
  exact perm_by_outcome (fun e => extensionOutcome w now e.leaseId (job? e.jobId)) exts

/-- An extended lease was a live lease of the worker, without an outcome. -/
theorem extended_iff (h : ReceiptOf w now exts job? receipt) {e : JobLeaseExtension} :
    e ∈ receipt.extended ↔ e ∈ exts ∧ ∃ row, job? e.jobId = some row ∧
      extendGuard w e.leaseId now row = true := by
  rw [h.extended, List.mem_filter, decide_eq_true_eq]
  refine and_congr_right fun _ => ?_
  unfold extensionOutcome
  cases hrow : job? e.jobId with
  | none => simp
  | some row =>
      by_cases hguard : extendGuard w e.leaseId now row = true
      · simp [hguard]
      · by_cases hcancel : cancelGuard w e.leaseId row = true
        · simp [hguard, hcancel]
        · simp [hguard, hcancel]

/-- An extension that is answered with a cancellation names a lease of the worker. -/
theorem cancelRequested_guard (h : ReceiptOf w now exts job? receipt) {e : JobLeaseExtension}
    (he : e ∈ receipt.cancelRequested) :
    ∃ row, job? e.jobId = some row ∧ cancelGuard w e.leaseId row = true := by
  rw [h.cancelRequested, List.mem_filter, decide_eq_true_eq] at he
  have hout := he.2
  unfold extensionOutcome at hout
  split at hout
  · cases hout
  · split at hout
    · next hany =>
        cases hrow : job? e.jobId with
        | none =>
            rw [hrow] at hany
            cases hany
        | some row =>
            rw [hrow] at hany
            exact ⟨row, rfl, hany⟩
    · cases hout

end ReceiptOf

theorem cancelGuard_iff {w : WorkerId} {l : LeaseId} {row : JobRow} :
    cancelGuard w l row = true ↔ row.workerId = some w ∧ row.leaseId = some l ∧
      row.pendingOutcome = some .cancelled ∧ row.state.isTerminal = false := by
  simp [cancelGuard, JobRow.heldBy_iff, and_assoc]

/-- What a heartbeat that succeeded did. -/
structure HeartbeatEffect (db : Db) (heartbeat : WorkerHeartbeat) (ttl : Int)
    (receipt : HeartbeatReceipt) (db' : Db) : Prop where
  /-- the three lists together are the request -/
  partition : (receipt.extended ++ receipt.cancelRequested ++ receipt.rejected).Perm
    heartbeat.leaseExtends
  /-- each list keeps the order of the request -/
  inOrder : receipt.extended.Sublist heartbeat.leaseExtends ∧
    receipt.cancelRequested.Sublist heartbeat.leaseExtends ∧
    receipt.rejected.Sublist heartbeat.leaseExtends
  /-- an extended lease is the worker's, and its row differs in the expiry and in the time
  of the extension only -/
  extended : ∀ e ∈ receipt.extended, ∃ row, db.job? e.jobId = some row ∧
    row.workerId = some heartbeat.workerId ∧ row.leaseId = some e.leaseId ∧
    db'.job? e.jobId = some { row with
      leaseExpiresAt := some (receipt.recordedAt + numSeconds ttl * 1000000)
      lastLeaseExtendedAt := some receipt.recordedAt }
  /-- no other row of a job differs -/
  otherJobs : ∀ j, (∀ l, ⟨j, l⟩ ∉ receipt.extended) → db'.job? j = db.job? j
  cancelRequested : ∀ e ∈ receipt.cancelRequested, ∃ row, db.job? e.jobId = some row ∧
    row.workerId = some heartbeat.workerId ∧ row.leaseId = some e.leaseId ∧
    row.state.isTerminal = false ∧ row.pendingOutcome = some .cancelled
  /-- reservations and states of workers stay -/
  workers : ∀ w, (db'.worker? w).map (fun row => (row.activeJobs, row.state)) =
    (db.worker? w).map fun row => (row.activeJobs, row.state)
  otherWorkers : ∀ w, w ≠ heartbeat.workerId → db'.worker? w = db.worker? w
  capacity : ∃ row, db'.worker? heartbeat.workerId = some row ∧
    row.capacity = heartbeat.capacity ∧ row.activeJobs ≤ row.capacity
  /-- no other table changes -/
  otherTables : db'.catalog = db.catalog ∧ db'.events = db.events ∧ db'.outbox = db.outbox

/-- **One heartbeat.** -/
theorem recordHeartbeat_effect {db db' : Db} {heartbeat : WorkerHeartbeat} {ttl : Int} {t : DbTime}
    {receipt : HeartbeatReceipt} (h : (recordHeartbeat heartbeat ttl t).Commits db receipt db') :
    HeartbeatEffect db heartbeat ttl receipt db' := by
  obtain ⟨worker, hchecks, db₁, _, hworker, rfl, _, honly, hreceipt, hjobs⟩ :=
    recordHeartbeat_commits h
  have hworkers : ∀ w, db'.worker? w = if w = heartbeat.workerId then
      some (worker.heartbeat heartbeat t.clock) else db.worker? w := by
    intro w
    unfold Db.worker?
    rw [honly.workers]
    exact Table.row?_put _ _ _ _ _
  constructor
  · exact hreceipt.partition
  · rw [hreceipt.extended, hreceipt.cancelRequested, hreceipt.rejected]
    exact ⟨List.filter_sublist, List.filter_sublist, List.filter_sublist⟩
  · intro e he
    obtain ⟨hlisted, row, hrow, hguard⟩ := hreceipt.extended_iff.mp he
    obtain ⟨hw, hl, _⟩ := extendGuard_iff.mp hguard
    refine ⟨row, hrow, hw, hl, ?_⟩
    have hx : extendable heartbeat.workerId t.clock heartbeat.leaseExtends e.jobId row = true :=
      extendable_iff.mpr ⟨e, hlisted, rfl, hguard⟩
    rw [hjobs, hrow, hreceipt.recordedAt]
    simp [JobRow.afterHeartbeat, hx, JobRow.extended]
  · intro j hno
    rw [hjobs j]
    cases hrow : db.job? j with
    | none => rfl
    | some row =>
        have hx : ¬ extendable heartbeat.workerId t.clock heartbeat.leaseExtends j row = true := by
          intro hx
          obtain ⟨e, hlisted, rfl, hguard⟩ := extendable_iff.mp hx
          exact hno e.leaseId (hreceipt.extended_iff.mpr ⟨hlisted, row, hrow, hguard⟩)
        simp [JobRow.afterHeartbeat, hx]
  · intro e he
    obtain ⟨row, hrow, hguard⟩ := hreceipt.cancelRequested_guard he
    obtain ⟨hw, hl, hpending, hlive⟩ := cancelGuard_iff.mp hguard
    exact ⟨row, hrow, hw, hl, hlive, hpending⟩
  · intro w
    rw [hworkers w]
    split
    · next hw =>
        rw [hw, hworker]
        rfl
    · rfl
  · intro w hw
    rw [hworkers w, if_neg hw]
  · refine ⟨_, ?_, rfl, hchecks.withinCapacity⟩
    rw [hworkers, if_pos rfl]
  · exact ⟨honly.catalog, honly.events, honly.outbox⟩

/-- **Receipts.** In every state and for every heartbeat, whatever it lists: if the call
succeeds, its receipt accounts for the request and nothing else moves (`HeartbeatEffect`),
and with a time to live of whole seconds an extended lease runs for that long from the
recorded time; if it fails, nothing changes. -/
theorem heartbeat_partitions (db : Db) (heartbeat : WorkerHeartbeat) (ttl : Int) (t : DbTime) :
    (∀ receipt db', (recordHeartbeat heartbeat ttl t).exec db = (.ok receipt, db') →
      HeartbeatEffect db heartbeat ttl receipt db' ∧
      (WholeSeconds ttl → ∀ e ∈ receipt.extended, ∃ row, db'.job? e.jobId = some row ∧
        row.leaseExpiresAt = some (receipt.recordedAt + ttl))) ∧
    ∀ error db', (recordHeartbeat heartbeat ttl t).exec db = (.error error, db') → db' = db := by
  constructor
  · intro receipt db' hexec
    have heffect := recordHeartbeat_effect (Tx.commits_of_exec hexec)
    refine ⟨heffect, ?_⟩
    intro hwhole e he
    obtain ⟨row, _, _, _, hafter⟩ := heffect.extended e he
    have hseconds := (numSeconds_eq_iff ttl).mpr hwhole
    rw [hseconds] at hafter
    exact ⟨_, hafter, rfl⟩
  · intro error db' hexec
    rcases Tx.exec_cases (recordHeartbeat heartbeat ttl t) db with ⟨_, _, _, hok⟩ | ⟨_, _, herr⟩
    · rw [hexec] at hok
      cases (Prod.mk.inj hok).1
    · rw [hexec] at herr
      exact (Prod.mk.inj herr).2

/-- The owner of the running job lists its lease, a foreign lease and its lease again. -/
def Sample.mixedBeat : WorkerHeartbeat :=
  { Sample.beat with leaseExtends :=
      [⟨Sample.job, Sample.lease⟩, ⟨Sample.job, Sample.lease'⟩, ⟨Sample.job, Sample.lease⟩] }

/-- Its receipt. -/
def Sample.mixedReceipt : HeartbeatReceipt :=
  ⟨9000000, [⟨Sample.job, Sample.lease⟩, ⟨Sample.job, Sample.lease⟩], [],
    [⟨Sample.job, Sample.lease'⟩]⟩

/-- The heartbeat extends the owner's lease and rejects the foreign one. -/
theorem heartbeat_partitions_mixed :
    ∃ db', HeartbeatEffect (Sample.after Sample.running) Sample.mixedBeat 75000000
      Sample.mixedReceipt db' := by
  have hanswer : ((recordHeartbeat Sample.mixedBeat 75000000 (Sample.at_ 9)).exec
      (Sample.after Sample.running)).1 = .ok Sample.mixedReceipt := by
    decide +kernel
  generalize hexec : (recordHeartbeat Sample.mixedBeat 75000000 (Sample.at_ 9)).exec
    (Sample.after Sample.running) = out at hanswer
  obtain ⟨answer, db'⟩ := out
  obtain rfl : answer = .ok Sample.mixedReceipt := hanswer
  have heffect := (heartbeat_partitions (Sample.after Sample.running) Sample.mixedBeat 75000000
    (Sample.at_ 9)).1 Sample.mixedReceipt db' hexec
  exact ⟨db', heffect.1⟩

end RunAnywhere
