import RunAnywhere.Scheduler.Halting

/-!
# A batch of jobs that are not ready

`finalize_ready_jobs` takes a batch of candidates in SQL and decides in Rust which of them are
ready: without a lease, and without a runtime the inventory left. A candidate that is not
ready takes a place of the batch, in every pass, as long as it is not ready. So a ready job is
finalized when fewer than a batch of candidates, ready or not, are ahead of it
(`ready_jobs_finalized`); behind a batch of leased ones it waits (`ready_job_starved`).

A pass that ends a cancelled job it recovered may also wait for its own guard, and then leaves
the ready jobs behind it as they are. It comes back just when it settles no acknowledgement.
-/

namespace RunAnywhere

open Logic Prog

/-- The pass may finalize the job: it is on the finalizer path without a lease, and keeps no
runtime. -/
def Db.Ready (db : Db) (kept : List JobId) (j : JobId) : Prop := db.Finalizable j ∧ j ∉ kept

/-- The ready jobs. -/
def Db.readyJobs (db : Db) (kept : List JobId) : List JobId :=
  (db.candidates.filter fun x => x.2.leaseId.isNone && !kept.contains x.1).map Prod.fst

theorem Db.mem_readyJobs {db : Db} {kept : List JobId} {j : JobId} :
    j ∈ db.readyJobs kept ↔ db.Ready kept j := by
  unfold Db.readyJobs
  rw [List.mem_map]
  constructor
  · rintro ⟨⟨j', row⟩, hmem, rfl⟩
    obtain ⟨hcandidate, hfree⟩ := List.mem_filter.mp hmem
    obtain ⟨hrow, hstate, hpending⟩ := Db.mem_candidates.mp hcandidate
    simp only [Bool.and_eq_true, Option.isNone_iff_eq_none, Bool.not_eq_true',
      List.contains_eq_mem, decide_eq_false_iff_not] at hfree
    exact ⟨⟨row, hrow, hstate, hfree.1, hpending⟩, hfree.2⟩
  · rintro ⟨⟨row, hrow, hready⟩, hfree⟩
    refine ⟨(j, row), List.mem_filter.mpr ⟨hready.candidate hrow, ?_⟩, rfl⟩
    simp [hready.2.1, hfree]

/-- What a pass owes the jobs that are ready when it comes to them: it ends one of them, and
all of them when they fit a batch. -/
structure Db.Served (db : Db) (kept : List JobId) (db' : Db) : Prop where
  one : (∃ j, db.Ready kept j) → ∃ j, db.Ready kept j ∧ db'.Ended j
  all : (db.readyJobs kept).length ≤ Reconciler.batch → ∀ j, db.Ready kept j → db'.Ended j

/-- Fewer than a batch of candidates are ahead of one ready job, and of each when they fit a
batch. -/
structure Db.Uncrowded (db : Db) (kept : List JobId) : Prop where
  one : (∃ j, db.Ready kept j) → ∃ j row, db.job? j = some row ∧ db.Ready kept j ∧
    db.ahead j row < Reconciler.batch
  all : (db.readyJobs kept).length ≤ Reconciler.batch → ∀ j row, db.job? j = some row →
    db.Ready kept j → db.ahead j row < Reconciler.batch

/-- A pass that is done serves the ready jobs just when they are not crowded out. -/
theorem served_iff {cfg : Config} {rounds : Nat} {s s' : Cluster} {steps : List Step}
    {kept : List JobId} {r : Except ReconcilerError Unit}
    (h : (Reconciler.conclude cfg rounds (.ok kept)).Trace (Unhindered cfg) s steps s' (.done r))
    (hdlq : ∀ e, r ≠ .error (.dlq e)) : s.db.Served kept s'.db ↔ s.db.Uncrowded kept := by
  -- a ready job ends just when its place is in the batch
  have hplace {j : JobId} {row : JobRow} (hrow : s.db.job? j = some row)
      (hready : s.db.Ready kept j) : s'.db.Ended j ↔ s.db.ahead j row < Reconciler.batch := by
    obtain ⟨⟨row', hrow', hfinal⟩, hfree⟩ := hready
    obtain rfl := Option.some.inj (hrow.symm.trans hrow')
    exact conclude_alone h hdlq hrow hfinal hfree
  constructor
  · intro hserved
    refine ⟨fun hex => ?_, fun hfit j row hrow hready => ?_⟩
    · obtain ⟨j, hready, hended⟩ := hserved.one hex
      obtain ⟨row, hrow, _⟩ := hready.1
      exact ⟨j, row, hrow, hready, (hplace hrow hready).mp hended⟩
    · exact (hplace hrow hready).mp (hserved.all hfit j hready)
  · intro hroom
    refine ⟨fun hex => ?_, fun hfit j hready => ?_⟩
    · obtain ⟨j, row, hrow, hready, hfew⟩ := hroom.one hex
      exact ⟨j, hready, (hplace hrow hready).mpr hfew⟩
    · obtain ⟨row, hrow, _⟩ := hready.1
      exact (hplace hrow hready).mpr (hroom.all hfit j row hrow hready)

/-- A pass alone that is done has settled nothing. -/
theorem unheld_of_done {cfg : Config} {rounds : Nat} {s s' : Cluster} {steps : List Step}
    {runtimes : Except String (List JobId)} {r : Except ReconcilerError Unit}
    (h : (Reconciler.conclude cfg rounds runtimes).Trace (Unhindered cfg) s steps s' (.done r)) :
    (Reconciler.conclude cfg rounds runtimes).Trace (Unheld cfg) s steps s' (.done r) :=
  h.mono_steps (φ := fun step => ¬ Step.Settles step)
    (fun _ _ _ _ hunsettled hx => ⟨hx, (exec_unsettled hx.1).mpr hunsettled⟩)
    (unsettling_rules.conclude runtimes s steps s' r h)

/-- **Starvation.** A pass that runs alone and whose calls succeed comes to the finalizable jobs
in some database, with the jobs that keep a runtime. From there it comes back and serves the
ready jobs just when they are not crowded out of its batch and it settles no acknowledgement of
a cancelled job: each finds a binding of its job, and none that it confirms. -/
theorem ready_jobs_finalized {cfg : Config} {rounds : Nat} {s s' : Cluster} {steps : List Step}
    {q : TaskOr ReconcilerError Unit}
    (h : (Reconciler.runOnce cfg (rounds + 1)).Trace (Unhindered cfg) s steps s' q)
    (hhalted : Halted q) (hdlq : ∀ e, q ≠ .done (.error (.dlq e))) :
    ∃ kept before s₁ after,
      (Reconciler.survey cfg).Trace (Unhindered cfg) s before s₁ (.done (.ok (.ok kept))) ∧
      (Reconciler.conclude cfg (rounds + 1) (.ok kept)).Trace (Unhindered cfg) s₁ after s' q ∧
      steps = before ++ after ∧
      (((∃ r, q = .done r) ∧ s₁.db.Served kept s'.db) ↔ (s₁.db.Uncrowded kept ∧
        (Reconciler.conclude cfg (rounds + 1) (.ok kept)).Trace (Unheld cfg) s₁ after s' q)) := by
  rw [runOnce_eq] at h
  have hends {r : Except ReconcilerError (Except String (List JobId))} {s₁ : Cluster}
      {before : List Step}
      (h : (Reconciler.survey cfg).Trace (Unhindered cfg) s before s₁ (.done r)) :
      ∃ kept, r = .ok (.ok kept) :=
    h.ends (Q := fun r => ∃ kept, r = .ok (.ok kept)) (survey_ends cfg) fun _ _ _ _ hexec => hexec.2
  rcases halted_cases hhalted with ⟨r, rfl⟩ | ⟨k, rfl⟩
  · -- the pass came back
    rcases h.andThen_done with
      ⟨e, _, herror⟩ | ⟨runtimes, s₁, before, after, hbefore, hafter, hsteps⟩
    · obtain ⟨kept, hr⟩ := hends herror
      cases hr
    · obtain ⟨kept, hr⟩ := hends hbefore
      obtain rfl := Except.ok.inj hr
      have hserved := served_iff hafter fun e he => hdlq e (he ▸ rfl)
      refine ⟨kept, before, s₁, after, hbefore, hafter, hsteps, ?_⟩
      constructor
      · rintro ⟨_, hs⟩
        exact ⟨hserved.mp hs, unheld_of_done hafter⟩
      · rintro ⟨hroom, _⟩
        exact ⟨⟨r, rfl⟩, hserved.mpr hroom⟩
  · -- it stopped, and not before the inventory
    obtain ⟨runtimes, s₁, before, after, hbefore, hafter, hsteps⟩ := h.skip (survey_steady cfg) id
    obtain ⟨kept, hr⟩ := hends hbefore
    obtain rfl := Except.ok.inj hr
    refine ⟨kept, before, s₁, after, hbefore, hafter, hsteps, ?_⟩
    constructor
    · rintro ⟨⟨r, hr⟩, _⟩
      cases hr
    · rintro ⟨_, hunheld⟩
      exact (conclude_goes_on s₁ after s' k hunheld).elim

/-- The answer of a machine to an action that succeeds, at second `t`; the identifiers drawn
are fresh. -/
def Sample.succeed (t : Int) (s : Cluster) (x : Action) : Option (x.Res × Cluster) :=
  let c : Choice := { time := at_ t, clock := t * 1000000,
                      draw := ⟨event s.db.events.length, lease', fun _ => false⟩ }
  (x.perform s c).bind fun r => if x.succeeds r.1 then some r else none

theorem Sample.succeed_unhindered {cfg : Config} {t : Int} {s s' : Cluster} {x : Action}
    {r : x.Res} (h : Sample.succeed t s x = some (r, s')) : Unhindered cfg s x r s' := by
  obtain ⟨a, hperform, hsome⟩ := Option.bind_eq_some_iff.mp h
  split at hsome
  · next hsucceeds =>
      obtain rfl := Option.some.inj hsome
      exact ⟨⟨_, hperform⟩, hsucceeds⟩
  · cases hsome

/-- A pass over the job that was cancelled in the queue. -/
def Sample.pass : Option (Cluster × Except ReconcilerError Unit) :=
  (Sample.pool? (Sample.config 3) [Sample.api Sample.create 2,
    Sample.api (.requestJobCancellation Sample.job (Sample.event 1)) 3]).bind fun p =>
      Prog.eval (Sample.succeed 4) (Reconciler.runOnce (Sample.config 3) 3) p.state

theorem ready_jobs_finalized_cancelled : ∃ s steps s',
    (Reconciler.runOnce (Sample.config 3) 3).Trace (Unhindered (Sample.config 3)) s steps s'
      (.done (.ok ())) ∧ s'.db.Ended Sample.job ∧ ∃ kept before s₁ after,
    (Reconciler.survey (Sample.config 3)).Trace (Unhindered (Sample.config 3)) s before s₁
      (.done (.ok (.ok kept))) ∧
    (Reconciler.conclude (Sample.config 3) 3 (.ok kept)).Trace (Unhindered (Sample.config 3)) s₁
      after s' (.done (.ok ())) ∧
    steps = before ++ after ∧ (s₁.db.Served kept s'.db ↔ (s₁.db.Uncrowded kept ∧
      (Reconciler.conclude (Sample.config 3) 3 (.ok kept)).Trace (Unheld (Sample.config 3)) s₁
        after s' (.done (.ok ())))) := by
  have hpass : Sample.pass.any (fun r => r.2.isOk &&
      (r.1.db.job? Sample.job).any fun row => row.state.isTerminal) = true := by decide +kernel
  obtain ⟨⟨s', r⟩, hresult, hended⟩ := (Option.any_eq_true _ _).mp hpass
  obtain ⟨p, _, heval⟩ := Option.bind_eq_some_iff.mp hresult
  obtain ⟨hok, hended⟩ := Bool.and_eq_true_iff.mp hended
  obtain ⟨row, hrow, hterminal⟩ := (Option.any_eq_true _ _).mp hended
  obtain ⟨steps, htrace⟩ := Prog.eval_trace heval
  cases r with
  | error e => cases hok
  | ok u =>
      have hrun : (Reconciler.runOnce (Sample.config 3) 3).Trace (Unhindered (Sample.config 3))
          p.state steps s' (.done (.ok ())) :=
        htrace.mono fun _ _ _ _ h => Sample.succeed_unhindered h
      obtain ⟨kept, before, s₁, after, hbefore, hafter, hsteps, hiff⟩ :=
        ready_jobs_finalized hrun trivial fun e he => by cases he
      exact ⟨p.state, steps, s', hrun, ⟨row, hrow, hterminal⟩, kept, before, s₁, after, hbefore,
        hafter, hsteps, (and_iff_right ⟨_, rfl⟩).symm.trans hiff⟩

/-! ## A pass with nothing to do -/

section Idle

variable (cfg : Config) {s : Cluster}

/-- A query that is answered. -/
theorem unhindered_query {q : Query} {a : q.Out} {db' : Db} (h : q.tx.Commits s.db a db') :
    Unhindered cfg s (.query q) (.ok a) s := by
  refine ⟨⟨{}, ?_⟩, rfl⟩
  show some ((q.tx.exec s.db).1, s) = some (.ok a, s)
  rw [h.exec_eq]

theorem unhindered_memory (x : MemoryCall) : Unhindered cfg s (.memory x) (x.run s.memory).1
    { s with memory := (x.run s.memory).2 } := by
  refine ⟨⟨{}, rfl⟩, ?_⟩
  unfold Action.succeeds
  rfl

theorem unhindered_now (t : Time) : Unhindered cfg s (.outside .now) t s :=
  ⟨⟨{ clock := t }, rfl⟩, rfl⟩

/-- Nothing is stale, and no runtime is listed. -/
theorem idle_survey (t : Time) (hstale : (findStaleJobs
      ⟨t, t - (cfg.timing.staleWorkerThreshold : Int), Reconciler.batch⟩).Commits s.db [] s.db) :
    ∃ steps s₁, (Reconciler.survey cfg).Trace (Unhindered cfg) s steps s₁ (.done (.ok (.ok []))) ∧
      s₁.db = s.db ∧ s₁.memory.pendingExhausted = s.memory.pendingExhausted := by
  have hinventory : Unhindered cfg s (.outside .inventory) (.ok []) s := ⟨⟨{}, rfl⟩, rfl⟩
  exact ⟨_, { s with memory := ((MemoryCall.orphanRetain []).run s.memory).2 },
    .cons (unhindered_now cfg t) (.cons (unhindered_query cfg hstale) (.cons hinventory (.cons
      (unhindered_memory cfg (.orphanRetain [])) (.nil _ _)))), rfl, rfl⟩

/-- Every job of the loop is leased. -/
theorem idle_finalizeAll (rounds : Nat) {ids : List JobId} (hheld : ∀ j ∈ ids, ∃ snap g,
      (getJobSchedulingSnapshot j).Commits s.db (some snap) s.db ∧ snap.lease = some g) :
    ∃ steps, (Reconciler.finalizeAll cfg rounds [] ids 0).Trace (Unhindered cfg) s steps s
      (.done (.ok 0)) := by
  induction ids with
  | nil => exact ⟨[], .nil _ _⟩
  | cons j rest ih =>
      obtain ⟨steps, htrace⟩ := ih fun k hk => hheld k (List.mem_cons_of_mem _ hk)
      obtain ⟨snap, g, hread, hlease⟩ := hheld j List.mem_cons_self
      have hone : (Reconciler.finalizeJob cfg rounds j).Trace (Unhindered cfg) s
          [⟨.query (.schedulingSnapshot j none), .ok (some snap)⟩] s (.done (.ok false)) := by
        rw [finalizeJob_eq]
        refine .cons (unhindered_query cfg hread) ?_
        cases snap
        cases hlease
        exact .nil _ _
      exact ⟨_, hone.andThen htrace⟩

/-- The scan returns leased jobs only, no letter waits, and no exhausted job is remembered. -/
theorem idle_conclude (rounds : Nat) {ids : List JobId} (t : DbTime)
    (hscan : (finalizableJobs Reconciler.batch).Commits s.db ids s.db)
    (hheld : ∀ j ∈ ids, ∃ snap g,
      (getJobSchedulingSnapshot j).Commits s.db (some snap) s.db ∧ snap.lease = some g)
    (houtbox : (leaseOutboxMessagesForSubject cfg.dispatcherId jobsDeadSubject
      Dlq.outboxLeaseTimeout Dlq.leaseBatch (fun _ => false) t).Commits s.db [] s.db)
    (hpending : s.memory.pendingExhausted = Table.empty) :
    ∃ steps s', (Reconciler.conclude cfg rounds (.ok [])).Trace (Unhindered cfg) s steps s'
      (.done (.ok ())) ∧ s'.db = s.db := by
  obtain ⟨steps, hloop⟩ := idle_finalizeAll cfg rounds hheld
  have hready : (Reconciler.finalizeReadyJobs cfg rounds []).Trace (Unhindered cfg) s
      (⟨.query (.finalizableJobs Reconciler.batch), .ok ids⟩ :: steps) s (.done (.ok 0)) :=
    .cons (unhindered_query cfg hscan) hloop
  have hsessions : Unhindered cfg s (.outside .endDebugSessions) (.ok 0) s := ⟨⟨{}, rfl⟩, rfl⟩
  let d : Draw := ⟨⟨"evt_0", by decide⟩, ⟨"lease_0", by decide⟩, fun _ => false⟩
  have hdraw : Unhindered cfg s (.outside .draw) d s := ⟨⟨{}, rfl⟩, rfl⟩
  let op : Op := .leaseOutboxMessages cfg.dispatcherId jobsDeadSubject Dlq.outboxLeaseTimeout
    Dlq.leaseBatch fun _ => false
  let s₁ : Cluster := { s with history := s.db :: s.history }
  have hlease : Unhindered cfg s (.call op) (.ok []) s₁ := by
    refine ⟨⟨{ time := t }, ?_⟩, rfl⟩
    show (s.execute op t).map _ = _
    have hexec : (op.tx t).exec s.db = (.ok [], s.db) := houtbox.exec_eq
    unfold Cluster.execute
    simp only [hexec]
    rfl
  have hlist : Unhindered cfg s₁ (.memory .exhaustedList) [] s₁ := by
    have hread := unhindered_memory cfg (s := s₁) .exhaustedList
    have hrows : ((MemoryCall.exhaustedList).run s₁.memory).1 = [] := by
      show s.memory.pendingExhausted.rows = []
      rw [hpending]
      rfl
    rw [hrows] at hread
    exact hread
  exact ⟨_, s₁, hready.andThen (.cons hsessions (.cons hdraw (.cons hlease (.cons hlist
    (.nil _ _))))), rfl⟩

end Idle

/-! ## A crowd -/

namespace Sample

/-- Job `n`, cancelled in the queue at instant `n`. -/
def waitingRow (n : Nat) : JobRow where
  projectId := project
  apkUploadId := upload
  testUploadId := none
  runtimeProfileId := profile
  workerId := none
  mode := .headlessCi
  minIsolation := .sharedKernelPrivileged
  automation := .builtInSmoke
  requestedArtifacts := ⟨true, false, true, true⟩
  timeoutSeconds := request.timeoutSeconds
  idempotencyKey := (lettered "job_" n).val
  state := .collectingArtifacts
  pendingOutcome := some .cancelled
  outcome := none
  failure := none
  artifactsFinalized := false
  cleanupCompleted := false
  leaseId := none
  leaseExpiresAt := none
  lastLeaseExtendedAt := none
  deliveryAttempts := 0
  createdAt := n
  startedAt := none
  finishedAt := none

/-- The same job, cancelled under a lease that is live at instant 1000. -/
def heldRow (n : Nat) : JobRow :=
  { waitingRow n with
    workerId := some worker
    leaseId := some (lettered "lease_" n)
    leaseExpiresAt := some (n + 2000)
    lastLeaseExtendedAt := some n
    deliveryAttempts := 1
    startedAt := some n }

/-- 200 jobs under leases, then one that waits. -/
def crowdRow (n : Nat) : JobRow := if n < 200 then heldRow n else waitingRow n

theorem crowdRow_checks (n : Nat) : (crowdRow n).Checks := by
  have hkey : btrimEmpty (lettered "job_" n).val = false := by
    show (String.ofList ("job_".toList ++ List.replicate (n + 1) 'a')).toList.all (· == ' ') = false
    rw [String.toList_ofList]
    rfl
  unfold crowdRow
  split
  · exact {
      automation := trivial, idempotencyKey := hkey, failure := trivial,
      distinctUploads := nofun, lease := ⟨rfl, by show (n : Int) < n + 2000; omega⟩,
      leaseHasWorker := fun _ => rfl, queuedUnassigned := nofun,
      cleanupAfterArtifacts := nofun, terminalState := ⟨rfl, rfl⟩, terminalEvidence := nofun,
      startedOrder := fun t ht => by cases ht; exact le_refl _, finishedOrder := nofun }
  · exact {
      automation := trivial, idempotencyKey := hkey, failure := trivial,
      distinctUploads := nofun, lease := trivial, leaseHasWorker := nofun,
      queuedUnassigned := nofun, cleanupAfterArtifacts := nofun, terminalState := ⟨rfl, rfl⟩,
      terminalEvidence := nofun, startedOrder := nofun, finishedOrder := nofun }

def crowdJobs : Table.Checked JobId JobRow.Checks where
  rows := (List.range 201).map fun n => (lettered "job_" n, ⟨crowdRow n, crowdRow_checks n⟩)
  nodup := by
    rw [List.map_map]
    exact List.nodup_range.map fun _ _ h => lettered_inj h

/-- The worker that holds the leases. -/
def crowdWorker : WorkerRow :=
  ⟨[.redroid], false, false, .x86_64, 256, 200, .online, 1000, none, 0, 1000⟩

def crowdDb : Db :=
  { Db.empty catalog with
    jobs := crowdJobs
    workers := Table.empty.put worker ⟨crowdWorker, by decide⟩ }

def crowd : Cluster := { Cluster.boot (config 3) catalog with db := crowdDb }

theorem crowd_rows : crowdDb.jobs.rows.map (fun x => (x.1, x.2.val)) =
    (List.range 201).map fun n => (lettered "job_" n, crowdRow n) :=
  List.map_map

theorem crowd_job {j : JobId} {row : JobRow} : crowdDb.job? j = some row ↔
    ∃ n, n < 201 ∧ lettered "job_" n = j ∧ crowdRow n = row := by
  refine Table.mem_values_iff.symm.trans ?_
  show (j, row) ∈ crowdDb.jobs.rows.map (fun x => (x.1, x.2.val)) ↔ _
  rw [crowd_rows, List.mem_map]
  simp only [List.mem_range, Prod.mk.injEq]

/-- All of them are candidates. -/
theorem crowd_candidates :
    crowdDb.candidates = (List.range 201).map fun n => (lettered "job_" n, crowdRow n) := by
  unfold Db.candidates
  rw [crowd_rows]
  refine List.filter_eq_self.mpr fun x hx => ?_
  obtain ⟨n, _, rfl⟩ := List.mem_map.mp hx
  simp only [crowdRow]
  split
  · rfl
  · rfl

/-- The leased ones are ahead of the one that waits. -/
theorem crowd_ahead : 200 ≤ crowdDb.ahead (lettered "job_" 200) (waitingRow 200) := by
  have hahead : ∀ n ∈ List.range 200,
      ((fun x => decide (scanKey x < scanKey (lettered "job_" 200, waitingRow 200))) ∘
        fun n => (lettered "job_" n, crowdRow n)) n = true := by
    intro n hn
    have hn : n < 200 := List.mem_range.mp hn
    refine decide_eq_true (Prod.Lex.toLex_lt_toLex.mpr (Or.inl ?_))
    have hcreated : (crowdRow n).createdAt = n := by
      unfold crowdRow
      rw [if_pos hn]
      rfl
    show (crowdRow n).createdAt < (200 : Int)
    rw [hcreated]
    exact Int.ofNat_lt.mpr hn
  unfold Db.ahead Logic.ahead
  rw [crowd_candidates, List.countP_map, List.range_succ, List.countP_append]
  rw [List.countP_eq_length.mpr hahead, List.length_range]
  exact Nat.le_add_right 200 _

theorem crowd_ready : crowdDb.Ready [] (lettered "job_" 200) := by
  have hlast : crowdRow 200 = waitingRow 200 := by
    unfold crowdRow
    rw [if_neg (lt_irrefl 200)]
  have hrow : crowdDb.job? (lettered "job_" 200) = some (waitingRow 200) :=
    crowd_job.mpr ⟨200, by omega, rfl, hlast⟩
  exact ⟨⟨_, hrow, Or.inl rfl, rfl, Or.inl rfl⟩, List.not_mem_nil⟩

/-- At instant 1000 no lease has run out, and the worker is alive. -/
theorem crowd_fresh : (findStaleJobs ⟨1000, 1000 - ((config 3).timing.staleWorkerThreshold : Int),
    Reconciler.batch⟩).Commits crowdDb [] crowdDb := by
  have hnone : (crowdDb.jobs.rows.filterMap fun x => staleRow
      ⟨1000, 1000 - ((config 3).timing.staleWorkerThreshold : Int), Reconciler.batch⟩ crowdDb x.1
        x.2.val) = [] := by
    refine List.filterMap_eq_nil_iff.mpr fun x hx => ?_
    obtain ⟨n, _, rfl⟩ := List.mem_map.mp hx
    simp only [crowdRow]
    split
    · have hworker : crowdDb.worker? worker = some crowdWorker := by decide
      have hlate : ¬ ((n : Int) + 2000 ≤ 1000) := by omega
      simp only [staleRow, heldRow, hworker, hlate, decide_false, Bool.false_or]
      rfl
    · rfl
  simp only [findStaleJobs, checkedLimit, Tx.bind_commits, Tx.require_commits, Tx.read_commits,
    Tx.pure_commits]
  refine ⟨(), crowdDb, ⟨by decide, rfl⟩, _, crowdDb, ⟨rfl, rfl⟩, (), crowdDb, ?_, ?_, rfl⟩
  · rw [hnone]
    exact ⟨rfl, rfl⟩
  · rw [hnone]
    rfl

/-- The snapshot of a leased job shows its lease. -/
theorem crowd_held {n : Nat} (hn : n < 200) : ∃ snap g,
    (getJobSchedulingSnapshot (lettered "job_" n)).Commits crowdDb (some snap) crowdDb ∧
      snap.lease = some g := by
  have hrow : crowdDb.job? (lettered "job_" n) = some (heldRow n) := by
    refine crowd_job.mpr ⟨n, by omega, rfl, ?_⟩
    unfold crowdRow
    rw [if_pos hn]
  let android : RuntimeProfile :=
    ⟨profile, 34, "pixel", .x86_64, .x86_64, .redroid, "image", .sharedKernelPrivileged⟩
  have hprofile : (loadProfile profile).Commits crowdDb (some android) crowdDb := by
    simp only [loadProfile, Tx.bind_commits, Tx.read_commits, Tx.require_commits, Tx.pure_commits]
    exact ⟨some android, crowdDb, ⟨by decide, rfl⟩, (), crowdDb, ⟨rfl, rfl⟩, rfl, rfl⟩
  let g : LeaseGuard := ⟨worker, lettered "lease_" n⟩
  refine ⟨⟨(heldRow n).intoJob (lettered "job_" n), (heldRow n).queued (lettered "job_" n), android,
    some g, some (n + 2000), some n, 1, some .cancelled, false, false⟩, g, ?_, rfl⟩
  simp only [getJobSchedulingSnapshot, Tx.bind_commits, lockJob_commits]
  refine ⟨some (heldRow n), crowdDb, ⟨hrow, rfl⟩, ?_⟩
  simp only [Tx.bind_commits, Tx.okOr_commits, Tx.ofExcept_commits, Tx.pure_commits]
  exact ⟨some android, crowdDb, hprofile, android, crowdDb, ⟨rfl, rfl⟩, some g, crowdDb, ⟨rfl, rfl⟩,
    1, crowdDb, ⟨rfl, rfl⟩, rfl, rfl⟩

/-- A pass over the crowd changes nothing. -/
theorem crowd_pass : ∃ before s₁ after s',
    (Reconciler.survey (config 3)).Trace (Unhindered (config 3)) crowd before s₁
      (.done (.ok (.ok []))) ∧
    (Reconciler.conclude (config 3) 3 (.ok [])).Trace (Unhindered (config 3)) s₁ after s'
      (.done (.ok ())) ∧ s₁.db = crowdDb ∧ s'.db = crowdDb := by
  obtain ⟨before, s₁, hbefore, hdb, hpending⟩ := idle_survey (config 3) (s := crowd) 1000
    crowd_fresh
  have hdb : s₁.db = crowdDb := hdb
  have hpending : s₁.memory.pendingExhausted = Table.empty := hpending
  let ids := ((crowdDb.candidates.insertionSort fun a b => a.2.createdAt < b.2.createdAt ∨
    (a.2.createdAt = b.2.createdAt ∧ a.1.val ≤ b.1.val)).take Reconciler.batch).map Prod.fst
  have hscan : (finalizableJobs Reconciler.batch).Commits crowdDb ids crowdDb :=
    Tx.read_commits.mpr ⟨rfl, rfl⟩
  have hheld : ∀ j ∈ ids, ∃ snap g,
      (getJobSchedulingSnapshot j).Commits crowdDb (some snap) crowdDb ∧ snap.lease = some g := by
    intro j hj
    obtain ⟨row, hcandidate, hfew⟩ := (mem_finalizableJobs hscan).mp hj
    obtain ⟨n, hn, rfl, rfl⟩ := crowd_job.mp (Db.mem_candidates.mp hcandidate).1
    refine crowd_held (lt_of_le_of_ne (by omega) ?_)
    rintro rfl
    have hlast : crowdRow 200 = waitingRow 200 := by
      unfold crowdRow
      rw [if_neg (lt_irrefl 200)]
    rw [hlast] at hfew
    exact absurd hfew (not_lt.mpr crowd_ahead)
  have houtbox : (leaseOutboxMessagesForSubject (config 3).dispatcherId jobsDeadSubject
      Dlq.outboxLeaseTimeout Dlq.leaseBatch (fun _ => false) (at_ 1)).Commits crowdDb [] crowdDb := by
    rfl
  rw [← hdb] at hscan hheld houtbox
  obtain ⟨after, s', hafter, hsame⟩ := idle_conclude (config 3) 3 (at_ 1) hscan
    hheld houtbox hpending
  exact ⟨before, s₁, after, s', hbefore, hafter, hdb, hsame.trans hdb⟩

end Sample

/-- A pass over the crowd leaves its only ready job as it was. -/
theorem ready_job_starved : ∃ before s₁ after s',
    (Reconciler.runOnce (Sample.config 3) 3).Trace (Unhindered (Sample.config 3)) Sample.crowd
      (before ++ after) s' (.done (.ok ())) ∧
    (Reconciler.survey (Sample.config 3)).Trace (Unhindered (Sample.config 3)) Sample.crowd before
      s₁ (.done (.ok (.ok []))) ∧
    (Reconciler.conclude (Sample.config 3) 3 (.ok [])).Trace (Unhindered (Sample.config 3)) s₁
      after s' (.done (.ok ())) ∧ ¬ s₁.db.Served [] s'.db := by
  obtain ⟨before, s₁, after, s', hbefore, hafter, hdb, hdb'⟩ := Sample.crowd_pass
  refine ⟨before, s₁, after, s', ?_, hbefore, hafter, fun hserved => ?_⟩
  · rw [runOnce_eq]
    exact hbefore.andThen hafter
  · rw [hdb, hdb'] at hserved
    obtain ⟨j, hready, hended⟩ := hserved.one ⟨_, Sample.crowd_ready⟩
    exact hended.not_finalizable hready.1

end RunAnywhere
