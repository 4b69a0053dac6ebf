import RunAnywhere.Repository.EventSpec
import RunAnywhere.Scheduler.Keys

/-!
# The event log tells the truth

Along every run of the repository:

* **state** — a job is in the state its last event with a state carries (`Db.TrueLog`);
* **one event** — a call that wrote a job appended one event of it, every other call none
  (`Op.wrote` says which calls wrote);
* **webhooks** — the event is delivered to every subscriber iff the state changed.

The induction carries that sequence numbers grow along the log and that a webhook key
belongs to a logged event, so the keys of a new event are free.
-/

namespace RunAnywhere

open Logic

/-! ## Which calls write -/

/-- The job whose state or result a committed call wrote. -/
def Op.wrote : (op : Op) → op.Out → Option JobId
  | .createJobWithOutbox id _ _ _ _, created => if created.wasCreated then some id else none
  | .requestJobCancellation j _, mutation => if mutation.wasChanged then some j else none
  | .claimJobWithOptions j _ _ _ _ _, _ => some j
  | .transitionJobState j _ _ _ _ _ _, _ => some j
  | .recordJobResult result _, _ => some result.jobId
  | .recoverStaleJob stale _ _, disposition =>
      if disposition = .lostRace then none else some stale.jobId
  | _, _ => none

/-- The state of job `j`. -/
def Db.state? (db : Db) (j : JobId) : Option JobState := (db.job? j).map (·.state)

/-- A call that wrote no job: events and states are as before, and no webhook row is new. -/
structure Quiet (db db' : Db) : Prop where
  events : db'.events = db.events
  sequence : db'.nextEventSequence = db.nextEventSequence
  states : ∀ j, db'.state? j = db.state? j
  outbox : ∀ key row, db.message? key = none → db'.message? key = some row →
    row.subject ≠ webhookSubject ∧ ∀ e w, key ≠ webhookKey e w

/-- A call that wrote job `j`: its row, and one event with the row's state. -/
structure Wrote (j : JobId) (row : JobRow) (db db' : Db) : Prop where
  row? : db'.job? j = some row
  others : ∀ i, i ≠ j → db'.job? i = db.job? i
  logs : Logs j row.state (decide (db.state? j ≠ some row.state)) db db'

theorem webhookKey_startsWith (e : JobEventId) (w : WebhookId) :
    startsWith 'w' (webhookKey e w) := by
  have hw : startsWith 'w' "webhook:" := by decide
  exact startsWith_append (startsWith_append (startsWith_append hw))

/-- A webhook key names its event. -/
theorem webhookKey_event {e e' : JobEventId} {w w' : WebhookId}
    (h : webhookKey e w = webhookKey e' w') : e = e' := by
  have hcolon : ∀ i : JobEventId, ':' ∉ i.val.toList := by
    intro i
    obtain ⟨suffix, heq, hall⟩ := i.toList_eq
    rw [heq, List.mem_append, not_or]
    refine ⟨by decide, fun hmem => ?_⟩
    have hc := hall ':' hmem
    revert hc
    decide
  have hl := congrArg String.toList h
  simp only [webhookKey, String.toList_append, List.append_assoc] at hl
  obtain ⟨he, _⟩ := append_separator_inj (hcolon e) (hcolon e') (List.append_cancel_left hl)
  exact Ident.ext (String.toList_inj.mp he)

/-- A plain row has no webhook key. -/
theorem IsPlainRow.key_ne {key : String} {row : OutboxRow} (h : IsPlainRow key row)
    (e : JobEventId) (w : WebhookId) : key ≠ webhookKey e w := by
  obtain ⟨_, ⟨j, rfl⟩ | ⟨letter, hkey⟩⟩ := h
  · exact startsWith_ne j.startsWith (webhookKey_startsWith e w) (by decide)
  · exact startsWith_ne (JobDeadLetter.idempotencyKey_startsWith hkey) (webhookKey_startsWith e w)
      (by decide)

theorem Quiet.refl (db : Db) : Quiet db db := by
  refine ⟨rfl, rfl, fun _ => rfl, fun key row hk hk' => ?_⟩
  rw [hk] at hk'
  cases hk'

/-- A call that leaves jobs, events and outbox alone. -/
theorem Quiet.of_eq {db db' : Db} (hjobs : db'.jobs = db.jobs) (hevents : db'.events = db.events)
    (hseq : db'.nextEventSequence = db.nextEventSequence) (hout : db'.outbox = db.outbox) :
    Quiet db db' := by
  refine ⟨hevents, hseq, fun j => ?_, fun key row hk hk' => ?_⟩
  · unfold Db.state?
    rw [Db.job?_of_jobs hjobs]
  · unfold Db.message? at hk hk'
    rw [hout, hk] at hk'
    cases hk'

/-- A call of a publisher. -/
theorem Quiet.of_kept {marks : Nat → Prop} {db db' : Db} (h : OutboxKept marks db db') :
    Quiet db db' := by
  refine ⟨h.only.events, h.only.sequence, fun j => ?_, fun key row hk hk' => ?_⟩
  · unfold Db.state?
    rw [Db.job?_of_jobs h.only.jobs]
  · rcases h.rows key with ⟨_, hnone⟩ | ⟨old, _, hold, _⟩
    · rw [hnone] at hk'
      cases hk'
    · rw [hold] at hk
      cases hk

/-- The stored row of a job, and the others. -/
theorem Db.jobs_put {db db' : Db} {j : JobId} {row : JobRow} {hc : row.Checks}
    (h : db'.jobs = db.jobs.put j ⟨row, hc⟩) :
    db'.job? j = some row ∧ ∀ i, i ≠ j → db'.job? i = db.job? i := by
  unfold Db.job?
  rw [h]
  exact ⟨Table.row?_put_self _ _ _ _, fun i hi => Table.row?_put_of_ne _ _ _ hi⟩

theorem recovered_state (stale : StaleJob) (kind : RecoveryKind) {row : JobRow}
    (h : row.state = stale.state) : (row.recovered kind).state = recoveredState kind stale := by
  unfold recoveredState JobRow.recovered
  rw [← h]
  cases kind with
  | requeue => rfl
  | cancelling => simp [JobRow.toFinalizer]
  | exhausted => simp [JobRow.toFinalizer]

/-- **Calls.** A committed call wrote one job and logged it, or it was quiet. -/
theorem Op.logs {op : Op} {t : DbTime} {db db' : Db} {out : op.Out}
    (h : (op.tx t).Commits db out db') :
    match op.wrote out with
    | none => Quiet db db'
    | some j => ∃ row, Wrote j row db db' := by
  cases op with
  | setCatalog catalog =>
      obtain rfl := Tx.write_commits.mp h
      exact .of_eq rfl rfl rfl rfl
  | upsertWorker registration =>
      rcases upsertWorker_commits h with ⟨_, _, rfl⟩ | ⟨_, _, _, rfl⟩
      · exact .of_eq rfl rfl rfl rfl
      · exact .of_eq rfl rfl rfl rfl
  | setWorkerState w state =>
      obtain ⟨_, _, _, rfl⟩ := setWorkerState_commits h
      exact .of_eq rfl rfl rfl rfl
  | recordHeartbeat heartbeat leaseTtl =>
      obtain ⟨_, _, _, _, _, rfl, _, honly, _, hjobs⟩ := recordHeartbeat_commits h
      refine ⟨honly.events, honly.sequence, fun j => ?_, fun key row hk hk' => ?_⟩
      · unfold Db.state?
        rw [hjobs j, Option.map_map]
        congr 1
        funext row
        simp only [Function.comp_apply, JobRow.afterHeartbeat]
        split
        · rfl
        · rfl
      · have hsame : db'.message? key = db.message? key := by
          unfold Db.message?
          rw [honly.outbox]
        rw [hsame, hk] at hk'
        cases hk'
  | createJobWithOutbox id eventId request key headers =>
      rcases createJobWithOutbox_commits h with ⟨_, _, _, rfl, rfl⟩ |
        ⟨hc, event, _, hnone, _, rfl, _, _, _, hjobs, _⟩
      · exact .refl _
      · obtain ⟨hrow, hothers⟩ := Db.jobs_put hjobs
        refine ⟨_, hrow, hothers, ?_⟩
        have hchanged : decide (db.state? id ≠ some (newJobRow request key t).state) = true := by
          simp [Db.state?, hnone]
        rw [hchanged]
        exact createJobWithOutbox_logs h rfl
  | requestJobCancellation j eventId =>
      obtain ⟨row, hrow, _, hcase⟩ := requestJobCancellation_commits h
      rcases hcase with ⟨_, rfl, rfl⟩ | ⟨hc, event, _, rfl, _, _, _, hjobs, _⟩
      · exact .refl _
      · obtain ⟨hrow', hothers⟩ := Db.jobs_put hjobs
        obtain ⟨row₀, hrow₀, hlogs⟩ := requestJobCancellation_logs h rfl
        obtain rfl := Option.some.inj (hrow₀.symm.trans hrow)
        refine ⟨_, hrow', hothers, ?_⟩
        simpa [Db.state?, hrow, JobRow.cancelRequested] using hlogs
  | claimJobWithOptions j w l expires options eventId =>
      obtain ⟨row, worker, hc, _, hrow, hq, _, _, _, hclaim⟩ := claimJobWithOptions_commits h
      obtain ⟨_, _, _, _, _, _, _, _, hjobs, _⟩ := hclaim
      obtain ⟨hrow', hothers⟩ := Db.jobs_put hjobs
      refine ⟨_, hrow', hothers, ?_⟩
      have hchanged : decide (db.state? j ≠ some (row.claimed w l expires t.clock).state) = true := by
        simp [Db.state?, hrow, hq, JobRow.claimed]
      rw [hchanged]
      exact claimJobWithOptions_logs h
  | transitionJobState j source target evidence lease payload eventId =>
      obtain ⟨row, hc, db₁, _, hrow, hguard, _, hrel, _, _, hjobs, _⟩ :=
        transitionJobStateWith_commits h
      have hframe : db₁.jobs = db.jobs.put j ⟨row.transitioned target evidence t, hc⟩ := by
        cases hr : releasesOn target row with
        | none => rw [hr] at hrel; subst hrel; rfl
        | some w => rw [hr] at hrel; exact (releaseWorkerCapacity_frame hrel).1
      obtain ⟨hrow', hothers⟩ := Db.jobs_put (hjobs.trans hframe)
      refine ⟨_, hrow', hothers, ?_⟩
      have hstate : row.state = source := (transitionGuard_iff.mp hguard).1
      have hlogs := transitionJobState_logs h
      simpa [Db.state?, hrow, hstate, JobRow.transitioned] using hlogs
  | recordJobResult result eventId =>
      obtain ⟨row, hc, hrow, _, _, _, _, _, hjobs, _⟩ := recordJobResult_commits h
      obtain ⟨hrow', hothers⟩ := Db.jobs_put hjobs
      obtain ⟨row₀, hrow₀, hlogs⟩ := recordJobResult_logs h
      obtain rfl := Option.some.inj (hrow₀.symm.trans hrow)
      refine ⟨_, hrow', hothers, ?_⟩
      simpa [Db.state?, hrow, JobRow.withResult] using hlogs
  | recoverStaleJob stale maxDeliver eventId =>
      rcases recoverStaleJobWith_commits h with ⟨rfl, rfl⟩ |
        ⟨row, worker, hc, db₁, _, hrow, hfence, _, _, hout, hrel, _, _, hjobs, _⟩
      · exact .refl _
      · have hne : out ≠ .lostRace := by
          rw [hout]
          cases recoveryKind stale maxDeliver row <;> intro h <;> cases h
        have hframe := (releaseWorkerCapacity_frame hrel).1
        obtain ⟨hrow', hothers⟩ := Db.jobs_put (hjobs.trans hframe)
        obtain ⟨row₀, hrow₀, hlogs⟩ := recoverStaleJob_logs h hne
        obtain rfl := Option.some.inj (hrow₀.symm.trans hrow)
        have hwrote : Op.wrote (.recoverStaleJob stale maxDeliver eventId) out =
            some stale.jobId := if_neg hne
        rw [hwrote]
        refine ⟨_, hrow', hothers, ?_⟩
        rw [recovered_state stale _ hfence.state]
        have hstate : db.state? stale.jobId = some stale.state := by
          rw [← hfence.state]
          simp [Db.state?, hrow]
        rw [hstate]
        simpa [eq_comm] using hlogs
  | enqueueJobDeadLetter deadLetter headers =>
      obtain ⟨honly, hgrew⟩ := insertJobDeadLetterOutbox_plain h
      refine ⟨honly.events, honly.sequence, fun j => ?_, fun key row hk hk' => ?_⟩
      · unfold Db.state?
        rw [Db.job?_of_jobs honly.jobs]
      · rcases hgrew.rows key with hsame | ⟨new, _, hnew, _, _, _, hplain⟩
        · rw [hsame, hk] at hk'
          cases hk'
        · obtain rfl := Option.some.inj (hnew.symm.trans hk')
          exact ⟨hplain.1, hplain.key_ne⟩
  | leaseOutboxMessages dispatcherId subject leaseTimeout limit skip =>
      exact .of_kept (leaseOutboxMessagesForSubject_kept h).1
  | markOutboxPublished id dispatcherId => exact .of_kept (markOutboxPublished_kept h)
  | retryOutboxMessage id dispatcherId availableAt lastError =>
      exact .of_kept (retryOutboxMessage_kept h)

/-! ## What a call logs -/

/-- What the log and the outbox show of a call that wrote job `j`. -/
structure Db.Logged (db db' : Db) (j : JobId) (row : JobRow) (event : JobEvent) : Prop where
  row? : db'.job? j = some row
  events : db'.events = db.events ++ [event]
  job : event.jobId = j
  state : event.state = some row.state
  notifies : Notifies event (if db.state? j = some row.state then [] else db'.subscriptions j) db db'

theorem Db.eventsOf_append (db : Db) {db' : Db} {event : JobEvent} (j : JobId)
    (h : db'.events = db.events ++ [event]) :
    db'.eventsOf j = db.eventsOf j ++ if event.jobId = j then [event] else [] := by
  unfold Db.eventsOf
  rw [h, List.filter_append]
  by_cases hj : event.jobId = j
  · simp [hj]
  · simp [hj]

/-- A webhook key belongs to a logged event. -/
def Db.WebhookKeys (db : Db) : Prop :=
  ∀ e w, (db.message? (webhookKey e w)).isSome = true → ∃ old ∈ db.events, old.id = e

theorem SameLog.message? {db db' : Db} (h : SameLog db db') (key : String) :
    db'.message? key = db.message? key := by
  unfold Db.message?
  rw [h.outbox]

/-- **One event.** Where webhook keys belong to logged events, a call that wrote a job logs
one event, under the next sequence number, and keeps the keys. -/
theorem Wrote.logged {db db' : Db} {j : JobId} {row : JobRow} (h : Wrote j row db db')
    (hkeys : db.WebhookKeys) : ∃ event, db.Logged db' j row event ∧
      event.sequence = db.nextEventSequence ∧
      db'.nextEventSequence = db.nextEventSequence + 1 ∧ db'.WebhookKeys := by
  obtain ⟨hrow, _, hlogs⟩ := h
  obtain ⟨happend, hbefore, hafter, hplain⟩ := hlogs
  rename_i db₁ db₂ id eventType payload t event
  obtain ⟨hevent, hcat, _, hjobs, hevents, hseq, _⟩ := appendEvent_commits happend
  have hkeys₁ : ∀ e w, (db₁.message? (webhookKey e w)).isSome = true →
      ∃ old ∈ db₁.events, old.id = e := by
    intro e w hsome
    rw [hbefore.message?] at hsome
    rw [hbefore.events]
    exact hkeys e w hsome
  obtain ⟨hnotifies, hrows⟩ := appendEvent_exact happend hkeys₁
  have hlog : db'.events = db.events ++ [event] := by
    rw [hafter.events, hevents, hbefore.events]
  have hsubs : db'.subscriptions j = db₁.subscriptions j := by
    unfold Db.subscriptions
    rw [Db.job?_of_jobs (hafter.jobs.trans hjobs), hafter.catalog, hcat]
  -- rows after the event are plain
  have hcase : ∀ key row, db'.message? key = some row →
      db₂.message? key = some row ∨ IsPlainRow key row := by
    intro key row hk
    rcases hplain.rows key with hsame | ⟨new, _, hnew, _, _, _, hp⟩
    · exact Or.inl (hsame ▸ hk)
    · obtain rfl := Option.some.inj (hnew.symm.trans hk)
      exact Or.inr hp
  refine ⟨event, ⟨hrow, hlog, by rw [hevent], by rw [hevent], ?_⟩, ?_, ?_, ?_⟩
  · have hhooks : (if db.state? j = some row.state then [] else db'.subscriptions j) =
        if decide (db.state? j ≠ some row.state) = true then db₁.subscriptions j else [] := by
      rw [hsubs]
      by_cases hsame : db.state? j = some row.state
      · simp [hsame]
      · simp [hsame]
    rw [hhooks]
    refine ⟨fun hook hmem => ?_, fun key new hk hk' hsubject => ?_⟩
    · obtain ⟨hnone, new, hnew, hdelivers⟩ := hnotifies.added hook hmem
      rw [hbefore.message?] at hnone
      exact ⟨hnone, new, hplain.old hnew, hdelivers⟩
    · rw [← hbefore.message?] at hk
      rcases hcase key new hk' with hnew | hp
      · exact hnotifies.only key new hk hnew hsubject
      · exact absurd hsubject hp.1
  · rw [hevent, hbefore.sequence]
  · rw [hafter.sequence, hseq, hbefore.sequence]
  · intro e w hsome
    obtain ⟨new, hnew⟩ := Option.isSome_iff_exists.mp hsome
    rw [hlog]
    rcases hcase _ new hnew with hnew | hp
    · rcases hrows _ new hnew with hold | ⟨w', hkey⟩
      · rw [hbefore.message?] at hold
        obtain ⟨old, hmem, hid⟩ := hkeys e w (by rw [hold]; rfl)
        exact ⟨old, List.mem_append_left _ hmem, hid⟩
      · exact ⟨event, List.mem_append_right _ List.mem_cons_self, (webhookKey_event hkey).symm⟩
    · exact absurd rfl (hp.key_ne e w)

/-! ## The truth of the log -/

/-- `e` is the last event of `j` that carries a state. -/
structure Db.LastState (db : Db) (j : JobId) (e : JobEvent) : Prop where
  mem : e ∈ db.eventsOf j
  state : e.state.isSome = true
  last : ∀ e' ∈ db.eventsOf j, e'.state.isSome = true → e'.sequence ≤ e.sequence

/-- Each job has such an event, and it carries the state of the job. -/
def Db.TrueLog (db : Db) : Prop :=
  ∀ j row, db.job? j = some row → (∃ e, db.LastState j e) ∧
    ∀ e, db.LastState j e → e.state = some row.state

/-- The invariant of the log. -/
structure Db.LogSound (db : Db) : Prop where
  increasing : db.events.Pairwise fun e e' => e.sequence < e'.sequence
  bounded : ∀ e ∈ db.events, e.sequence < db.nextEventSequence
  keys : db.WebhookKeys
  truth : ∀ j row, db.job? j = some row → ∃ e, db.LastState j e ∧ e.state = some row.state

/-- Sequence numbers tell the events apart. -/
theorem Db.LogSound.unique {db : Db} (h : db.LogSound) {j : JobId} {e e' : JobEvent}
    (he : db.LastState j e) (he' : db.LastState j e') : e = e' := by
  have hseq : e.sequence = e'.sequence := by
    have h₁ := he.last e' he'.mem he'.state
    have h₂ := he'.last e he.mem he.state
    omega
  have hmem := (List.mem_filter.mp he.mem).1
  have hmem' := (List.mem_filter.mp he'.mem).1
  have hnodup : (db.events.map (·.sequence)).Nodup := by
    rw [List.Nodup, List.pairwise_map]
    exact h.increasing.imp fun hlt => Nat.ne_of_lt hlt
  exact List.inj_on_of_nodup_map hnodup hmem hmem' hseq

theorem Db.LogSound.trueLog {db : Db} (h : db.LogSound) : db.TrueLog := by
  intro j row hrow
  obtain ⟨e, he, hstate⟩ := h.truth j row hrow
  exact ⟨⟨e, he⟩, fun e' he' => h.unique he he' ▸ hstate⟩

/-- Jobs whose events and states are as before keep their last event. -/
theorem Db.LogSound.kept {db db' : Db} (h : db.LogSound) {j : JobId} {row : JobRow}
    (hevents : db'.eventsOf j = db.eventsOf j) (hstate : db'.state? j = db.state? j)
    (hrow : db'.job? j = some row) : ∃ e, db'.LastState j e ∧ e.state = some row.state := by
  have hold : db.state? j = some row.state := by
    rw [← hstate]
    simp [Db.state?, hrow]
  obtain ⟨old, hrow₀, hsame⟩ := Option.map_eq_some_iff.mp hold
  obtain ⟨e, ⟨hmem, hsome, hlast⟩, he⟩ := h.truth j old hrow₀
  refine ⟨e, ⟨?_, hsome, ?_⟩, he.trans (congrArg some hsame)⟩
  · rw [hevents]
    exact hmem
  · rw [hevents]
    exact hlast

theorem Db.LogSound.quiet {db db' : Db} (h : db.LogSound) (hq : Quiet db db') : db'.LogSound := by
  refine ⟨?_, ?_, fun e w hsome => ?_, fun j row hrow => ?_⟩
  · rw [hq.events]
    exact h.increasing
  · rw [hq.events, hq.sequence]
    exact h.bounded
  · rw [hq.events]
    refine h.keys e w ?_
    by_contra hnone
    obtain ⟨row, hrow⟩ := Option.isSome_iff_exists.mp hsome
    exact (hq.outbox _ row (by simpa using hnone) hrow).2 e w rfl
  · refine h.kept ?_ (hq.states j) hrow
    unfold Db.eventsOf
    rw [hq.events]

theorem Db.LogSound.wrote {db db' : Db} (h : db.LogSound) {j : JobId} {row : JobRow}
    (hw : Wrote j row db db') : db'.LogSound := by
  obtain ⟨event, hlogged, hseq, hnext, hkeys⟩ := hw.logged h.keys
  refine ⟨?_, ?_, hkeys, fun i row' hrow => ?_⟩
  · rw [hlogged.events, List.pairwise_append]
    refine ⟨h.increasing, List.pairwise_singleton _ _, fun e he e' he' => ?_⟩
    obtain rfl := List.mem_singleton.mp he'
    rw [hseq]
    exact h.bounded e he
  · intro e he
    rw [hlogged.events] at he
    rw [hnext]
    rcases List.mem_append.mp he with hold | hnew
    · exact Nat.lt_succ_of_lt (h.bounded e hold)
    · obtain rfl := List.mem_singleton.mp hnew
      omega
  · by_cases hi : i = j
    · -- the new event is the last one
      subst hi
      obtain rfl := Option.some.inj (hrow.symm.trans hlogged.row?)
      have hmem : event ∈ db'.eventsOf i := by
        rw [Db.eventsOf, hlogged.events]
        simp [hlogged.job]
      refine ⟨event, ⟨hmem, by rw [hlogged.state]; rfl, fun e he _ => ?_⟩, hlogged.state⟩
      have he' := (List.mem_filter.mp he).1
      rw [hlogged.events] at he'
      rcases List.mem_append.mp he' with hold | hnew
      · have hlt := h.bounded e hold
        omega
      · rw [List.mem_singleton.mp hnew]
    · refine h.kept ?_ ?_ hrow
      · rw [Db.eventsOf, hlogged.events, List.filter_append]
        have hne : ¬ event.jobId = i := fun heq => hi (heq.symm.trans hlogged.job)
        simp [hne, Db.eventsOf]
      · unfold Db.state?
        rw [hw.others i hi]

theorem logSound_invariant (Allowed : Op → Prop) :
    (repository Allowed).Invariant Db.LogSound := by
  refine TSys.Inductive.invariant ⟨?_, fun db call db' _ h hstep => ?_⟩
  · rintro _ ⟨catalog, rfl⟩
    refine ⟨List.Pairwise.nil, fun e he => absurd he List.not_mem_nil, fun e w hsome => ?_,
      fun j row hrow => ?_⟩
    · cases hsome
    · cases hrow
  · rcases repository_step_cases hstep with ⟨out, _, hc⟩ | ⟨_, rfl⟩
    · have hlogs := Op.logs hc
      cases hw : call.op.wrote out with
      | none =>
          rw [hw] at hlogs
          exact h.quiet hlogs
      | some j =>
          rw [hw] at hlogs
          obtain ⟨row, hwrote⟩ := hlogs
          exact h.wrote hwrote
    · exact h

/-- What a step leaves in the log and the outbox. -/
def Call.LogsTruly (call : Call) (db db' : Db) : Prop :=
  match call.answer with
  | .error _ => db' = db
  | .ok out =>
      match call.op.wrote out with
      | none => db'.events = db.events ∧ ∀ key row, db.message? key = none →
          db'.message? key = some row → row.subject ≠ webhookSubject
      | some j => ∃ row event, db.Logged db' j row event

/-- **The event log tells the truth.** In every reachable database the last event of a job
with a state carries the job's state. A call that wrote a job appended one event of it with
the state it left, delivered to every subscriber of its project iff the state changed; any
other call appended none and delivered none. -/
theorem event_log_true (Allowed : Op → Prop) : (repository Allowed).Invariant fun db =>
    db.TrueLog ∧ ∀ call db', (repository Allowed).step db call db' → call.LogsTruly db db' := by
  intro db hreach
  have hsound := logSound_invariant Allowed db hreach
  refine ⟨hsound.trueLog, fun call db' hstep => ?_⟩
  rcases repository_step_cases hstep with ⟨out, ha, hc⟩ | ⟨⟨e, ha⟩, rfl⟩
  · unfold Call.LogsTruly
    rw [ha]
    have hlogs := Op.logs hc
    simp only
    cases hw : call.op.wrote out with
    | none =>
        rw [hw] at hlogs
        exact ⟨hlogs.events, fun key row hk hk' => (hlogs.outbox key row hk hk').1⟩
    | some j =>
        rw [hw] at hlogs
        obtain ⟨row, hwrote⟩ := hlogs
        obtain ⟨event, hlogged, _⟩ := hwrote.logged hsound.keys
        exact ⟨row, event, hlogged⟩
  · unfold Call.LogsTruly
    rw [ha]

end RunAnywhere
