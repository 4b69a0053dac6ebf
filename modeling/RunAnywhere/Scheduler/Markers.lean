import RunAnywhere.Repository.OutboxRun
import RunAnywhere.Scheduler.Keys
import RunAnywhere.Theorems.Parked
import RunAnywhere.Theorems.Passed

/-!
# The repository under its components

`components m` are the runs of the repository in which every call is one a component makes
(`Db.Permits`): unfenced edges only on rows without a lease, recoveries with the delivery
limit `m`, and letters of exhausted jobs only under a key that is taken. Along such a run
the outbox holds a marker of exhaustion exactly for the jobs recovery gave up on
(`Db.Marked`):

* an event of an exhausting recovery leaves its job parked, `infra_failed` and marked;
* a row under a marker key is a marker of a job with such an event.
-/

namespace RunAnywhere

open Logic

/-- The payloads of the events of `finalize_queued_cancellation`. -/
def emptyQueuePayloads : List (List (String × EventValue)) :=
  [[("finalizer", .text "empty_queue_job")], [("cleanup", .text "not_started")]]

/-- A call the components make in a database. -/
structure Db.Permits (m : Nat) (db : Db) (op : Op) : Prop where
  issued : op.Issued
  limit : op.RecoversWith m
  unleased : ∀ j source target evidence payload eventId,
    op = .transitionJobState j source target evidence none payload eventId →
      ∀ row, db.job? j = some row →
        row.leaseId = none ∧ (payload ∈ emptyQueuePayloads → row.deliveryAttempts = 0)
  marked : ∀ deadLetter headers key, op = .enqueueJobDeadLetter deadLetter headers →
    deadLetter.reason = .attemptsExhausted → deadLetter.idempotencyKey = .ok key →
      (db.message? key).isSome = true

/-- The runs of the repository under its components. -/
def components (m : Nat) : TSys Db Call where
  init db := ∃ catalog, db = Db.empty catalog
  step db call db' := db.Permits m call.op ∧ (call.op.tx call.time).exec db = (call.answer, db')

theorem components_step {m : Nat} {db db' : Db} {call : Call}
    (h : (components m).step db call db') : (repository Op.Issued).step db call db' :=
  ⟨h.1.issued, h.2⟩

theorem components_run {m : Nat} {db db' : Db} {calls : List Call}
    (h : (components m).Run db calls db') : (repository Op.Issued).Run db calls db' :=
  h.mono fun _ _ _ => components_step

theorem components_reachable {m : Nat} {db : Db} (h : (components m).Reachable db) :
    (repository Op.Issued).Reachable db :=
  TSys.Reachable.mono (T := components m) (U := repository Op.Issued) (fun _ hi => hi)
    (fun _ _ _ => components_step) h

/-! ## Leases on the way of a job -/

/-- On the way to collection a job is leased, and a leased job has been claimed. -/
structure JobRow.Driven (row : JobRow) : Prop where
  leased : 1 ≤ row.state.rank → row.state.rank ≤ 6 → row.leaseId.isSome = true
  claimed : row.leaseId.isSome = true → 0 < row.deliveryAttempts

theorem RowChange.driven {op : Op} {t : DbTime} {j : JobId} {old : Option JobRow} {new : JobRow}
    (h : RowChange op t j old new) (hop : op.Issued) (hold : ∀ row ∈ old, row.Driven) :
    new.Driven := by
  cases h with
  | create =>
      exact ⟨fun (h : 1 ≤ JobState.queued.rank) => absurd h (by decide), fun h => by cases h⟩
  | cancel =>
      exact ⟨fun _ (h : JobState.collectingArtifacts.rank ≤ 6) => absurd h (by decide),
        (hold _ rfl).claimed⟩
  | claim => exact ⟨fun _ _ => rfl, fun _ => Nat.succ_pos _⟩
  | @transition _ source target evidence lease _ _ t row hval hguard =>
      have hd := hold row rfl
      obtain ⟨rfl, _, hheld⟩ := transitionGuard_iff.mp hguard
      refine ⟨fun hlo hhi => ?_, fun hl => hd.claimed ?_⟩
      · show (if target.terminalOutcome.isSome then none else row.leaseId).isSome = true
        cases lease with
        | some g =>
            -- only a terminal target ends the lease of the fence
            have hnone : target.terminalOutcome = none := by
              have hrank : target.rank ≤ 6 := hhi
              cases target <;> first | rfl | exact absurd hrank (by decide)
            rw [hnone, (hheld g rfl).2.1]
            rfl
        | none =>
            -- an edge of a finalizer ends beyond collection
            have hrank : target.rank ≤ 6 := hhi
            obtain ⟨hedge, ho⟩ := hop
            rcases hedge with ⟨_, rfl⟩ | ⟨_, ht⟩
            · exact absurd hrank (by decide)
            · rcases ho with ho | ho <;> rw [ho] at ht <;> cases target <;> cases ht <;>
                exact absurd hrank (by decide)
      · have hl' : (if target.terminalOutcome.isSome then none else row.leaseId).isSome = true := hl
        split at hl'
        · cases hl'
        · exact hl'
  | @result _ _ _ row => exact ⟨(hold row rfl).leased, (hold row rfl).claimed⟩
  | @heartbeat _ _ _ _ row _ _ hguard => exact ⟨(hold row rfl).leased, (hold row rfl).claimed⟩
  | @recover stale maxDeliver _ _ row hfence =>
      have hfinal : ∀ o failure, (row.toFinalizer o failure).Driven := by
        intro o failure
        refine ⟨fun _ hhi => ?_, fun hl => by cases hl⟩
        have hrank : (if decide (row.state = .cleaningUp) then JobState.cleaningUp
          else .collectingArtifacts).rank ≤ 6 := hhi
        split at hrank <;> exact absurd hrank (by decide)
      cases recoveryKind stale maxDeliver row with
      | requeue =>
          exact ⟨fun (h : 1 ≤ JobState.queued.rank) => absurd h (by decide), fun h => by cases h⟩
      | cancelling => exact hfinal _ _
      | exhausted => exact hfinal _ _

theorem driven_invariant :
    (repository Op.Issued).Invariant fun db => ∀ j row, db.job? j = some row → row.Driven :=
  rows_invariant fun _ _ _ _ _ hop h hold _ => h.driven hop fun row hrow => (hold row hrow).2

/-- An outcome without a lease is that of a parked row. -/
theorem JobRow.Driven.parked {row : JobRow} (h : row.Driven) (hs : row.Shape)
    (hl : row.leaseId = none) (hp : row.pendingOutcome.isSome = true) : row.Parked := by
  refine ⟨hl, ?_⟩
  cases hstate : row.state with
  | queued =>
      rw [(hs.queued hstate).2.2.1] at hp
      cases hp
  | collectingArtifacts => exact Or.inl rfl
  | cleaningUp => exact Or.inr (Or.inl rfl)
  | passed | failed | cancelled | timedOut | infraFailed => exact Or.inr (Or.inr rfl)
  | claimed | provisioningRuntime | booting | installingApk | runningTests | debugAvailable =>
      have hleased := h.leased (by rw [hstate]; decide) (by rw [hstate]; decide)
      rw [hl] at hleased
      cases hleased

/-! ## Rows under a job's identifier -/

/-- The row under the identifier of a job is its canonical queue message. -/
def Db.QueueMessages (db : Db) : Prop := ∀ (j : JobId) message, db.message? j.val = some message →
  message.subject = jobsQueuedSubject ∧
    ∃ row, db.job? j = some row ∧ message.payload = .jobQueued (row.queued j)

theorem queueMessages_invariant (Allowed : Op → Prop) :
    (repository Allowed).Invariant Db.QueueMessages := by
  refine TSys.Inductive.invariant ⟨?_, ?_⟩
  · rintro _ ⟨catalog, rfl⟩ j message hm
    cases hm
  · intro db call db' hr ih hstep j message hm
    rcases repository_step_cases hstep with ⟨_, _, hc⟩ | ⟨_, rfl⟩
    · cases (Op.outbox hc).new _ _ hm with
      | kept old was keeps =>
          obtain ⟨hsub, row, hrow, hpay⟩ := ih j old was
          obtain ⟨row', hrow', hq⟩ := queued_run hr (.single hstep) hrow
          exact ⟨keeps.subject.trans hsub, row', hrow', by rw [keeps.payload, hpay, hq]⟩
      | webhook _ _ hweb =>
          obtain ⟨_, rest, hkey⟩ := hweb
          have hw : startsWith 'w' "webhook:" := by decide
          exact absurd hkey (startsWith_ne j.startsWith (startsWith_append hw) (by decide))
      | @created id _ _ _ _ row _ _ _ hkey hrow hpay hsub =>
          obtain rfl : j = id := Ident.ext hkey
          exact ⟨hsub, row, hrow, hpay⟩
      | marker _ _ _ _ _ _ _ _ _ hkey =>
          have hd : startsWith 'd' "dlq:" := by decide
          exact absurd hkey (startsWith_ne j.startsWith
            (startsWith_append (startsWith_append (startsWith_append hd))) (by decide))
      | letter _ _ _ hkey =>
          exact absurd rfl (startsWith_ne j.startsWith
            (JobDeadLetter.idempotencyKey_startsWith hkey) (by decide))
    · exact ih j message hm

/-! ## Markers -/

/-- The event of an exhausting recovery. -/
def JobEvent.Exhausts (e : JobEvent) : Prop := e.eventType = RecoveryKind.exhausted.eventType

/-- Jobs recovery gave up on are parked and marked, and nothing else is marked. -/
structure Db.Marked (m : Nat) (db : Db) : Prop where
  exhausted : ∀ j e, e ∈ db.eventsOf j → e.Exhausts → ∃ row, db.job? j = some row ∧ row.Parked ∧
    row.workerId = none ∧ row.pendingOutcome = some .infraFailed ∧ m ≤ row.deliveryAttempts ∧
    ("delivery_attempts", EventValue.number row.deliveryAttempts) ∈ e.payload ∧
    (db.message? (exhaustionEventKey j row.deliveryAttempts)).isSome = true
  marker : ∀ j a message, db.message? (exhaustionEventKey j a) = some message →
    isMatchingExhaustionMarker (message.intoMessage (exhaustionEventKey j a)) j a = true ∧
    ∃ row, db.job? j = some row ∧ max row.deliveryAttempts 1 = max a 1 ∧
      ∃ e ∈ db.eventsOf j, e.Exhausts

theorem exhaustionEventKey_pos {j : JobId} {n : Nat} (h : 0 < n) :
    exhaustionEventKey j n = "dlq:" ++ j.val ++ ":" ++ toString n := by
  unfold exhaustionEventKey
  rw [show max n 1 = n by omega]

/-- Events stay. -/
theorem Op.mem_eventsOf {op : Op} {t : DbTime} {db db' : Db} {out : op.Out}
    (h : (op.tx t).Commits db out db') {j : JobId} {e : JobEvent} (he : e ∈ db.eventsOf j) :
    e ∈ db'.eventsOf j := by
  obtain ⟨l, hevents, _⟩ := Op.events h
  unfold Db.eventsOf at he ⊢
  rw [hevents, List.filter_append]
  exact List.mem_append_left _ he

/-- An exhausting recovery parks its job with an outcome, an event and a marker. -/
theorem recovery_exhausts {stale : StaleJob} {m : Nat} {eventId : JobEventId} {t : DbTime}
    {db db' : Db} {out : RecoveryDisposition}
    (h : (recoverStaleJob stale m eventId t).Commits db out db') {row : JobRow}
    (hrow : db.job? stale.jobId = some row) (hkind : recoveryKind stale m row = .exhausted) :
    db = db' ∨ (Recoverable stale row ∧ m ≤ row.deliveryAttempts ∧
      db'.job? stale.jobId = some (row.recovered .exhausted) ∧
      (∃ e ∈ db'.eventsOf stale.jobId, e.Exhausts) ∧
      (db'.message? ("dlq:" ++ stale.jobId.val ++ ":" ++ toString stale.deliveryAttempts)).isSome =
        true) := by
  rcases recoverStaleJobWith_commits h with ⟨_, hsame⟩ |
    ⟨row₀, worker, hc, db₁, _, hrow₀, hfence, _, _, _, hrel, _, _, hjobs, hevents, _, hmarker⟩
  · exact Or.inl hsame
  · obtain rfl := Option.some.inj (hrow.symm.trans hrow₀)
    obtain ⟨payload, hevents, _⟩ := hevents
    obtain ⟨hj, _⟩ := releaseWorkerCapacity_frame hrel
    refine Or.inr ⟨hfence, ?_, ?_, ?_, ?_⟩
    · rw [hfence.attempts]
      unfold recoveryKind at hkind
      split at hkind
      · cases hkind
      · split at hkind
        · cases hkind
        · omega
    · unfold Db.job?
      rw [hjobs, hj, ← hkind]
      exact Table.row?_put_self _ _ _ _
    · have hlast := List.mem_append_right db₁.events (List.mem_singleton_self (⟨eventId, stale.jobId,
        db₁.nextEventSequence, t.now, (recoveryKind stale m row).eventType,
        some (recoveredState (recoveryKind stale m row) stale), payload⟩ : JobEvent))
      rw [← hevents] at hlast
      exact ⟨_, List.mem_filter.mpr ⟨hlast, decide_eq_true rfl⟩,
        congrArg RecoveryKind.eventType hkind⟩
    · obtain ⟨message, hmessage, _⟩ := hmarker hkind
      rw [hmessage]
      rfl

/-- The row of an exhausted job is parked. -/
theorem JobRow.parked_exhausted (row : JobRow) : (row.recovered .exhausted).Parked := by
  refine ⟨rfl, ?_⟩
  by_cases hs : row.state = .cleaningUp
  · exact Or.inr (Or.inl (by simp [JobRow.recovered, JobRow.toFinalizer, hs]))
  · exact Or.inl (by simp [JobRow.recovered, JobRow.toFinalizer, hs])

/-- **One call**, for the events: an exhausted job stays as recovery left it. -/
theorem Db.Marked.exhausted_step {m : Nat} {db db' : Db} (h : db.Marked m)
    (hdriven : ∀ j row, db.job? j = some row → row.Driven)
    (hr : (repository Op.Issued).Reachable db) {op : Op} {t : DbTime} {out : op.Out}
    (hpermits : db.Permits m op) (hc : (op.tx t).Commits db out db') (j : JobId) (e : JobEvent)
    (he : e ∈ db'.eventsOf j) (hex : e.Exhausts) : ∃ row, db'.job? j = some row ∧ row.Parked ∧
      row.workerId = none ∧ row.pendingOutcome = some .infraFailed ∧ m ≤ row.deliveryAttempts ∧
      ("delivery_attempts", EventValue.number row.deliveryAttempts) ∈ e.payload ∧
      (db'.message? (exhaustionEventKey j row.deliveryAttempts)).isSome = true := by
  have hstep : (repository Op.Issued).step db ⟨op, t, .ok out⟩ db' :=
    repository_step_of_commits hpermits.issued hc
  obtain ⟨l, hevents, hl⟩ := Op.events hc
  obtain ⟨hmem, hj⟩ := List.mem_filter.mp he
  obtain rfl := of_decide_eq_true hj
  rw [hevents] at hmem
  rcases List.mem_append.mp hmem with hold | hnew
  · -- an older event: its parked row rests, and its marker stays
    obtain ⟨row, hrow, hparked, hw, hp, hm, hpay, hsome⟩ :=
      h.exhausted e.jobId e (List.mem_filter.mpr ⟨hold, decide_eq_true rfl⟩) hex
    obtain ⟨row', hrow', hrests⟩ := parked_run hr (.single hstep) hrow hparked
    obtain ⟨message, hmessage⟩ := Option.isSome_iff_exists.mp hsome
    obtain ⟨message', hmessage', _⟩ := (Op.outbox hc).old _ _ hmessage
    refine ⟨row', hrow', hrests.parked, hrests.worker.trans hw, hrests.pending.trans hp, ?_⟩
    rw [hrests.attempts]
    exact ⟨hm, hpay, by rw [hmessage']; rfl⟩
  · -- the event of this call: it is an exhausting recovery
    cases (hl e hnew).2 with
    | created _ htype => exact absurd (hex.symm.trans htype) (RecoveryKind.eventType_ne_queued _)
    | other _ hne => exact absurd hex (hne _)
    | @recovered stale maxDeliver eventId row hcall hjob hrow hfence htype hattempts =>
        subst hcall
        obtain rfl : maxDeliver = m := hpermits.limit
        have hkind := RecoveryKind.eventType_inj (htype.symm.trans hex)
        rcases recovery_exhausts hc hrow hkind with hsame | ⟨_, hm, hrow', _, hmarker⟩
        · -- a lost race appends no event
          rw [← hsame] at hevents
          rw [List.self_eq_append_right.mp hevents] at hnew
          cases hnew
        · have hpos : 0 < row.deliveryAttempts :=
            (hdriven _ _ hrow).claimed (by rw [hfence.lease]; rfl)
          rw [hjob]
          refine ⟨_, hrow', row.parked_exhausted, rfl, rfl, hm, ?_, ?_⟩
          · show ("delivery_attempts", EventValue.number row.deliveryAttempts) ∈ e.payload
            rw [hfence.attempts]
            exact hattempts
          · show (db'.message? (exhaustionEventKey stale.jobId row.deliveryAttempts)).isSome = true
            rw [exhaustionEventKey_pos hpos, hfence.attempts]
            exact hmarker

/-- A new row under a marker key is that of an exhausting recovery. -/
theorem new_marker {m : Nat} {db db' : Db} (hdriven : ∀ j row, db.job? j = some row → row.Driven)
    {op : Op} {t : DbTime} {out : op.Out} (hpermits : db.Permits m op)
    (hc : (op.tx t).Commits db out db') {j : JobId} {a : Nat} {message : OutboxRow}
    (was : db.message? (exhaustionEventKey j a) = none)
    (hm : db'.message? (exhaustionEventKey j a) = some message) :
    ∃ stale row eventId, op = .recoverStaleJob stale m eventId ∧ stale.jobId = j ∧
      db.job? j = some row ∧ Recoverable stale row ∧ recoveryKind stale m row = .exhausted ∧
      db'.job? j = some (row.recovered .exhausted) ∧ max stale.deliveryAttempts 1 = max a 1 ∧
      isMatchingExhaustionMarker (message.intoMessage (exhaustionEventKey j a)) j a = true := by
  cases (Op.outbox hc).new _ _ hm with
  | kept old was' =>
      rw [was] at was'
      cases was'
  | webhook _ _ hweb =>
      obtain ⟨_, rest, hkey⟩ := hweb
      exact absurd hkey exhaustionEventKey_ne_webhook
  | created _ _ _ _ hkey => exact absurd hkey.symm (exhaustionEventKey_ne_job _ _ _)
  | @letter deadLetter headers was _ hcall hkey =>
      by_cases hreason : deadLetter.reason = .attemptsExhausted
      · -- a letter of an exhausted job comes to a taken key
        have htaken := hpermits.marked deadLetter headers _ hcall hreason hkey
        rw [was] at htaken
        cases htaken
      · obtain ⟨rest, hrest⟩ := JobDeadLetter.idempotencyKey_sequence hkey hreason
        exact absurd hrest exhaustionEventKey_ne_sequence
  | @marker stale maxDeliver eventId row _ _ hcall _ hrow hfence hkind hrow' hkey hsub hpay =>
      subst hcall
      obtain rfl : maxDeliver = m := hpermits.limit
      have hpos : 0 < stale.deliveryAttempts :=
        hfence.attempts ▸ (hdriven _ _ hrow).claimed (by rw [hfence.lease]; rfl)
      rw [← exhaustionEventKey_pos hpos] at hkey
      obtain ⟨rfl, hmax⟩ := exhaustionEventKey_inj hkey
      obtain ⟨deadLetter, hpay, hreason, hjob, hattempt⟩ := hpay
      refine ⟨stale, row, eventId, rfl, rfl, hrow, hfence, hkind, hrow', hmax.symm, ?_⟩
      simp only [isMatchingExhaustionMarker, OutboxRow.intoMessage, hsub, hpay]
      simp [hreason, hjob, hattempt]
      omega

/-- **One call**, for the rows: a marker stays one, and a new one comes with its event. -/
theorem Db.Marked.marker_step {m : Nat} {db db' : Db} (h : db.Marked m)
    (hdriven : ∀ j row, db.job? j = some row → row.Driven)
    (hr : (repository Op.Issued).Reachable db) {op : Op} {t : DbTime} {out : op.Out}
    (hpermits : db.Permits m op) (hc : (op.tx t).Commits db out db') (j : JobId) (a : Nat)
    (message : OutboxRow) (hm : db'.message? (exhaustionEventKey j a) = some message) :
    isMatchingExhaustionMarker (message.intoMessage (exhaustionEventKey j a)) j a = true ∧
      ∃ row, db'.job? j = some row ∧ max row.deliveryAttempts 1 = max a 1 ∧
        ∃ e ∈ db'.eventsOf j, e.Exhausts := by
  have hstep : (repository Op.Issued).step db ⟨op, t, .ok out⟩ db' :=
    repository_step_of_commits hpermits.issued hc
  cases was : db.message? (exhaustionEventKey j a) with
  | some old =>
      obtain ⟨message', hm', keeps⟩ := (Op.outbox hc).old _ _ was
      obtain rfl := Option.some.inj (hm'.symm.trans hm)
      obtain ⟨hmatch, row, hrow, hmax, e, he, hex⟩ := h.marker j a old was
      refine ⟨?_, ?_⟩
      · simp only [isMatchingExhaustionMarker, OutboxRow.intoMessage, keeps.subject, keeps.payload]
          at hmatch ⊢
        exact hmatch
      · obtain ⟨row₀, hrow₀, hparked, _⟩ := h.exhausted j e he hex
        obtain rfl := Option.some.inj (hrow.symm.trans hrow₀)
        obtain ⟨row', hrow', hrests⟩ := parked_run hr (.single hstep) hrow hparked
        exact ⟨row', hrow', by rw [hrests.attempts]; exact hmax, e, Op.mem_eventsOf hc he, hex⟩
  | none =>
      obtain ⟨stale, row, eventId, rfl, rfl, hrow, hfence, hkind, hrow', hmax, hmatch⟩ :=
        new_marker hdriven hpermits hc was hm
      refine ⟨hmatch, _, hrow', ?_, ?_⟩
      · show max row.deliveryAttempts 1 = max a 1
        rw [hfence.attempts, hmax]
      · rcases recovery_exhausts hc hrow hkind with hsame | ⟨_, _, _, he, _⟩
        · rw [hsame, hm] at was
          cases was
        · exact he

/-- **Markers.** Every reachable database is marked. -/
theorem marked_invariant (m : Nat) : (components m).Invariant (Db.Marked m) := by
  refine TSys.Inductive.invariant ⟨?_, ?_⟩
  · rintro _ ⟨catalog, rfl⟩
    refine ⟨fun j e he => ?_, fun j a message hm => ?_⟩
    · cases he
    · cases hm
  · intro db call db' hr ih hstep
    have hr' := components_reachable hr
    have hdriven := driven_invariant db hr'
    rcases repository_step_cases (components_step hstep) with ⟨_, _, hc⟩ | ⟨_, rfl⟩
    · exact ⟨ih.exhausted_step hdriven hr' hstep.1 hc, ih.marker_step hdriven hr' hstep.1 hc⟩
    · exact ih

/-! ## Letters of exhausted jobs -/

/-- A letter of an exhausted job is under the marker key of its job and attempt. -/
def Db.LettersKeyed (db : Db) : Prop := ∀ key message deadLetter,
  db.message? key = some message → message.subject = jobsDeadSubject →
    message.payload = .jobDeadLetter deadLetter → deadLetter.reason = .attemptsExhausted →
      ∃ j, deadLetter.jobId = some j ∧ key = exhaustionEventKey j deadLetter.attempt

theorem lettersKeyed_invariant (m : Nat) : (components m).Invariant Db.LettersKeyed := by
  refine TSys.Inductive.invariant ⟨?_, ?_⟩
  · rintro _ ⟨catalog, rfl⟩ key message deadLetter hm
    cases hm
  · intro db call db' hr ih hstep key message deadLetter hm hsub hpay hreason
    rcases repository_step_cases (components_step hstep) with ⟨_, _, hc⟩ | ⟨_, rfl⟩
    · cases (Op.outbox hc).new _ _ hm with
      | kept old was keeps =>
          exact ih key old deadLetter was (keeps.subject ▸ hsub) (keeps.payload ▸ hpay) hreason
      | webhook _ _ hweb =>
          rw [hweb.1] at hsub
          exact absurd hsub (by decide)
      | created _ _ _ _ _ _ hpay' =>
          rw [hpay'] at hpay
          cases hpay
      | @marker stale _ _ row _ _ _ _ hrow hfence _ _ hkey _ hpay' =>
          obtain ⟨deadLetter', hpay', _, hjob, hattempt⟩ := hpay'
          obtain rfl := OutboxPayload.jobDeadLetter.inj (hpay'.symm.trans hpay)
          have hpos : 0 < stale.deliveryAttempts := by
            have hdriven := driven_invariant db (components_reachable hr) _ _ hrow
            exact hfence.attempts ▸ hdriven.claimed (by rw [hfence.lease]; rfl)
          refine ⟨stale.jobId, hjob, ?_⟩
          rw [hattempt, exhaustionEventKey_pos hpos]
          exact hkey
      | letter _ _ _ hkey _ hpay' =>
          obtain rfl := OutboxPayload.jobDeadLetter.inj (hpay'.symm.trans hpay)
          exact JobDeadLetter.idempotencyKey_exhausted hkey hreason
    · exact ih key message deadLetter hm hsub hpay hreason

/-- At most one letter of an exhausted job is in the outbox, under the key its readers use. -/
theorem exhausted_letter_key {m : Nat} {db : Db} (hr : (components m).Reachable db) {key : String}
    {message : OutboxRow} {deadLetter : JobDeadLetter} (hm : db.message? key = some message)
    (hsub : message.subject = jobsDeadSubject) (hpay : message.payload = .jobDeadLetter deadLetter)
    (hreason : deadLetter.reason = .attemptsExhausted) : ∃ j row, deadLetter.jobId = some j ∧
      db.job? j = some row ∧ key = exhaustionEventKey j row.deliveryAttempts := by
  obtain ⟨j, hj, rfl⟩ := lettersKeyed_invariant m db hr key message deadLetter hm hsub
    hpay hreason
  obtain ⟨_, row, hrow, hmax, _⟩ := (marked_invariant m db hr).marker j _ message hm
  refine ⟨j, row, hj, hrow, ?_⟩
  rw [← exhaustionEventKey_max, ← hmax, exhaustionEventKey_max]

/-! ## Jobs that were given up -/

/-- A live job without a lease ends as `infra_failed` only when recovery gave up on it. -/
def Db.GivenUp (db : Db) : Prop := ∀ j row, db.job? j = some row → row.leaseId = none →
  row.pendingOutcome = some .infraFailed → row.state.isTerminal = false →
    ∃ e ∈ db.eventsOf j, e.Exhausts

/-- **One change.** The change is an exhausting recovery, or the row was one of a job that
was given up before. -/
theorem RowChange.given_up {m : Nat} {db : Db} {op : Op} {t : DbTime} {j : JobId}
    {old : Option JobRow} {new : JobRow} (h : RowChange op t j old new)
    (hpermits : db.Permits m op) (hold : ∀ row ∈ old, db.job? j = some row ∧ row.Shape)
    (hlease : new.leaseId = none) (hpending : new.pendingOutcome = some .infraFailed)
    (hlive : new.state.isTerminal = false) :
    (∃ row ∈ old, row.leaseId = none ∧ row.pendingOutcome = some .infraFailed ∧
      row.state.isTerminal = false) ∨
      ∃ stale eventId, ∃ row ∈ old, op = .recoverStaleJob stale m eventId ∧ stale.jobId = j ∧
        recoveryKind stale m row = .exhausted := by
  cases h with
  | create => cases hpending
  | cancel => cases hpending
  | claim => cases hlease
  | @transition _ source target evidence lease payload eventId _ row hval hguard =>
      obtain ⟨hsource, hsame, hheld⟩ := transitionGuard_iff.mp hguard
      have hlease' : (if target.terminalOutcome.isSome then none else row.leaseId) = none := hlease
      have hends : target.terminalOutcome = none := by
        have htarget : target.isTerminal = false := hlive
        cases target <;> first | rfl | cases htarget
      have hnone : row.leaseId = none := by
        rw [hends] at hlease'
        exact hlease'
      cases lease with
      | some g =>
          rw [(hheld g rfl).2.1] at hnone
          cases hnone
      | none =>
          left
          obtain ⟨hedge, houtcome⟩ := hpermits.issued
          rcases hedge with ⟨rfl, rfl⟩ | ⟨_, ht⟩
          · have hsome := (hold row rfl).2.pending (Or.inr (Or.inl hsource))
            have hmerged : evidence.pendingOutcome.or row.pendingOutcome = some .infraFailed :=
              hpending
            refine ⟨row, rfl, hnone, ?_, by rw [hsource]; rfl⟩
            rcases hsame with h | h | h
            · rcases houtcome with ho | ho <;> rw [h] at ho <;> cases ho
            · rw [h] at hsome
              cases hsome
            · rw [← h, Option.or_self] at hmerged
              exact hmerged
          · rw [hends] at ht
            rcases houtcome with ho | ho <;> rw [ho] at ht <;> cases ht
  | @result result _ _ row hguard =>
      have hheld := (resultGuard_iff.mp hguard).2.1
      have hsame : row.leaseId = none := hlease
      rw [hsame] at hheld
      cases hheld
  | @heartbeat _ _ _ _ row _ _ hguard =>
      have hheld := (extendGuard_iff.mp hguard).2.1
      have hsame : row.leaseId = none := hlease
      rw [hsame] at hheld
      cases hheld
  | @recover stale maxDeliver eventId _ row hfence =>
      right
      obtain rfl : maxDeliver = m := hpermits.limit
      refine ⟨stale, eventId, row, rfl, rfl, rfl, ?_⟩
      cases hkind : recoveryKind stale maxDeliver row with
      | requeue =>
          rw [hkind] at hpending
          cases hpending
      | cancelling =>
          rw [hkind] at hpending
          cases hpending
      | exhausted => rfl

theorem givenUp_invariant (m : Nat) : (components m).Invariant Db.GivenUp := by
  refine TSys.Inductive.invariant ⟨?_, ?_⟩
  · rintro _ ⟨catalog, rfl⟩ j row hrow
    cases hrow
  · intro db call db' hr ih hstep j new hnew hlease hpending hlive
    have hr' := components_reachable hr
    rcases repository_step_cases (components_step hstep) with ⟨_, _, hc⟩ | ⟨_, rfl⟩
    · rcases Op.rows hc j with ⟨hsame, hevents⟩ | ⟨row, hrow, hchange⟩
      · rw [hevents]
        exact ih j new (hsame ▸ hnew) hlease hpending hlive
      · obtain rfl := Option.some.inj (hrow.symm.trans hnew)
        rcases hchange.given_up hstep.1
            (fun old hold => ⟨hold, shape_invariant _ db hr' j old hold⟩) hlease hpending hlive with
          ⟨old, hold, hl, hp, hs⟩ | ⟨stale, eventId, old, hold, hop, rfl, hkind⟩
        · obtain ⟨e, he, hex⟩ := ih j old hold hl hp hs
          exact ⟨e, Op.mem_eventsOf hc he, hex⟩
        · obtain ⟨op, t, answer⟩ := call
          have hop' : op = .recoverStaleJob stale m eventId := hop
          subst hop'
          rcases recovery_exhausts hc hold hkind with hsame | ⟨_, _, _, he, _⟩
          · subst hsame
            exact ih stale.jobId row hnew hlease hpending hlive
          · exact he
    · exact ih j new hnew hlease hpending hlive

/-- The job is on the recovery-exhausted path: without a lease, `infra_failed` pending or
final, as an exhausting recovery of its present attempt left it. -/
def Db.RecoveryExhausted (db : Db) (j : JobId) (row : JobRow) : Prop :=
  row.leaseId = none ∧
    (row.pendingOutcome = some .infraFailed ∨ row.outcome = some .infraFailed) ∧
    ∃ e ∈ db.eventsOf j, e.Exhausts ∧
      ("delivery_attempts", EventValue.number row.deliveryAttempts) ∈ e.payload

/-- A row under the marker key of a job's present attempt is there for the jobs on the
recovery-exhausted path, and only for these. -/
theorem Db.Marked.iff {m : Nat} {db : Db} (h : db.Marked m) {j : JobId} {row : JobRow}
    (hrow : db.job? j = some row) : db.RecoveryExhausted j row ↔
      ∃ message, db.message? (exhaustionEventKey j row.deliveryAttempts) = some message ∧
        isMatchingExhaustionMarker
          (message.intoMessage (exhaustionEventKey j row.deliveryAttempts)) j row.deliveryAttempts =
            true := by
  constructor
  · rintro ⟨_, _, e, he, hex, _⟩
    obtain ⟨row', hrow', _, _, _, _, _, hsome⟩ := h.exhausted j e he hex
    obtain rfl := Option.some.inj (hrow.symm.trans hrow')
    obtain ⟨message, hmessage⟩ := Option.isSome_iff_exists.mp hsome
    exact ⟨message, hmessage, (h.marker j _ message hmessage).1⟩
  · rintro ⟨message, hmessage, _⟩
    obtain ⟨_, _, _, _, e, he, hex⟩ := h.marker j _ message hmessage
    obtain ⟨row', hrow', hparked, _, hp, _, hpay, _⟩ := h.exhausted j e he hex
    obtain rfl := Option.some.inj (hrow.symm.trans hrow')
    exact ⟨hparked.lease, Or.inl hp, e, he, hex, hpay⟩

end RunAnywhere
