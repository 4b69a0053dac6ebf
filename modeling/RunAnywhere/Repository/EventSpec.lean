import RunAnywhere.Logic.Cursor
import RunAnywhere.Repository.Run

/-!
# What the operations append

Which event and which webhook rows a committed call leaves behind, exactly:

* **fan-out** — `appendEvent_exact`: one row for each subscription under the key of event and
  webhook, and no other row;
* **operations** — the `_logs` lemmas: a call that wrote a job appended one event of it with
  the state of its new row, flagged as a change iff the state changed;
* **reading** — `listJobEventsAfter_commits`: a page is the front of what is unread.
-/

namespace RunAnywhere

open Logic

/-! ## Fan-out -/

/-- The event key of a webhook delivery. -/
def webhookKey (e : JobEventId) (w : WebhookId) : String := "webhook:" ++ e.val ++ ":" ++ w.val

theorem webhookKey_inj {e : JobEventId} {w w' : WebhookId} (h : webhookKey e w = webhookKey e w') :
    w = w' := by
  have hl := congrArg String.toList h
  simp only [webhookKey, String.toList_append] at hl
  exact Ident.ext (String.toList_inj.mp (List.append_cancel_left hl))

/-- The row delivers the event to a subscriber. -/
structure OutboxRow.Delivers (row : OutboxRow) (event : JobEvent) (hook : WebhookId × Webhook) :
    Prop where
  subject : row.subject = webhookSubject
  payload : row.payload = .webhook ⟨hook.1, hook.2.url, event⟩

/-- **Fan-out.** Each subscriber gets its row, and no other key changes. -/
theorem insertWebhookRows_exact {event : JobEvent} {t : DbTime}
    {hooks : List (WebhookId × Webhook)} {db db' : Db} {u : Unit}
    (h : (insertWebhookRows event t hooks).Commits db u db')
    (hnodup : (hooks.map Prod.fst).Nodup)
    (hfresh : ∀ hook ∈ hooks, db.message? (webhookKey event.id hook.1) = none) :
    (∀ hook ∈ hooks, ∃ row, db'.message? (webhookKey event.id hook.1) = some row ∧
      row.Delivers event hook) ∧
    ∀ key, (∀ hook ∈ hooks, key ≠ webhookKey event.id hook.1) →
      db'.message? key = db.message? key := by
  induction hooks generalizing db with
  | nil =>
      obtain ⟨_, rfl⟩ := Tx.pure_commits.mp h
      exact ⟨fun hook hmem => absurd hmem List.not_mem_nil, fun _ _ => rfl⟩
  | cons hook rest ih =>
      obtain ⟨id, webhook⟩ := hook
      simp only [insertWebhookRows] at h
      obtain ⟨out, db₁, hins, hrest⟩ := Tx.bind_commits.mp h
      rw [List.map_cons, List.nodup_cons] at hnodup
      have hne : ∀ other ∈ rest, webhookKey event.id other.1 ≠ webhookKey event.id id := by
        intro other hmem heq
        exact hnodup.1 (List.mem_map.mpr ⟨other, hmem, webhookKey_inj heq⟩)
      have hkey : db.message? (webhookKey event.id id) = none := hfresh _ List.mem_cons_self
      rcases insertOutbox_commits hins with ⟨_, _, hsome⟩ |
        ⟨row, hc, _, _, hsubject, hpayload, _, _, _, _, rfl⟩
      · have hsome : (db.message? (webhookKey event.id id)).isSome = true := hsome
        rw [hkey] at hsome
        cases hsome
      · have hget := fun key => Db.message?_putMessage db (webhookKey event.id id) row hc
          (db.nextOutboxId + 1) key
        obtain ⟨hadded, hother⟩ := ih hrest hnodup.2 fun other hmem => by
          have hrow := hget (webhookKey event.id other.1)
          rw [if_neg (hne other hmem)] at hrow
          exact hrow.trans (hfresh other (List.mem_cons_of_mem _ hmem))
        refine ⟨fun other hmem => ?_, fun key hk => ?_⟩
        · rcases List.mem_cons.mp hmem with rfl | hmem
          · refine ⟨row, ?_, hsubject, hpayload⟩
            rw [hother _ fun o ho heq => hne o ho heq.symm]
            exact (hget _).trans (if_pos rfl)
          · exact hadded other hmem
        · rw [hother key fun o ho => hk o (List.mem_cons_of_mem _ ho)]
          exact (hget key).trans (if_neg (hk _ List.mem_cons_self))

/-- A webhook subscribes once. -/
theorem Db.subscriptions_nodup (db : Db) (j : JobId) :
    ((db.subscriptions j).map Prod.fst).Nodup := by
  unfold Db.subscriptions
  split
  · exact List.nodup_nil
  · refine ((List.perm_insertionSort _ _).map Prod.fst).nodup_iff.mpr ?_
    exact db.catalog.webhooks.nodup.sublist (List.filter_sublist.map _)

/-- The webhook rows an event adds. -/
structure Notifies (event : JobEvent) (hooks : List (WebhookId × Webhook)) (db db' : Db) :
    Prop where
  added : ∀ hook ∈ hooks, db.message? (webhookKey event.id hook.1) = none ∧
    ∃ row, db'.message? (webhookKey event.id hook.1) = some row ∧ row.Delivers event hook
  only : ∀ key row, db.message? key = none → db'.message? key = some row →
    row.subject = webhookSubject → ∃ hook ∈ hooks, key = webhookKey event.id hook.1

/-- **Event.** An appended event is new, and is delivered to every subscriber iff it
records a change. -/
theorem appendEvent_exact {id : JobEventId} {j : JobId} {eventType : String} {state : JobState}
    {changed : Bool} {payload : List (String × EventValue)} {t : DbTime} {db db' : Db}
    {event : JobEvent}
    (h : (appendEvent id j eventType (some state) changed payload t).Commits db event db')
    (hkeys : ∀ e w, (db.message? (webhookKey e w)).isSome = true → ∃ old ∈ db.events, old.id = e) :
    Notifies event (if changed then db.subscriptions j else []) db db' ∧
    ∀ key row, db'.message? key = some row →
      db.message? key = some row ∨ ∃ w, key = webhookKey event.id w := by
  simp only [appendEvent, Tx.bind_commits, Tx.require_commits, Tx.read_commits] at h
  obtain ⟨_, _, ⟨_, rfl⟩, _, _, ⟨_, rfl⟩, _, _, ⟨_, rfl⟩, _, _, ⟨_, rfl⟩, event', db₁, hins, h⟩ := h
  unfold Tx.Commits insertEvent at hins
  split at hins
  · cases hins
  next hfresh =>
  have hevent : event'.id = id := by cases hins; rfl
  have hmessage : ∀ key, db₁.message? key = db.message? key := by
    intro key
    cases hins
    rfl
  have hnone : ∀ w, db.message? (webhookKey id w) = none := by
    intro w
    by_contra hsome
    obtain ⟨old, hmem, hold⟩ := hkeys id w (Option.isSome_iff_ne_none.mpr hsome)
    exact hfresh (List.any_eq_true.mpr ⟨old, hmem, by simp [hold]⟩)
  cases changed with
  | false =>
      simp only [Bool.false_eq_true, if_false, Tx.pure_commits] at h ⊢
      obtain ⟨rfl, rfl⟩ := h
      refine ⟨⟨fun hook hmem => absurd hmem List.not_mem_nil, fun key row hk hk' => ?_⟩,
        fun key row hk => Or.inl (hmessage key ▸ hk)⟩
      rw [hmessage, hk] at hk'
      cases hk'
  | true =>
      simp only [if_true, insertWebhookEventOutbox, Tx.bind_commits, Tx.read_commits,
        Tx.pure_commits] at h ⊢
      obtain ⟨_, db₂, ⟨hooks, _, ⟨hhooks, rfl⟩, hweb⟩, rfl, rfl⟩ := h
      have hsubs : hooks = db.subscriptions j := by
        subst hhooks
        cases hins
        rfl
      subst hsubs
      obtain ⟨hadded, hother⟩ := insertWebhookRows_exact hweb (db.subscriptions_nodup j)
        fun hook _ => by rw [hmessage, hevent]; exact hnone hook.1
      have hcase : ∀ key row, db₂.message? key = some row → db.message? key = some row ∨
          ∃ hook ∈ db.subscriptions j, key = webhookKey event'.id hook.1 := by
        intro key row hk
        by_cases hmem : ∃ hook ∈ db.subscriptions j, key = webhookKey event'.id hook.1
        · exact Or.inr hmem
        · rw [hother key fun hook hin heq => hmem ⟨hook, hin, heq⟩, hmessage] at hk
          exact Or.inl hk
      refine ⟨⟨fun hook hmem => ⟨by rw [hevent]; exact hnone _, hadded hook hmem⟩, ?_⟩, ?_⟩
      · intro key row hk hk' _
        rcases hcase key row hk' with hold | hnew
        · rw [hk] at hold
          cases hold
        · exact hnew
      · intro key row hk
        rcases hcase key row hk with hold | ⟨hook, _, heq⟩
        · exact Or.inl hold
        · exact Or.inr ⟨hook.1, heq⟩

/-! ## Operations -/

/-- A row of the outbox that is no webhook delivery: a queue message or a dead letter. -/
def IsPlainRow (key : String) (row : OutboxRow) : Prop :=
  row.subject ≠ webhookSubject ∧
    ((∃ j : JobId, key = j.val) ∨ ∃ letter : JobDeadLetter, letter.idempotencyKey = .ok key)

/-- Nothing but job and worker rows differs. -/
structure SameLog (db db' : Db) : Prop where
  catalog : db'.catalog = db.catalog
  events : db'.events = db.events
  sequence : db'.nextEventSequence = db.nextEventSequence
  outbox : db'.outbox = db.outbox

/-- A call appended one event of `j` that carries `state`, with webhooks if `changed`. -/
inductive Logs (j : JobId) (state : JobState) (changed : Bool) (db db' : Db) : Prop
  | intro {db₁ db₂ : Db} {id : JobEventId} {eventType : String}
      {payload : List (String × EventValue)} {t : DbTime} {event : JobEvent}
      (append : (appendEvent id j eventType (some state) changed payload t).Commits db₁ event db₂)
      (before : SameLog db db₁)
      (after : OnlyOutbox db₂ db') (plain : OutboxGrew IsPlainRow db₂ db')

theorem createJobWithOutbox_logs {id : JobId} {eventId : JobEventId} {request : CreateJobRequest}
    {key : String} {headers : List (String × String)} {t : DbTime} {db db' : Db}
    {created : CreatedJob}
    (h : (createJobWithOutbox id eventId request key headers t).Commits db created db')
    (hc : created.wasCreated = true) : Logs id .queued true db db' := by
  simp only [createJobWithOutbox, validateIdempotencyKey, Tx.bind_commits, Tx.require_commits,
    Tx.read_commits] at h
  obtain ⟨_, _, ⟨_, rfl⟩, found, _, ⟨_, rfl⟩, h⟩ := h
  cases found with
  | some x =>
      obtain ⟨existing, row⟩ := x
      obtain ⟨rfl, _⟩ := Tx.pure_commits.mp h
      cases hc
  | none =>
      simp only [Tx.bind_commits, Tx.ofExcept_commits, Tx.pure_commits] at h
      obtain ⟨profile, _, hadmit, _, _, ⟨_, rfl⟩, _, db₁, hins, event, db₂, hev, _, db₃, hout,
        rfl, rfl⟩ := h
      obtain ⟨rfl, _⟩ := admitJob_commits hadmit
      obtain ⟨_, _, rfl⟩ := insertJob_commits hins
      simp only [insertJobQueuedOutbox, validateTraceHeaders, Tx.bind_commits,
        Tx.require_commits] at hout
      obtain ⟨_, _, ⟨_, rfl⟩, _, _, hq, _, rfl⟩ := hout
      refine .intro hev ⟨rfl, rfl, rfl, rfl⟩ (insertOutbox_only hq) (insertOutbox_grew hq ?_)
      intro row hsubject _
      rw [IsPlainRow, hsubject]
      exact ⟨by decide, Or.inl ⟨id, rfl⟩⟩

theorem requestJobCancellation_logs {j : JobId} {eventId : JobEventId} {t : DbTime}
    {db db' : Db} {out : JobMutation}
    (h : (requestJobCancellation j eventId t).Commits db out db') (hc : out.wasChanged = true) :
    ∃ row, db.job? j = some row ∧
      Logs j .collectingArtifacts (decide (row.state ≠ .collectingArtifacts)) db db' := by
  simp only [requestJobCancellation, Tx.bind_commits, Tx.okOr_commits, Tx.require_commits,
    lockJob_commits] at h
  obtain ⟨_, _, ⟨rfl, rfl⟩, row, _, ⟨hrow, rfl⟩, _, _, ⟨_, rfl⟩, h⟩ := h
  refine ⟨row, hrow, ?_⟩
  cases hp : row.pendingOutcome with
  | some outcome =>
      rw [hp] at h
      cases outcome with
      | cancelled =>
          obtain ⟨rfl, _⟩ := Tx.pure_commits.mp h
          cases hc
      | passed => exact absurd h Tx.fail_commits
      | failed => exact absurd h Tx.fail_commits
      | timedOut => exact absurd h Tx.fail_commits
      | infraFailed => exact absurd h Tx.fail_commits
  | none =>
      rw [hp] at h
      simp only [Tx.bind_commits, Tx.okOr_commits, Tx.pure_commits] at h
      obtain ⟨updated, db₁, hup, row', _, ⟨hsome, rfl⟩, event, db₂, hev, rfl, rfl⟩ := h
      rcases updateJob_commits hup with ⟨rfl, _⟩ | ⟨_, _, _, _, rfl, rfl⟩
      · cases hsome
      · exact .intro hev ⟨rfl, rfl, rfl, rfl⟩ (.refl _) (.refl _ _)

theorem claimJobWithOptions_logs {j : JobId} {w : WorkerId} {l : LeaseId} {expires : Time}
    {options : ClaimJobOptions} {eventId : JobEventId} {t : DbTime} {db db' : Db} {claim : JobClaim}
    (h : (claimJobWithOptions j w l expires options eventId t).Commits db claim db') :
    Logs j .claimed true db db' := by
  simp only [claimJobWithOptions, Tx.bind_commits, Tx.okOr_commits, Tx.require_commits,
    Tx.pure_commits] at h
  obtain ⟨_, _, hadmit, reserved, db₁, hres, _, _, ⟨hrsome, rfl⟩, claimed, db₂, hup, h⟩ := h
  obtain ⟨row', _, ⟨hsome, rfl⟩, event, db₃, hev, rfl, rfl⟩ := h
  obtain ⟨rfl, _⟩ := admitClaim_commits hadmit
  rcases updateWorker_commits hres with ⟨rfl, _⟩ | ⟨_, _, _, _, rfl, rfl⟩
  · cases hrsome
  rcases updateJob_commits hup with ⟨rfl, _⟩ | ⟨_, _, _, _, rfl, rfl⟩
  · cases hsome
  exact .intro hev ⟨rfl, rfl, rfl, rfl⟩ (.refl _) (.refl _ _)

theorem transitionJobState_logs {j : JobId} {source target : JobState}
    {evidence : TransitionEvidence} {lease : Option LeaseGuard}
    {payload : List (String × EventValue)} {eventId : JobEventId} {t : DbTime} {db db' : Db}
    {job : Job}
    (h : (transitionJobState j source target evidence lease payload eventId t).Commits db job db') :
    Logs j target (decide (source ≠ target)) db db' := by
  simp only [transitionJobState, transitionJobStateWith, Tx.bind_commits, Tx.okOr_commits,
    Tx.ofExcept_commits] at h
  obtain ⟨_, _, ⟨_, rfl⟩, updated, db₀, hup, row', _, ⟨hsome, rfl⟩, h⟩ := h
  rcases updateJob_commits hup with ⟨rfl, _⟩ | ⟨row, hc, _, _, rfl, rfl⟩
  · cases hsome
  split at h
  · -- a terminal target releases the owner first
    split at h
    · simp only [Tx.bind_commits, Tx.pure_commits] at h
      obtain ⟨_, db₁, hrel, event, _, hev, rfl, rfl⟩ := h
      obtain ⟨_, hevents, hout, hcat, hseq⟩ := releaseWorkerCapacity_frame hrel
      exact .intro hev ⟨hcat, hevents, hseq, hout⟩ (.refl _) (.refl _ _)
    · simp only [Tx.bind_commits, Tx.pure_commits] at h
      obtain ⟨event, _, hev, rfl, rfl⟩ := h
      exact .intro hev ⟨rfl, rfl, rfl, rfl⟩ (.refl _) (.refl _ _)
  · simp only [Tx.bind_commits, Tx.pure_commits] at h
    obtain ⟨event, _, hev, rfl, rfl⟩ := h
    exact .intro hev ⟨rfl, rfl, rfl, rfl⟩ (.refl _) (.refl _ _)

theorem recordJobResult_logs {result : JobResult} {eventId : JobEventId} {t : DbTime}
    {db db' : Db} {job : Job} (h : (recordJobResult result eventId t).Commits db job db') :
    ∃ row, db.job? result.jobId = some row ∧ Logs result.jobId row.state false db db' := by
  simp only [recordJobResult, Tx.bind_commits, Tx.okOr_commits, Tx.require_commits,
    lockJob_commits] at h
  obtain ⟨_, _, ⟨_, rfl⟩, _, _, ⟨_, rfl⟩, _, _, ⟨rfl, rfl⟩, current, _, ⟨hrow, rfl⟩, h⟩ := h
  obtain ⟨_, _, ⟨_, rfl⟩, _, _, ⟨_, rfl⟩, _, _, ⟨_, rfl⟩, h⟩ := h
  refine ⟨current, hrow, ?_⟩
  -- the comparison with a pending outcome reads only
  split at h
  · simp only [Tx.bind_commits, Tx.okOr_commits, Tx.pure_commits, Tx.require_commits] at h
    obtain ⟨_, _, ⟨_, rfl⟩, _, _, hver, _, _, ⟨_, rfl⟩, updated, _, hup, h⟩ := h
    obtain ⟨row', _, ⟨hsome, rfl⟩, event, _, hev, rfl, rfl⟩ := h
    obtain rfl := verifyArtifactIds_commits hver
    rcases updateJob_commits hup with ⟨rfl, _⟩ | ⟨_, _, _, _, rfl, rfl⟩
    · cases hsome
    · exact .intro hev ⟨rfl, rfl, rfl, rfl⟩ (.refl _) (.refl _ _)
  · simp only [Tx.bind_commits, Tx.okOr_commits, Tx.pure_commits, Tx.require_commits] at h
    obtain ⟨_, _, hver, _, _, ⟨_, rfl⟩, updated, _, hup, h⟩ := h
    obtain ⟨row', _, ⟨hsome, rfl⟩, event, _, hev, rfl, rfl⟩ := h
    obtain rfl := verifyArtifactIds_commits hver
    rcases updateJob_commits hup with ⟨rfl, _⟩ | ⟨_, _, _, _, rfl, rfl⟩
    · cases hsome
    · exact .intro hev ⟨rfl, rfl, rfl, rfl⟩ (.refl _) (.refl _ _)

/-- A dead letter is a plain row. -/
theorem insertJobDeadLetterOutbox_plain {letter : JobDeadLetter} {headers : List (String × String)}
    {t : DbTime} {db db' : Db} {out : OutboxMessage}
    (h : (insertJobDeadLetterOutbox letter headers t).Commits db out db') :
    OnlyOutbox db db' ∧ OutboxGrew IsPlainRow db db' := by
  obtain ⟨key, row, hkey, _, _, _, honly, hgrew⟩ := insertJobDeadLetterOutbox_commits h
  refine ⟨honly, OutboxGrew.mono (fun key' row' hnew => ?_) hgrew⟩
  obtain ⟨rfl, hsubject, _⟩ := hnew
  rw [IsPlainRow, hsubject]
  exact ⟨by decide, Or.inr ⟨letter, hkey⟩⟩

theorem recoverStaleJob_logs {stale : StaleJob} {maxDeliver : Nat} {eventId : JobEventId}
    {t : DbTime} {db db' : Db} {out : RecoveryDisposition}
    (h : (recoverStaleJob stale maxDeliver eventId t).Commits db out db') (hout : out ≠ .lostRace) :
    ∃ row, db.job? stale.jobId = some row ∧
      Logs stale.jobId (recoveredState (recoveryKind stale maxDeliver row) stale)
        (decide (recoveredState (recoveryKind stale maxDeliver row) stale ≠ stale.state)) db db' := by
  simp only [recoverStaleJob, recoverStaleJobWith, Tx.bind_commits, Tx.require_commits,
    lockJob_commits] at h
  obtain ⟨_, _, ⟨_, rfl⟩, found, _, ⟨hfound, rfl⟩, h⟩ := h
  have lost : ∀ {d : RecoveryDisposition} {a b : Db},
      (pure .lostRace : RepoTx RecoveryDisposition).Commits a d b → d = .lostRace :=
    fun hp => (Tx.pure_commits.mp hp).1.symm
  cases found with
  | none => exact absurd (lost h) hout
  | some row =>
      refine ⟨row, hfound, ?_⟩
      simp only [Tx.bind_commits] at h
      obtain ⟨matched, _, hmatched, h⟩ := h
      obtain ⟨rfl, _⟩ := snapshotMatches_commits hmatched
      split at h
      · exact absurd (lost h) hout
      simp only [Tx.bind_commits, lockWorker_commits] at h
      obtain ⟨worker?, _, ⟨_, rfl⟩, h⟩ := h
      cases worker? with
      | none => exact absurd (lost h) hout
      | some worker =>
          simp only at h
          split at h
          · exact absurd (lost h) hout
          simp only [Tx.bind_commits] at h
          obtain ⟨updated, db₀, hup, h⟩ := h
          rcases updateJob_commits hup with ⟨rfl, rfl, _⟩ | ⟨row₀, hc, _, _, rfl, rfl⟩
          · exact absurd (lost h) hout
          simp only [Tx.bind_commits] at h
          obtain ⟨_, db₁, hrel, event, db₂, hev, h⟩ := h
          obtain ⟨_, hevents, hout', hcat, hseq⟩ := releaseWorkerCapacity_frame hrel
          have hbefore : SameLog db db₁ := ⟨hcat, hevents, hseq, hout'⟩
          split at h
          · simp only [insertExhaustionMarker, Tx.bind_commits, Tx.ofExcept_commits,
              Tx.pure_commits] at h
            obtain ⟨_, _, ⟨letter, _, ⟨_, rfl⟩, _, _, hins, _, rfl⟩, rfl, rfl⟩ := h
            obtain ⟨honly, hplain⟩ := insertJobDeadLetterOutbox_plain hins
            exact .intro hev hbefore honly hplain
          · obtain ⟨rfl, rfl⟩ := Tx.pure_commits.mp h
            exact .intro hev hbefore (.refl _) (.refl _ _)

/-! ## Reading a log -/

/-- One page of an increasing log: the first unread events, at least one if there are any. -/
theorem listJobEventsAfter_commits {j : JobId} {seen limit : Nat} {db db' : Db}
    {page : List JobEvent} (h : (listJobEventsAfter j seen limit).Commits db page db')
    (hinc : (db.eventsOf j).Pairwise fun e e' => e.sequence < e'.sequence) :
    db' = db ∧ 0 < limit ∧ page = (unread (·.sequence) (db.eventsOf j) seen).take limit := by
  simp only [listJobEventsAfter, checkedLimit, Tx.bind_commits, Tx.ofExcept_commits,
    Tx.require_commits, Tx.read_commits, Bool.and_eq_true, decide_eq_true_eq] at h
  obtain ⟨_, _, ⟨_, rfl⟩, _, _, ⟨⟨hpos, _⟩, rfl⟩, rfl, rfl⟩ := h
  refine ⟨rfl, hpos, ?_⟩
  have hlog : (db.events.filter fun e => decide (e.jobId = j) && decide (seen < e.sequence)) =
      unread (·.sequence) (db.eventsOf j) seen := by
    unfold unread Db.eventsOf
    rw [List.filter_filter]
    congr 1
    funext e
    exact Bool.and_comm _ _
  rw [hlog]
  have hsorted : (unread (·.sequence) (db.eventsOf j) seen).Pairwise
      fun e e' : JobEvent => e.sequence ≤ e'.sequence :=
    (pairwise_unread hinc seen).imp Nat.le_of_lt
  rw [hsorted.insertionSort_eq]

end RunAnywhere
