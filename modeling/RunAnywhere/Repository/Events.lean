import RunAnywhere.Repository.Outbox

/-!
# Job events

`append_event` and its webhook fan-out (`repository/src/jobs.rs`). Every
lifecycle operation appends exactly one event in the transaction of its row
change; an event that records a state change also queues one webhook delivery
for each active subscription of the job's project. Neither touches the job and
worker tables (`appendEvent_commits`).
-/

namespace RunAnywhere

open Logic

/-- The active `job_state_changed` subscriptions of a job's project, by id. -/
def Db.subscriptions (db : Db) (j : JobId) : List (WebhookId × Webhook) :=
  match db.job? j with
  | none => []
  | some job =>
      (db.catalog.webhooks.rows.filter fun p =>
        decide (p.2.projectId = job.projectId) && p.2.active &&
          p.2.events.contains .jobStateChanged).insertionSort fun p q => p.1.val ≤ q.1.val

/-- One `INSERT … ON CONFLICT (event_key) DO NOTHING` for each subscription. -/
def insertWebhookRows (event : JobEvent) (t : DbTime) : List (WebhookId × Webhook) → RepoTx Unit
  | [] => pure ()
  | (id, webhook) :: rest => do
      let _ ← insertOutbox ("webhook:" ++ event.id.val ++ ":" ++ id.val) webhookSubject
        (.webhook ⟨id, webhook.url, event⟩) [] t
      insertWebhookRows event t rest

/-- `insert_webhook_event_outbox`. -/
def insertWebhookEventOutbox (event : JobEvent) (t : DbTime) : RepoTx Unit := do
  let webhooks ← .read fun db => db.subscriptions event.jobId
  insertWebhookRows event t webhooks

/-- `INSERT INTO job_events`: the identity column numbers the rows. -/
def insertEvent (id : JobEventId) (j : JobId) (eventType : String) (state : Option JobState)
    (payload : List (String × EventValue)) (t : DbTime) : RepoTx JobEvent := fun db =>
  if db.events.any fun e => e.id = id then .error (.sqlx (.uniqueViolation "job_events_pkey"))
  else
    let event : JobEvent :=
      { id := id, jobId := j, sequence := db.nextEventSequence, timestamp := t.now,
        eventType := eventType, state := state, payload := payload }
    .ok (event, { db with
      events := db.events ++ [event], nextEventSequence := db.nextEventSequence + 1 })

/-- `append_event`; `id` is the random identifier `new_id("evt_")` draws. -/
def appendEvent (id : JobEventId) (j : JobId) (eventType : String) (state : Option JobState)
    (stateChanged : Bool) (payload : List (String × EventValue)) (t : DbTime) :
    RepoTx JobEvent := do
  .require (!isBlank eventType) (.validation "job event type must not be blank")
  let job ← .read fun db => db.job? j
  .require job.isSome (.notFound "job" j.val)
  .require (!(stateChanged && state.isNone))
    (.validation "a state-transition event must include its resulting state")
  let event ← insertEvent id j eventType state payload t
  if stateChanged then insertWebhookEventOutbox event t
  pure event

/-- `append_job_event`: an event of the job that changes no state. -/
def appendJobEvent (id : JobEventId) (j : JobId) (eventType : String) (state : Option JobState)
    (payload : List (String × EventValue)) (t : DbTime) : RepoTx JobEvent :=
  appendEvent id j eventType state false payload t

/-- `list_job_events_after`: `ORDER BY sequence LIMIT n`. -/
def listJobEventsAfter (j : JobId) (afterSequence limit : Nat) : RepoTx (List JobEvent) := do
  let _ ← .ofExcept (checkedI64 "after_sequence" afterSequence)
  checkedLimit limit
  .read fun db =>
    let events := db.events.filter fun e => decide (e.jobId = j) && decide (afterSequence < e.sequence)
    (events.insertionSort fun a b => a.sequence ≤ b.sequence).take limit

/-! ## What appending an event does -/

/-- Identities of outbox rows: below the next one, and each of one key. -/
def OutboxIds (db : Db) : Prop :=
  ∀ key row, db.message? key = some row → row.id < db.nextOutboxId ∧
    ∀ key' row', db.message? key' = some row' → row'.id = row.id → key' = key

/-- The outbox grew by unpublished rows, never leased, that satisfy `New`, and by nothing
else. -/
structure OutboxGrew (New : String → OutboxRow → Prop) (db db' : Db) : Prop where
  rows : ∀ key, db'.message? key = db.message? key ∨
    ∃ row, db.message? key = none ∧ db'.message? key = some row ∧ row.publishedAt = none ∧
      row.lockedBy = none ∧ row.attempts = 0 ∧ New key row
  ids : OutboxIds db → OutboxIds db'

/-- The rows the webhook fan-out inserts. -/
def IsWebhookRow (key : String) (row : OutboxRow) : Prop :=
  row.subject = webhookSubject ∧ ∃ rest, key = "webhook:" ++ rest

theorem OutboxIds.of_eq {db db' : Db} (h : db'.outbox = db.outbox)
    (hn : db'.nextOutboxId = db.nextOutboxId) (hids : OutboxIds db) : OutboxIds db' := by
  unfold OutboxIds Db.message? at hids ⊢
  rw [h, hn]
  exact hids

theorem OutboxGrew.refl (New : String → OutboxRow → Prop) (db : Db) : OutboxGrew New db db :=
  ⟨fun _ => Or.inl rfl, id⟩

theorem OutboxGrew.of_eq {New : String → OutboxRow → Prop} {db db' : Db}
    (h : db'.outbox = db.outbox) (hn : db'.nextOutboxId = db.nextOutboxId) :
    OutboxGrew New db db' :=
  ⟨fun key => Or.inl (by unfold Db.message?; rw [h]), OutboxIds.of_eq h hn⟩

theorem OutboxGrew.mono {New New' : String → OutboxRow → Prop} {db db' : Db}
    (hn : ∀ key row, New key row → New' key row) (h : OutboxGrew New db db') :
    OutboxGrew New' db db' := by
  refine ⟨fun key => ?_, h.ids⟩
  rcases h.rows key with he | ⟨row, hnone, hsome, hp, hl, ha, hk⟩
  · exact Or.inl he
  · exact Or.inr ⟨row, hnone, hsome, hp, hl, ha, hn _ _ hk⟩

theorem OutboxGrew.trans {New : String → OutboxRow → Prop} {a b c : Db}
    (h : OutboxGrew New a b) (k : OutboxGrew New b c) : OutboxGrew New a c := by
  refine ⟨fun key => ?_, fun ha => k.ids (h.ids ha)⟩
  rcases k.rows key with hk | ⟨row, hnone, hsome, hrest⟩
  · rw [hk]; exact h.rows key
  · rcases h.rows key with hh | ⟨row', _, hs', _⟩
    · exact Or.inr ⟨row, hh ▸ hnone, hsome, hrest⟩
    · rw [hs'] at hnone; cases hnone

/-- Growth from a database with the same outbox. -/
theorem OutboxGrew.of_source {New : String → OutboxRow → Prop} {a b c : Db}
    (h : OutboxGrew New b c) (ho : b.outbox = a.outbox) (hn : b.nextOutboxId = a.nextOutboxId) :
    OutboxGrew New a c :=
  (OutboxGrew.of_eq ho hn).trans h

/-- A row that existed before is still there. -/
theorem OutboxGrew.old {New : String → OutboxRow → Prop} {db db' : Db}
    (h : OutboxGrew New db db') {key : String} {row : OutboxRow}
    (hr : db.message? key = some row) : db'.message? key = some row := by
  rcases h.rows key with he | ⟨row', hnone, _⟩
  · rw [he, hr]
  · rw [hnone] at hr; cases hr

/-- A row stored under the next identity keeps identities apart. -/
theorem OutboxIds.insert {db : Db} (hids : OutboxIds db) {key : String} {row : OutboxRow}
    (hc : row.Checks) (hid : row.id = db.nextOutboxId) :
    OutboxIds { db with
      outbox := db.outbox.put key ⟨row, hc⟩, nextOutboxId := db.nextOutboxId + 1 } := by
  have hget := Db.message?_putMessage db key row hc (db.nextOutboxId + 1)
  have hold : ∀ {k r}, k ≠ key → Db.message? { db with
      outbox := db.outbox.put key ⟨row, hc⟩, nextOutboxId := db.nextOutboxId + 1 } k = some r →
      db.message? k = some r := by
    intro k r hk hr
    rw [hget k, if_neg hk] at hr
    exact hr
  have hself : ∀ {r}, Db.message? { db with
      outbox := db.outbox.put key ⟨row, hc⟩, nextOutboxId := db.nextOutboxId + 1 } key = some r →
      r = row := by
    intro r hr
    rw [hget key, if_pos rfl] at hr
    exact (Option.some.inj hr).symm
  intro k r hr
  by_cases hk : k = key
  · subst hk
    obtain rfl := hself hr
    refine ⟨hid ▸ Nat.lt_succ_self _, fun k' r' hr' hsame => ?_⟩
    by_contra hne
    -- an old row has an older identity
    have hlt := (hids k' r' (hold hne hr')).1
    omega
  · have hr₀ := hold hk hr
    refine ⟨Nat.lt_succ_of_lt (hids k r hr₀).1, fun k' r' hr' hsame => ?_⟩
    by_cases hk' : k' = key
    · subst hk'
      obtain rfl := hself hr'
      have hlt := (hids k r hr₀).1
      omega
    · exact (hids k r hr₀).2 k' r' (hold hk' hr') hsame

/-- One insert grows the outbox by the inserted row. -/
theorem insertOutbox_grew {New : String → OutboxRow → Prop} {key subject : String}
    {payload : OutboxPayload} {traceHeaders : List (String × String)} {t : DbTime} {db db' : Db}
    {out : Option OutboxRow}
    (h : (insertOutbox key subject payload traceHeaders t).Commits db out db')
    (hnew : ∀ row : OutboxRow, row.subject = subject → row.payload = payload → New key row) :
    OutboxGrew New db db' := by
  rcases insertOutbox_commits h with ⟨_, rfl, _⟩ |
    ⟨row, hc, _, hnone, hsub, hpay, hpub, hlock, hattempts, hid, rfl⟩
  · exact .refl New _
  · refine ⟨fun key' => ?_, fun hids => hids.insert hc hid⟩
    have hget := Db.message?_putMessage db key row hc (db.nextOutboxId + 1) key'
    by_cases hk : key' = key
    · subst hk
      exact Or.inr ⟨row, hnone, by rw [hget]; simp, hpub, hlock, hattempts,
        hnew row hsub hpay⟩
    · exact Or.inl (by rw [hget, if_neg hk])

/-- An outbox insert leaves every other table alone. -/
structure OnlyOutbox (db db' : Db) : Prop where
  catalog : db'.catalog = db.catalog
  workers : db'.workers = db.workers
  jobs : db'.jobs = db.jobs
  events : db'.events = db.events
  sequence : db'.nextEventSequence = db.nextEventSequence

theorem OnlyOutbox.refl (db : Db) : OnlyOutbox db db := ⟨rfl, rfl, rfl, rfl, rfl⟩

theorem OnlyOutbox.trans {a b c : Db} (h : OnlyOutbox a b) (k : OnlyOutbox b c) :
    OnlyOutbox a c :=
  ⟨k.1.trans h.1, k.2.trans h.2, k.3.trans h.3, k.4.trans h.4, k.5.trans h.5⟩

/-- An outbox insert writes the outbox only. -/
theorem insertOutbox_only {key subject : String} {payload : OutboxPayload}
    {traceHeaders : List (String × String)} {t : DbTime} {db db' : Db} {out : Option OutboxRow}
    (h : (insertOutbox key subject payload traceHeaders t).Commits db out db') :
    OnlyOutbox db db' := by
  rcases insertOutbox_commits h with ⟨_, rfl, _⟩ | ⟨_, _, _, _, _, _, _, _, _, _, rfl⟩
  · exact .refl _
  · exact ⟨rfl, rfl, rfl, rfl, rfl⟩

theorem insertWebhookRows_commits {event : JobEvent} {t : DbTime}
    {webhooks : List (WebhookId × Webhook)} {db db' : Db} {u : Unit}
    (h : (insertWebhookRows event t webhooks).Commits db u db') :
    OnlyOutbox db db' ∧ OutboxGrew IsWebhookRow db db' := by
  induction webhooks generalizing db with
  | nil =>
      obtain ⟨_, rfl⟩ := Tx.pure_commits.mp h
      exact ⟨.refl _, .refl _ _⟩
  | cons hd tl ih =>
      obtain ⟨id, webhook⟩ := hd
      simp only [insertWebhookRows] at h
      obtain ⟨out, db₁, hins, hrest⟩ := Tx.bind_commits.mp h
      obtain ⟨hot, hgt⟩ := ih hrest
      refine ⟨(insertOutbox_only hins).trans hot, OutboxGrew.trans ?_ hgt⟩
      refine insertOutbox_grew hins fun row hsub _ => ⟨hsub, ?_⟩
      exact ⟨event.id.val ++ ":" ++ id.val, by simp [String.append_assoc]⟩

/-- **One event.** A committed `appendEvent` adds one event of the job, numbered
by the global sequence, and unpublished webhook rows if the state changed; the
job, worker and catalogue tables are untouched. -/
theorem appendEvent_commits {id : JobEventId} {j : JobId} {eventType : String}
    {state : Option JobState} {stateChanged : Bool} {payload : List (String × EventValue)}
    {t : DbTime} {db db' : Db} {event : JobEvent}
    (h : (appendEvent id j eventType state stateChanged payload t).Commits db event db') :
    event = ⟨id, j, db.nextEventSequence, t.now, eventType, state, payload⟩ ∧
    db'.catalog = db.catalog ∧ db'.workers = db.workers ∧ db'.jobs = db.jobs ∧
    db'.events = db.events ++ [event] ∧ db'.nextEventSequence = db.nextEventSequence + 1 ∧
    OutboxGrew IsWebhookRow db db' ∧
    (stateChanged = false → db'.outbox = db.outbox ∧ db'.nextOutboxId = db.nextOutboxId) := by
  simp only [appendEvent, Tx.bind_commits, Tx.require_commits, Tx.read_commits] at h
  obtain ⟨_, _, ⟨_, rfl⟩, job, _, ⟨_, rfl⟩, _, _, ⟨_, rfl⟩, _, _, ⟨_, rfl⟩, event', db₁, hins,
    hrest⟩ := h
  -- the inserted event
  unfold Tx.Commits insertEvent at hins
  split at hins
  · cases hins
  · cases hins
    cases stateChanged with
    | false =>
        simp only [Bool.false_eq_true, if_false, Tx.pure_commits] at hrest
        obtain ⟨rfl, rfl⟩ := hrest
        exact ⟨rfl, rfl, rfl, rfl, rfl, rfl, .of_eq rfl rfl, fun _ => ⟨rfl, rfl⟩⟩
    | true =>
        simp only [if_true, insertWebhookEventOutbox, Tx.bind_commits, Tx.read_commits,
          Tx.pure_commits] at hrest
        obtain ⟨_, db₂, ⟨hooks, _, ⟨_, rfl⟩, hweb⟩, rfl, rfl⟩ := hrest
        obtain ⟨hot, hgt⟩ := insertWebhookRows_commits hweb
        exact ⟨rfl, hot.catalog, hot.workers, hot.jobs, hot.events, hot.sequence,
          ⟨fun key => hgt.rows key, fun hids => hgt.ids (hids.of_eq rfl rfl)⟩, fun hf => by cases hf⟩

end RunAnywhere
