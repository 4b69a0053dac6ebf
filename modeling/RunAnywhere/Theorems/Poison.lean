import RunAnywhere.Scheduler.Headers
import RunAnywhere.Theorems.EventLog

/-!
# Rows that can be published

Three producers insert rows into the outbox and three loops publish them. Key, subject and payload
of a row are what its loop asks for, whoever inserted it. The trace headers are not: the insert asks
only that no name is blank, and the two publishers that send them ask for more, each for something
else (`outbox_row_publishable`).

* **headers** — a new row carries the header map of its call (`Op.brings`);
* **stored rows** — no later call changes subject, payload or headers (`Sent.run`);
* **loops** — what each of the three says to its rows.
-/

namespace RunAnywhere

open Logic

/-! ## The headers of a new row -/

/-- The header map the call was given for its row; a recovery gives none. -/
def Op.traceHeaders : Op → List (String × String)
  | .createJobWithOutbox _ _ _ _ headers => headers
  | .enqueueJobDeadLetter _ headers => headers
  | _ => []

/-- A webhook delivery, or a row with these headers. -/
def Carries (headers : List (String × String)) (_ : String) (row : OutboxRow) : Prop :=
  row.subject = webhookSubject ∨ row.traceHeaders = headers

theorem insertOutbox_headers {key subject : String} {payload : OutboxPayload}
    {headers : List (String × String)} {t : DbTime} {db db' : Db} {out : Option OutboxRow}
    (h : (insertOutbox key subject payload headers t).Commits db out db') :
    OutboxGrew (Carries headers) db db' := by
  have hgrew : OutboxGrew (fun _ _ => True) db db' := insertOutbox_grew h fun _ _ _ => trivial
  have hids := hgrew.ids
  unfold Tx.Commits insertOutbox at h
  cases hk : db.message? key with
  | some row =>
      rw [hk] at h
      obtain ⟨_, rfl⟩ := Prod.mk.inj (Except.ok.inj h)
      exact .refl _ _
  | none =>
      rw [hk] at h
      simp only at h
      split at h
      · next hc =>
          obtain ⟨_, rfl⟩ := Prod.mk.inj (Except.ok.inj h)
          refine ⟨fun key' => ?_, hids⟩
          have hget := Db.message?_putMessage db key _ hc (db.nextOutboxId + 1) key'
          by_cases heq : key' = key
          · rw [if_pos heq] at hget
            rw [heq] at hget ⊢
            exact Or.inr ⟨_, hk, hget, rfl, rfl, rfl, Or.inr rfl⟩
          · rw [if_neg heq] at hget
            exact Or.inl hget
      · cases h

theorem insertJobDeadLetterOutbox_headers {letter : JobDeadLetter}
    {headers : List (String × String)} {t : DbTime} {db db' : Db} {out : OutboxMessage}
    (h : (insertJobDeadLetterOutbox letter headers t).Commits db out db') :
    OutboxGrew (Carries headers) db db' := by
  simp only [insertJobDeadLetterOutbox, validateTraceHeaders, Tx.bind_commits,
    Tx.ofExcept_commits, Tx.require_commits] at h
  obtain ⟨_, _, ⟨_, rfl⟩, _, _, ⟨_, rfl⟩, key, _, ⟨_, rfl⟩, inserted, db₁, hins, h⟩ := h
  have hgrew := insertOutbox_headers hins
  -- what follows the insert reads only
  cases inserted with
  | some row =>
      obtain ⟨_, rfl⟩ := Tx.pure_commits.mp h
      exact hgrew
  | none =>
      simp only [Tx.bind_commits, Tx.read_commits, Tx.okOr_commits, Tx.require_commits,
        Tx.pure_commits] at h
      obtain ⟨_, _, ⟨_, rfl⟩, _, _, ⟨_, rfl⟩, _, _, ⟨_, rfl⟩, _, rfl⟩ := h
      exact hgrew

theorem appendEvent_headers {id : JobEventId} {j : JobId} {eventType : String}
    {state : Option JobState} {changed : Bool} {payload : List (String × EventValue)} {t : DbTime}
    {db db' : Db} {event : JobEvent} (headers : List (String × String))
    (h : (appendEvent id j eventType state changed payload t).Commits db event db') :
    OutboxGrew (Carries headers) db db' := by
  obtain ⟨_, _, _, _, _, _, hgrew, _⟩ := appendEvent_commits h
  exact .mono (fun _ _ hrow => Or.inl hrow.1) hgrew

theorem createJobWithOutbox_headers {id : JobId} {eventId : JobEventId} {request : CreateJobRequest}
    {key : String} {headers : List (String × String)} {t : DbTime} {db db' : Db}
    {created : CreatedJob}
    (h : (createJobWithOutbox id eventId request key headers t).Commits db created db') :
    OutboxGrew (Carries headers) db db' := by
  simp only [createJobWithOutbox, validateIdempotencyKey, Tx.bind_commits, Tx.require_commits,
    Tx.read_commits] at h
  obtain ⟨_, _, ⟨_, rfl⟩, found, _, ⟨_, rfl⟩, h⟩ := h
  cases found with
  | some x =>
      obtain ⟨existing, row⟩ := x
      obtain ⟨_, rfl⟩ := Tx.pure_commits.mp h
      exact .refl _ _
  | none =>
      simp only [Tx.bind_commits, Tx.ofExcept_commits, Tx.pure_commits] at h
      obtain ⟨profile, _, hadmit, _, _, ⟨_, rfl⟩, _, db₁, hins, event, db₂, hev, _, db₃, hout,
        rfl, rfl⟩ := h
      obtain ⟨rfl, _⟩ := admitJob_commits hadmit
      obtain ⟨_, _, rfl⟩ := insertJob_commits hins
      simp only [insertJobQueuedOutbox, validateTraceHeaders, Tx.bind_commits,
        Tx.require_commits] at hout
      obtain ⟨_, _, ⟨_, rfl⟩, _, _, hq, _, rfl⟩ := hout
      exact ((appendEvent_headers headers hev).of_source (a := db) rfl rfl).trans (insertOutbox_headers hq)

theorem recoverStaleJob_headers {stale : StaleJob} {maxDeliver : Nat} {eventId : JobEventId}
    {t : DbTime} {db db' : Db} {out : RecoveryDisposition}
    (h : (recoverStaleJob stale maxDeliver eventId t).Commits db out db') :
    OutboxGrew (Carries []) db db' := by
  simp only [recoverStaleJob, recoverStaleJobWith, Tx.bind_commits, Tx.require_commits,
    lockJob_commits] at h
  obtain ⟨_, _, ⟨_, rfl⟩, found, _, ⟨hfound, rfl⟩, h⟩ := h
  have lost : ∀ {d : RecoveryDisposition} {a b : Db},
      (pure .lostRace : RepoTx RecoveryDisposition).Commits a d b → OutboxGrew (Carries []) a b := by
    intro d a b hp
    obtain ⟨_, rfl⟩ := Tx.pure_commits.mp hp
    exact .refl _ _
  cases found with
  | none => exact lost h
  | some row =>
      simp only [Tx.bind_commits] at h
      obtain ⟨matched, _, hmatched, h⟩ := h
      obtain ⟨rfl, _⟩ := snapshotMatches_commits hmatched
      split at h
      · exact lost h
      simp only [Tx.bind_commits, lockWorker_commits] at h
      obtain ⟨worker?, _, ⟨_, rfl⟩, h⟩ := h
      cases worker? with
      | none => exact lost h
      | some worker =>
          simp only at h
          split at h
          · exact lost h
          simp only [Tx.bind_commits] at h
          obtain ⟨updated, db₀, hup, h⟩ := h
          rcases updateJob_commits hup with ⟨rfl, rfl, _⟩ | ⟨row₀, hc, _, _, rfl, rfl⟩
          · exact lost h
          simp only [Tx.bind_commits] at h
          obtain ⟨_, db₁, hrel, event, db₂, hev, h⟩ := h
          obtain ⟨hout, hnext⟩ := releaseWorkerCapacity_outbox hrel
          have hgrew := (appendEvent_headers [] hev).of_source (a := db) hout hnext
          split at h
          · -- the marker of an exhausted job
            simp only [insertExhaustionMarker, Tx.bind_commits, Tx.ofExcept_commits,
              Tx.pure_commits] at h
            obtain ⟨_, _, ⟨letter, _, ⟨_, rfl⟩, _, _, hins, _, rfl⟩, rfl, rfl⟩ := h
            exact hgrew.trans (insertJobDeadLetterOutbox_headers hins)
          · obtain ⟨rfl, rfl⟩ := Tx.pure_commits.mp h
            exact hgrew

/-- **Headers.** A new row that is no webhook delivery carries the headers of its call. -/
theorem Op.brings {op : Op} {t : DbTime} {db db' : Db} {out : op.Out}
    (h : (op.tx t).Commits db out db') {key : String} {row : OutboxRow}
    (hnone : db.message? key = none) (hrow : db'.message? key = some row)
    (hsubject : row.subject ≠ webhookSubject) : row.traceHeaders = op.traceHeaders := by
  have hgrew : ∀ {headers}, OutboxGrew (Carries headers) db db' → row.traceHeaders = headers := by
    intro headers hg
    rcases hg.rows key with hsame | ⟨new, _, hnew, _, _, _, hcarries⟩
    · rw [hsame, hnone] at hrow
      cases hrow
    · obtain rfl := Option.some.inj (hnew.symm.trans hrow)
      exact hcarries.resolve_left hsubject
  cases (Op.outbox h).new key row hrow with
  | kept old was =>
      rw [hnone] at was
      cases was
  | webhook _ _ hweb => exact absurd hweb.1 hsubject
  | created _ _ _ call =>
      subst call
      exact hgrew (createJobWithOutbox_headers h)
  | marker _ _ _ call =>
      subst call
      exact hgrew (recoverStaleJob_headers h)
  | letter _ _ call =>
      subst call
      exact hgrew (insertJobDeadLetterOutbox_headers h)

/-! ## Stored rows -/

/-- What a leased row still says of the inserted one. -/
structure OutboxRow.Sent (old new : OutboxRow) : Prop where
  subject : new.subject = old.subject
  payload : new.payload = old.payload
  headers : new.traceHeaders = old.traceHeaders

theorem LeaseChange.sent {op : Op} {t : DbTime} {old new : OutboxRow}
    (h : LeaseChange op t old new) : old.Sent new := by
  cases h with
  | kept | leased | published | released => exact ⟨rfl, rfl, rfl⟩

/-- **Stored rows.** Along a run a row keeps what is sent of it. -/
theorem OutboxRow.Sent.run {Allowed : Op → Prop} {db db' : Db} {calls : List Call} {key : String}
    {row : OutboxRow} (hrun : (repository Allowed).Run db calls db')
    (hrow : db.message? key = some row) : ∃ row', db'.message? key = some row' ∧ row.Sent row' := by
  induction hrun with
  | nil => exact ⟨row, hrow, rfl, rfl, rfl⟩
  | snoc _ hlast ih =>
      obtain ⟨mid, hmid, hsent⟩ := ih
      rcases repository_step_cases hlast with ⟨out, _, hc⟩ | ⟨_, rfl⟩
      · obtain ⟨new, hnew, hchange⟩ := Op.leases hc hmid
        have hkept := hchange.sent
        exact ⟨new, hnew, hkept.subject.trans hsent.subject, hkept.payload.trans hsent.payload,
          hkept.headers.trans hsent.headers⟩
      · exact ⟨mid, hmid, hsent⟩

/-! ## What the three loops say -/

/-- The loop of the row's channel refuses it before it reaches the transport. -/
inductive Malformed (x : HeaderSyntax) (db : Db) (message : OutboxMessage) : Prop
  | queue (channel : message.subject = jobsQueuedSubject) (error : QueuePublishError)
      (refused : Headers.publishOutboxMessage x message = .error error)
  | webhook (channel : message.subject = webhookSubject) (error : String)
      (refused : dispatchOutboxMessage db.catalog.webhooks message = .error error)
  | dead (channel : message.subject = jobsDeadSubject) (error : DlqError)
      (refused : Headers.publishOne x message = .error error)

/-- The headers given to the call are of the kind the publisher of its row sends. -/
def Op.Sendable (x : HeaderSyntax) : Op → Prop
  | .createJobWithOutbox _ _ _ _ headers => ∀ header ∈ headers, x.Sends header
  | .enqueueJobDeadLetter _ headers => ∀ header ∈ headers, x.Traces header
  | _ => True

theorem not_refused_iff {ε α : Type} (r : Except ε α) :
    (¬ ∃ e, r = .error e) ↔ ∃ a, r = .ok a := by
  cases r with
  | ok a => exact ⟨fun _ => ⟨a, rfl⟩, fun _ ⟨_, h⟩ => (nomatch h)⟩
  | error e => exact ⟨fun h => absurd ⟨e, rfl⟩ h, fun ⟨_, h⟩ => (nomatch h)⟩

section Channels

variable {x : HeaderSyntax} {db : Db} {message : OutboxMessage}

theorem Malformed.queue_iff {queued : JobQueued} (hsubject : message.subject = jobsQueuedSubject)
    (hpayload : message.payload = .jobQueued queued) (hkey : message.eventKey = queued.jobId.val) :
    ¬ Malformed x db message ↔ ∀ header ∈ message.traceHeaders, x.Sends header := by
  have hchecked : OutboxDispatcher.checkMessage message = .ok queued := by
    unfold OutboxDispatcher.checkMessage
    rw [if_neg (not_not.mpr hsubject), hpayload]
    exact if_neg (not_not.mpr hkey)
  rw [← Headers.publishOutboxMessage_ok_iff x hchecked, ← not_refused_iff]
  refine not_congr ⟨fun h => ?_, fun ⟨e, he⟩ => .queue hsubject e he⟩
  cases h with
  | queue _ e he => exact ⟨e, he⟩
  | webhook channel => exact absurd (channel.symm.trans hsubject) (by decide)
  | dead channel => exact absurd (channel.symm.trans hsubject) (by decide)

theorem Malformed.dead_iff (hsubject : message.subject = jobsDeadSubject) :
    ¬ Malformed x db message ↔ ∀ header ∈ message.traceHeaders, x.Traces header := by
  rw [← Headers.publishOne_ok_iff, ← not_refused_iff]
  refine not_congr ⟨fun h => ?_, fun ⟨e, he⟩ => .dead hsubject e he⟩
  cases h with
  | dead _ e he => exact ⟨e, he⟩
  | webhook channel => exact absurd (channel.symm.trans hsubject) (by decide)
  | queue channel => exact absurd (channel.symm.trans hsubject) (by decide)

/-- A delivery under its own key, of an event with a state, to a registration under the url the
row was made for. -/
theorem Malformed.not_webhook {event : JobEvent} {hook : WebhookId × Webhook}
    (hsubject : message.subject = webhookSubject)
    (hpayload : message.payload = .webhook ⟨hook.1, hook.2.url, event⟩)
    (hkey : message.eventKey = webhookKey event.id hook.1) (hstate : event.state.isSome = true)
    (hhook : db.catalog.webhooks.get? hook.1 = some hook.2) : ¬ Malformed x db message := by
  intro h
  cases h with
  | queue channel => exact absurd (channel.symm.trans hsubject) (by decide)
  | dead channel => exact absurd (channel.symm.trans hsubject) (by decide)
  | webhook _ error hrefused =>
      have hnone : event.state.isNone = false := by
        rw [← Option.not_isSome, hstate]
        rfl
      have hkey' : message.eventKey = "webhook:" ++ event.id.val ++ ":" ++ hook.1.val := hkey
      unfold dispatchOutboxMessage at hrefused
      simp only [hsubject, hpayload, hkey', hnone, hhook, ne_eq, not_true_eq_false, if_false,
        Bool.false_eq_true, or_self] at hrefused
      split at hrefused
      · cases hrefused
      · cases hrefused

end Channels

/-! ## New rows -/

/-- A new webhook row delivers an event with a state to a registration that is there. -/
theorem Op.delivers {op : Op} {t : DbTime} {db db' : Db} {out : op.Out} (hsound : db.LogSound)
    (h : (op.tx t).Commits db out db') {key : String} {row : OutboxRow}
    (hnone : db.message? key = none) (hrow : db'.message? key = some row)
    (hsubject : row.subject = webhookSubject) : ∃ event hook, row.Delivers event hook ∧
      key = webhookKey event.id hook.1 ∧ event.state.isSome = true ∧
      db'.catalog.webhooks.get? hook.1 = some hook.2 := by
  have hlogs := Op.logs h
  cases hwrote : op.wrote out with
  | none =>
      rw [hwrote] at hlogs
      exact absurd hsubject (hlogs.outbox key row hnone hrow).1
  | some j =>
      rw [hwrote] at hlogs
      obtain ⟨jobRow, hw⟩ := hlogs
      obtain ⟨event, hlogged, _⟩ := hw.logged hsound.keys
      obtain ⟨hook, hmem, hkey⟩ := hlogged.notifies.only key row hnone hrow hsubject
      obtain ⟨_, row', hrow', hdelivers⟩ := hlogged.notifies.added hook hmem
      rw [← hkey] at hrow'
      obtain rfl := Option.some.inj (hrow'.symm.trans hrow)
      refine ⟨event, hook, hdelivers, hkey, ?_, ?_⟩
      · rw [hlogged.state]
        rfl
      · have hsubscribed : hook ∈ db'.subscriptions j := by
          split at hmem
          · exact absurd hmem List.not_mem_nil
          · exact hmem
        unfold Db.subscriptions at hsubscribed
        split at hsubscribed
        · exact absurd hsubscribed List.not_mem_nil
        · have hin := (List.mem_insertionSort _).mp hsubscribed
          exact (Table.mem_rows_iff _ _ _).mp (List.mem_filter.mp hin).1

/-- **Publishable rows.** A row is refused by its loop iff the call that inserted it was given a
header its publisher does not send; a webhook row never is while its registration stays. -/
theorem outbox_row_publishable (x : HeaderSyntax) {Allowed : Op → Prop} {db db' later : Db}
    {call : Call} {calls : List Call} {key : String} {row row' : OutboxRow}
    (hreach : (repository Allowed).Reachable db) (hstep : (repository Allowed).step db call db')
    (hnone : db.message? key = none) (hrow : db'.message? key = some row)
    (hrun : (repository Allowed).Run db' calls later) (hlater : later.message? key = some row')
    (hkept : ∀ payload, row.payload = .webhook payload →
      later.catalog.webhooks.get? payload.webhookId =
        db'.catalog.webhooks.get? payload.webhookId) :
    ¬ Malformed x later (row'.intoMessage key) ↔
      row.subject = webhookSubject ∨ call.op.Sendable x := by
  obtain ⟨row₁, hrow₁, hsent⟩ := OutboxRow.Sent.run hrun hrow
  obtain rfl := Option.some.inj (hrow₁.symm.trans hlater)
  rcases repository_step_cases hstep with ⟨out, _, hc⟩ | ⟨_, rfl⟩
  swap
  · rw [hnone] at hrow
    cases hrow
  by_cases hweb : row.subject = webhookSubject
  · -- a delivery is never refused
    obtain ⟨event, hook, hdelivers, hkey, hstate, hhook⟩ :=
      Op.delivers (logSound_invariant Allowed db hreach) hc hnone hrow hweb
    refine iff_of_true ?_ (Or.inl hweb)
    exact Malformed.not_webhook (hsent.subject.trans hweb) (hsent.payload.trans hdelivers.payload)
      hkey hstate ((hkept _ hdelivers.payload).trans hhook)
  · have hheaders : (row₁.intoMessage key).traceHeaders = call.op.traceHeaders :=
      hsent.headers.trans (Op.brings hc hnone hrow hweb)
    rw [or_iff_right hweb]
    cases (Op.outbox hc).new key row hrow with
    | kept old was =>
        rw [hnone] at was
        cases was
    | webhook _ _ hrow => exact absurd hrow.1 hweb
    | created job _ _ hcall keyed _ payload channel =>
        rw [Malformed.queue_iff (hsent.subject.trans channel) (hsent.payload.trans payload) keyed,
          hheaders, hcall]
        exact Iff.rfl
    | marker _ _ _ hcall _ _ _ _ _ _ channel =>
        rw [Malformed.dead_iff (hsent.subject.trans channel), hheaders, hcall]
        exact iff_of_true (fun header hmem => absurd hmem List.not_mem_nil) trivial
    | letter _ _ hcall _ channel =>
        rw [Malformed.dead_iff (hsent.subject.trans channel), hheaders, hcall]
        exact Iff.rfl

namespace Sample

/-- A create with the given trace headers. -/
def createHeaded (headers : List (String × String)) : Op :=
  .createJobWithOutbox job (event 0) request "key" headers

/-- The call, as the empty database answers it. -/
def headedCall (headers : List (String × String)) : Call :=
  ⟨createHeaded headers, at_ 2, ((createHeaded headers).tx (at_ 2) |>.exec (Db.empty catalog)).1⟩

/-- The database with the created job. -/
def headed (headers : List (String × String)) : Db :=
  ((createHeaded headers).tx (at_ 2) |>.exec (Db.empty catalog)).2

theorem headed_step (headers : List (String × String)) :
    (repository fun _ => True).step (Db.empty catalog) (headedCall headers) (headed headers) :=
  ⟨trivial, rfl⟩

def traceparent : List (String × String) := [("traceparent", "00-ab-cd-01")]

end Sample

theorem outbox_row_publishable_sample : ∃ row,
    (Sample.headed Sample.traceparent).message? Sample.job.val = some row ∧
    (¬ Malformed .plain (Sample.headed Sample.traceparent) (row.intoMessage Sample.job.val) ↔
      row.subject = webhookSubject ∨ (Sample.createHeaded Sample.traceparent).Sendable .plain) := by
  have hsome : ((Sample.headed Sample.traceparent).message? Sample.job.val).isSome = true := by
    decide +kernel
  obtain ⟨row, hrow⟩ := Option.isSome_iff_exists.mp hsome
  exact ⟨row, hrow, outbox_row_publishable .plain (.init ⟨Sample.catalog, rfl⟩)
    (Sample.headed_step _) rfl hrow (.nil _) hrow fun _ _ => rfl⟩

/-- **A header name with a blank** is inserted, and the queue publisher refuses the row. -/
theorem bad_header_refused : ∃ row,
    (repository fun _ => True).Reachable (Db.empty Sample.catalog) ∧
    (repository fun _ => True).step (Db.empty Sample.catalog)
      (Sample.headedCall [("bad name", "x")]) (Sample.headed [("bad name", "x")]) ∧
    (Db.empty Sample.catalog).message? Sample.job.val = none ∧
    (Sample.headed [("bad name", "x")]).message? Sample.job.val = some row ∧
    Malformed .plain (Sample.headed [("bad name", "x")]) (row.intoMessage Sample.job.val) := by
  have hsubject : ((Sample.headed [("bad name", "x")]).message? Sample.job.val).map (·.subject) =
      some jobsQueuedSubject := by decide +kernel
  have hrefused : ((Sample.headed [("bad name", "x")]).message? Sample.job.val).map (fun row =>
      (Headers.publishOutboxMessage .plain (row.intoMessage Sample.job.val)).toBool) =
      some false := by decide +kernel
  obtain ⟨row, hrow, hchannel⟩ := Option.map_eq_some_iff.mp hsubject
  rw [hrow] at hrefused
  refine ⟨row, .init ⟨Sample.catalog, rfl⟩, Sample.headed_step _, rfl, hrow, ?_⟩
  cases hresult : Headers.publishOutboxMessage .plain (row.intoMessage Sample.job.val) with
  | error e => exact .queue hchannel e hresult
  | ok headers =>
      rw [Option.map_some, hresult] at hrefused
      cases Option.some.inj hrefused

end RunAnywhere
