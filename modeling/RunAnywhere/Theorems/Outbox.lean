import Mathlib.Data.List.Chain
import RunAnywhere.Scheduler.Loops

/-!
# Draining the outbox

What the loops do to the outbox, over every run of them:

* **one owner** — a row locked under the name of a loop is in the hands of that loop's
  newest lease of it (`FlightOk.owner`), because a loop leases only when its last batch
  is gone; so a finalization ends the lease it was made for;
* **leases apart** — the next lease of a row is granted when the last one was ended or
  has run out (`RowOk.apart`);
* **published last** — a row is published after its publication was confirmed, or its
  registration seen missing or inactive (`RowOk.delivered`), and nothing changes it then
  (`LeaseChange.of_published`).
-/

namespace RunAnywhere

open Logic

/-! ## Statements -/

/-- The publication says what the row under `key` says. -/
def Publication.IsOf (key : String) (row : OutboxRow) : Publication → Prop
  | .queued q => row.subject = jobsQueuedSubject ∧ row.payload = .jobQueued q ∧ key = q.jobId.val
  | .delivery d => row.subject = webhookSubject ∧ d.deliveryId = key ∧
      ∃ w, row.payload = .webhook ⟨w, d.url, d.event⟩
  | .deadLetter m => row.subject = jobsDeadSubject ∧ m.eventKey = key ∧ m.payload = row.payload

/-- The row's publication was confirmed, or its registration seen missing or inactive. -/
def Drain.Delivered (s : Drain) (key : String) (row : OutboxRow) : Prop :=
  (∃ p ∈ s.log, p.IsOf key row) ∨ (row.subject = webhookSubject ∧ key ∈ s.waived)

/-- The leases of a row, newest first. -/
def Drain.grantsOf (s : Drain) (key : String) : List Grant :=
  s.grants.filter fun g => decide (g.key = key)

/-- The older lease was over when the newer one was granted: ended by its loop, or run
out. -/
def Apart (ended : List Grant) (newer older : Grant) : Prop :=
  older ∈ ended ∨ older.grantedAt + older.loop.leaseMicros ≤ newer.grantedAt

/-- What the ghosts say about a stored row. -/
structure Drain.RowOk (loops : Loops) (s : Drain) (key : String) (row : OutboxRow) : Prop where
  numbered : (s.grantsOf key).map (·.number) = (List.range row.attempts).reverse.map (· + 1)
  current : ∀ g ∈ (s.grantsOf key).head?, g ∈ s.ended ∨
    (row.lockedBy = some g.loop.dispatcherId ∧ row.lockedAt = some g.grantedAt)
  apart : (s.grantsOf key).IsChain (Apart s.ended)
  channel : ∀ g ∈ s.grantsOf key, loops.runs g.loop ∧ g.loop.subject = row.subject
  delivered : row.publishedAt.isSome → s.Delivered key row

/-- How far a flight has come, in terms of its row. -/
def Stage.Reached (s : Drain) (key : String) (row : OutboxRow) : Stage → Prop
  | .sending p => p.IsOf key row
  | .done => s.Delivered key row
  | .leased | .failed _ => True

/-- What holds of a row in the hands of a loop. -/
structure Drain.FlightOk (loops : Loops) (s : Drain) (f : Flight) (row : OutboxRow) : Prop where
  runs : loops.runs f.grant.loop
  stored : s.db.message? f.grant.key = some row
  keyed : f.message.eventKey = f.grant.key
  id : f.message.id = row.id
  subject : f.message.subject = row.subject
  payload : f.message.payload = row.payload
  channel : row.subject = f.grant.loop.subject
  owner : row.lockedBy = some f.grant.loop.dispatcherId → f.grant ∈ (s.grantsOf f.grant.key).head?
  reached : f.stage.Reached s f.grant.key row

/-- What holds of every reachable state. -/
structure Drain.Inv (loops : Loops) (s : Drain) : Prop where
  ids : OutboxIds s.db
  rows : ∀ key row, s.db.message? key = some row → s.RowOk loops key row
  fresh : ∀ key, s.db.message? key = none → s.grantsOf key = []
  flights : ∀ f ∈ s.flights, ∃ row, s.FlightOk loops f row

/-! ## Rows that keep what they say -/

theorem Publication.IsOf.keeps {key : String} {old new : OutboxRow} {p : Publication}
    (h : p.IsOf key old) (hkeeps : old.Keeps new) : p.IsOf key new := by
  cases p with
  | queued q => exact ⟨hkeeps.subject.trans h.1, hkeeps.payload.trans h.2.1, h.2.2⟩
  | delivery d =>
      obtain ⟨hsubject, hkey, w, hpayload⟩ := h
      exact ⟨hkeeps.subject.trans hsubject, hkey, w, hkeeps.payload.trans hpayload⟩
  | deadLetter m =>
      exact ⟨hkeeps.subject.trans h.1, h.2.1, h.2.2.trans hkeeps.payload.symm⟩

theorem Drain.Delivered.keeps {s : Drain} {key : String} {old new : OutboxRow}
    (h : s.Delivered key old) (hkeeps : old.Keeps new) : s.Delivered key new := by
  rcases h with ⟨p, hp, hof⟩ | ⟨hsubject, hkey⟩
  · exact Or.inl ⟨p, hp, hof.keeps hkeeps⟩
  · exact Or.inr ⟨hkeeps.subject.trans hsubject, hkey⟩

theorem Drain.Delivered.mono {s s' : Drain} {key : String} {row : OutboxRow}
    (h : s.Delivered key row) (hlog : s.log ⊆ s'.log) (hwaived : s.waived ⊆ s'.waived) :
    s'.Delivered key row := by
  rcases h with ⟨p, hp, hof⟩ | ⟨hsubject, hkey⟩
  · exact Or.inl ⟨p, hlog hp, hof⟩
  · exact Or.inr ⟨hsubject, hwaived hkey⟩

/-- A delivery says what the webhook message says. -/
theorem dispatchOutboxMessage_send {webhooks : Table WebhookId Webhook} {m : OutboxMessage}
    {d : WebhookDelivery} (h : dispatchOutboxMessage webhooks m = .ok (some d)) :
    (∃ w, m.payload = .webhook ⟨w, d.url, d.event⟩) ∧ d.deliveryId = m.eventKey := by
  unfold dispatchOutboxMessage at h
  simp only at h
  split at h
  · cases h
  · cases hp : m.payload with
    | jobQueued q => rw [hp] at h; cases h
    | jobDeadLetter q => rw [hp] at h; cases h
    | webhook payload =>
        rw [hp] at h
        simp only at h
        split at h
        · cases h
        · cases hw : webhooks.get? payload.webhookId with
          | none => rw [hw] at h; cases h
          | some webhook =>
              rw [hw] at h
              simp only at h
              split at h
              · cases h
              · split at h
                · cases h
                · cases h
                  exact ⟨⟨payload.webhookId, rfl⟩, rfl⟩

/-- What a loop sends is what its row says. -/
theorem Loop.verdict_send {x : Loop} {db : Db} {m : OutboxMessage} {row : OutboxRow}
    {p : Publication} (h : x.verdict db m = .send p)
    (hpayload : m.payload = row.payload) (hchannel : row.subject = x.subject) :
    p.IsOf m.eventKey row := by
  cases x with
  | queue cfg =>
      unfold verdict at h
      cases hcheck : OutboxDispatcher.checkMessage m with
      | error text => rw [hcheck] at h; cases h
      | ok q =>
          rw [hcheck] at h
          cases h
          unfold OutboxDispatcher.checkMessage at hcheck
          split at hcheck
          · cases hcheck
          · split at hcheck
            · next hp =>
                split at hcheck
                · cases hcheck
                · next hkey =>
                    cases hcheck
                    exact ⟨hchannel, hpayload.symm.trans hp, not_not.mp hkey⟩
            · cases hcheck
  | webhook id =>
      unfold verdict at h
      cases hcheck : dispatchOutboxMessage db.catalog.webhooks m with
      | error text => rw [hcheck] at h; cases h
      | ok d =>
          rw [hcheck] at h
          cases d with
          | none => cases h
          | some d =>
              cases h
              obtain ⟨⟨w, hp⟩, hkey⟩ := dispatchOutboxMessage_send hcheck
              exact ⟨hchannel, hkey, w, hpayload.symm.trans hp⟩
  | dead id =>
      cases h
      exact ⟨hchannel, rfl, hpayload⟩

/-- A row is waived on the webhook channel only. -/
theorem Loop.verdict_waive {x : Loop} {db : Db} {m : OutboxMessage}
    (h : x.verdict db m = .waive) : x.subject = webhookSubject := by
  cases x with
  | queue cfg =>
      unfold verdict at h
      cases hcheck : OutboxDispatcher.checkMessage m <;> rw [hcheck] at h <;> cases h
  | webhook id => rfl
  | dead id => cases h

/-- A published row stays as it is. -/
theorem LeaseChange.of_published {op : Op} {t : DbTime} {old new : OutboxRow}
    (h : LeaseChange op t old new) (hpub : old.publishedAt.isSome) : new = old := by
  cases h with
  | kept => rfl
  | leased _ hleasable =>
      simp only [OutboxRow.leasable, Bool.and_eq_true, Option.isNone_iff_eq_none] at hleasable
      rw [hleasable.1.1.1] at hpub
      cases hpub
  | published _ hnone _ => rw [hnone] at hpub; cases hpub
  | released _ hnone _ => rw [hnone] at hpub; cases hpub

/-! ## Steps that leave the database -/

theorem Drain.RowOk.mono {loops : Loops} {s s' : Drain} {key : String} {row : OutboxRow}
    (h : s.RowOk loops key row) (hgrants : s'.grantsOf key = s.grantsOf key) (hended : s.ended ⊆ s'.ended)
    (hlog : s.log ⊆ s'.log) (hwaived : s.waived ⊆ s'.waived) : s'.RowOk loops key row := by
  refine ⟨?_, ?_, ?_, ?_, fun hpub => (h.delivered hpub).mono hlog hwaived⟩
  · rw [hgrants]
    exact h.numbered
  · intro g hg
    rw [hgrants] at hg
    exact (h.current g hg).imp_left fun hmem => hended hmem
  · rw [hgrants]
    exact h.apart.imp fun newer older hapart => hapart.imp_left fun hmem => hended hmem
  · rw [hgrants]
    exact h.channel

/-- The stage a flight reached stays reached. -/
theorem Stage.Reached.mono {s s' : Drain} {key : String} {old new : OutboxRow} {stage : Stage}
    (h : stage.Reached s key old) (hkeeps : old.Keeps new) (hlog : s.log ⊆ s'.log)
    (hwaived : s.waived ⊆ s'.waived) : stage.Reached s' key new := by
  cases stage with
  | leased | failed => trivial
  | sending p => exact Publication.IsOf.keeps h hkeeps
  | done => exact (Drain.Delivered.keeps h hkeeps).mono hlog hwaived

/-- **Progress.** A flight goes on to a stage its row has reached; nothing else changes but
what is logged. -/
theorem Drain.Inv.progress {loops : Loops} {s s' : Drain} {f : Flight} {stage : Stage}
    {before after : List Flight} (h : s.Inv loops) (hs : s.flights = before ++ f :: after)
    (hdb : s'.db = s.db) (hgrants : s'.grants = s.grants) (hended : s'.ended = s.ended)
    (hlog : s.log ⊆ s'.log) (hwaived : s.waived ⊆ s'.waived)
    (hflights : s'.flights = before ++ { f with stage := stage } :: after)
    (hreached : ∀ row, s.FlightOk loops f row → stage.Reached s' f.grant.key row) :
    s'.Inv loops := by
  have hof : ∀ key, s'.grantsOf key = s.grantsOf key := by
    intro key
    unfold grantsOf
    rw [hgrants]
  have hflight : ∀ x row, s.FlightOk loops x row → s'.FlightOk loops x row := by
    intro x row hx
    refine ⟨hx.runs, ?_, hx.keyed, hx.id, hx.subject, hx.payload, hx.channel, ?_, ?_⟩
    · rw [hdb]
      exact hx.stored
    · rw [hof]
      exact hx.owner
    · exact hx.reached.mono (.refl row) hlog hwaived
  refine ⟨hdb ▸ h.ids, fun key row hrow => ?_, fun key hnone => ?_, fun x hx => ?_⟩
  · rw [hdb] at hrow
    exact (h.rows key row hrow).mono (hof key) (by rw [hended]; exact List.Subset.refl _) hlog
      hwaived
  · rw [hdb] at hnone
    rw [hof]
    exact h.fresh key hnone
  · rw [hflights] at hx
    have hold : ∀ y, y ∈ before ∨ y ∈ after ∨ y = f → ∃ row, s.FlightOk loops y row := by
      intro y hy
      apply h.flights
      rw [hs]
      rcases hy with hb | ha | rfl
      · exact List.mem_append_left _ hb
      · exact List.mem_append_right _ (List.mem_cons_of_mem _ ha)
      · exact List.mem_append_right _ List.mem_cons_self
    rcases List.mem_append.mp hx with hb | hx
    · obtain ⟨row, hrow⟩ := hold x (Or.inl hb)
      exact ⟨row, hflight x row hrow⟩
    · rcases List.mem_cons.mp hx with rfl | ha
      · obtain ⟨row, hrow⟩ := hold f (Or.inr (Or.inr rfl))
        have hnew := hflight f row hrow
        exact ⟨row, ⟨hnew.runs, hnew.stored, hnew.keyed, hnew.id, hnew.subject, hnew.payload,
          hnew.channel, hnew.owner, hreached row hrow⟩⟩
      · obtain ⟨row, hrow⟩ := hold x (Or.inr (Or.inl ha))
        exact ⟨row, hflight x row hrow⟩

/-! ## Calls that grant no lease -/

/-- The row stayed as it was, or gave up its lease, which is ended. -/
def Drain.Settles (s : Drain) (ended : List Grant) (key : String) (old new : OutboxRow) : Prop :=
  new = old ∨ (new.lockedBy = none ∧ old.Keeps new ∧ new.attempts = old.attempts ∧
    (∀ g ∈ (s.grantsOf key).head?, g ∈ ended) ∧ (new.publishedAt.isSome → s.Delivered key old))

/-- **Settling.** A call that grants no lease and settles the rows it changes keeps the
invariant, with any part of the flights. -/
theorem Drain.Inv.settle {loops : Loops} {s : Drain} {db' : Db} {flights : List Flight}
    {ended : List Grant} (h : s.Inv loops) (hids : OutboxIds db')
    (hold : ∀ key old, s.db.message? key = some old →
      ∃ new, db'.message? key = some new ∧ s.Settles ended key old new)
    (hnew : ∀ key new, s.db.message? key = none → db'.message? key = some new →
      new.publishedAt = none ∧ new.lockedBy = none ∧ new.attempts = 0)
    (hended : s.ended ⊆ ended) (hflights : flights ⊆ s.flights) :
    ({ s with db := db', flights := flights, ended := ended } : Drain).Inv loops := by
  refine ⟨hids, fun key new hrow => ?_, fun key hnone => ?_, fun f hf => ?_⟩
  · cases hk : s.db.message? key with
    | none =>
        -- a new row has no grants
        obtain ⟨hpub, _, hattempts⟩ := hnew key new hk hrow
        have hnil := h.fresh key hk
        refine ⟨?_, ?_, ?_, ?_, fun hp => ?_⟩
        · show (s.grantsOf key).map (·.number) = _
          rw [hnil, hattempts]
          rfl
        · show ∀ g ∈ (s.grantsOf key).head?, _
          rw [hnil]
          intro g hg
          cases hg
        · show (s.grantsOf key).IsChain _
          rw [hnil]
          exact List.IsChain.nil
        · show ∀ g ∈ s.grantsOf key, _
          rw [hnil]
          intro g hg
          cases hg
        · rw [hpub] at hp
          cases hp
    | some old =>
        obtain ⟨new', hnew', hsettles⟩ := hold key old hk
        obtain rfl := Option.some.inj (hnew'.symm.trans hrow)
        have hok := h.rows key old hk
        rcases hsettles with rfl | ⟨hlocked, hkeeps, hattempts, hhead, hpub⟩
        · exact hok.mono rfl hended (List.Subset.refl _) (List.Subset.refl _)
        · refine ⟨?_, fun g hg => Or.inl (hhead g hg), ?_, ?_, fun hp => ?_⟩
          · rw [hattempts]
            exact hok.numbered
          · exact hok.apart.imp fun newer older hapart => hapart.imp_left fun hm => hended hm
          · intro g hg
            rw [hkeeps.subject]
            exact hok.channel g hg
          · exact ((hpub hp).keeps hkeeps).mono (List.Subset.refl _) (List.Subset.refl _)
  · cases hk : s.db.message? key with
    | none => exact h.fresh key hk
    | some old =>
        obtain ⟨new, hsome, _⟩ := hold key old hk
        rw [show db'.message? key = none from hnone] at hsome
        cases hsome
  · obtain ⟨row, hrow⟩ := h.flights f (hflights hf)
    obtain ⟨new, hnew', hsettles⟩ := hold f.grant.key row hrow.stored
    rcases hsettles with rfl | ⟨hlocked, hkeeps, _, _, _⟩
    · exact ⟨new, hrow.runs, hnew', hrow.keyed, hrow.id, hrow.subject, hrow.payload, hrow.channel,
        hrow.owner, hrow.reached.mono (.refl new) (List.Subset.refl _) (List.Subset.refl _)⟩
    · refine ⟨new, hrow.runs, hnew', hrow.keyed, hrow.id.trans hkeeps.id.symm,
        hrow.subject.trans hkeeps.subject.symm, hrow.payload.trans hkeeps.payload.symm,
        hkeeps.subject.trans hrow.channel, fun howner => ?_,
        hrow.reached.mono hkeeps (List.Subset.refl _) (List.Subset.refl _)⟩
      rw [hlocked] at howner
      cases howner

/-- A finalization of flight `f` settles the row it changes. -/
theorem Drain.Inv.settles {loops : Loops} {s : Drain} {f : Flight} {op : Op} {t : DbTime}
    {old new : OutboxRow} {key : String} (h : s.Inv loops) {row : OutboxRow}
    (hf : s.FlightOk loops f row) (hstored : s.db.message? key = some old)
    (hchange : LeaseChange op t old new)
    (hop : (f.stage = .done ∧ op = .markOutboxPublished f.message.id f.grant.loop.dispatcherId) ∨
      ∃ availableAt error, op = .retryOutboxMessage f.message.id f.grant.loop.dispatcherId
        availableAt error) :
    s.Settles (f.grant :: s.ended) key old new := by
  -- the row changed is the flight's, and its lock is that of the flight's lease
  have hrow : old.id = f.message.id → old.lockedBy = some f.grant.loop.dispatcherId →
      key = f.grant.key ∧ old = row ∧ ∀ g ∈ (s.grantsOf key).head?, g ∈ f.grant :: s.ended := by
    intro hid hlocked
    have hkey : key = f.grant.key :=
      (h.ids f.grant.key row hf.stored).2 key old hstored (hid.trans hf.id)
    subst hkey
    obtain rfl := Option.some.inj (hstored.symm.trans hf.stored)
    refine ⟨rfl, rfl, fun g hg => ?_⟩
    obtain rfl := Option.some.inj ((hf.owner hlocked).symm.trans hg)
    exact List.mem_cons_self
  cases hchange with
  | kept => exact Or.inl rfl
  | leased heq _ =>
      rcases hop with ⟨_, hop⟩ | ⟨_, _, hop⟩ <;> rw [hop] at heq <;> cases heq
  | published heq hnone hlocked =>
      rcases hop with ⟨hdone, hop⟩ | ⟨_, _, hop⟩
      · rw [hop] at heq
        obtain ⟨hid, rfl⟩ := Op.markOutboxPublished.inj heq
        obtain ⟨rfl, rfl, hhead⟩ := hrow hid.symm hlocked
        refine Or.inr ⟨rfl, ⟨rfl, rfl, rfl, fun hp => ?_⟩, rfl, hhead, fun _ => ?_⟩
        · rw [hnone] at hp
          cases hp
        · have hreached := hf.reached
          rw [hdone] at hreached
          exact hreached
      · rw [hop] at heq
        cases heq
  | released heq hnone hlocked =>
      rcases hop with ⟨_, hop⟩ | ⟨_, _, hop⟩
      · rw [hop] at heq
        cases heq
      · rw [hop] at heq
        obtain ⟨hid, rfl, _⟩ := Op.retryOutboxMessage.inj heq
        obtain ⟨rfl, rfl, hhead⟩ := hrow hid.symm hlocked
        refine Or.inr ⟨rfl, ⟨rfl, rfl, rfl, fun hp => ?_⟩, rfl, hhead, fun hp => ?_⟩
        · rw [hnone] at hp
          cases hp
        · have hp' : old.publishedAt.isSome := hp
          rw [hnone] at hp'
          cases hp'

/-! ## Leases -/

theorem launch_grants {x : Loop} {clock : Time} {messages : List OutboxMessage} {key : String}
    (h : key ∉ messages.map (·.eventKey)) :
    ((launch x clock messages).map (·.grant)).filter (fun g => decide (g.key = key)) = [] := by
  rw [List.filter_eq_nil_iff]
  intro g hg hkey
  obtain ⟨f, hf, rfl⟩ := List.mem_map.mp hg
  obtain ⟨m, hm, rfl⟩ := List.mem_map.mp hf
  exact h (of_decide_eq_true hkey ▸ List.mem_map_of_mem hm)

theorem launch_grants_of_mem {x : Loop} {clock : Time} {messages : List OutboxMessage}
    {m : OutboxMessage} (hnodup : (messages.map (·.eventKey)).Nodup) (hm : m ∈ messages) :
    ((launch x clock messages).map (·.grant)).filter (fun g => decide (g.key = m.eventKey)) =
      [⟨m.eventKey, m.attempts, x, clock⟩] := by
  induction messages with
  | nil => cases hm
  | cons first rest ih =>
      obtain ⟨hfirst, hrest⟩ := List.nodup_cons.mp hnodup
      have hsplit : (launch x clock (first :: rest)).map (·.grant) =
          ⟨first.eventKey, first.attempts, x, clock⟩ :: (launch x clock rest).map (·.grant) := rfl
      rw [hsplit]
      rcases List.mem_cons.mp hm with rfl | hm
      · rw [List.filter_cons_of_pos (by simp), launch_grants hfirst]
      · have hne : first.eventKey ≠ m.eventKey := by
          intro heq
          apply hfirst
          show first.eventKey ∈ _
          rw [heq]
          exact List.mem_map_of_mem hm
        rw [List.filter_cons_of_neg (by simpa using hne)]
        exact ih hrest hm

/-- **Granting.** A lease by a loop with nothing in flight keeps the invariant. -/
theorem Drain.Inv.lease {loops : Loops} {s : Drain} {x : Loop} {t : DbTime}
    {skip : String → Bool} {messages : List OutboxMessage} {db' : Db} (h : s.Inv loops)
    (hx : loops.runs x) (hidle : ∀ f ∈ s.flights, f.grant.loop ≠ x)
    (hc : (leaseOutboxMessagesForSubject x.dispatcherId x.subject x.leaseTimeout x.batchSize skip
      t).Commits s.db messages db') :
    ({ s with
      db := db', flights := s.flights ++ launch x t.clock messages,
      grants := (launch x t.clock messages).map (·.grant) ++ s.grants } : Drain).Inv loops := by
  obtain ⟨hnodup, hframe, hmessages⟩ := leaseOutboxMessagesForSubject_commits hc
  have hids : OutboxIds db' := (leaseOutboxMessagesForSubject_kept hc).1.ids h.ids
  have hother : ∀ key, key ∉ messages.map (·.eventKey) →
      ((launch x t.clock messages).map (·.grant) ++ s.grants).filter
        (fun g => decide (g.key = key)) = s.grantsOf key := by
    intro key hkey
    rw [List.filter_append, launch_grants hkey, List.nil_append]
    rfl
  have hself : ∀ m ∈ messages, ((launch x t.clock messages).map (·.grant) ++ s.grants).filter
      (fun g => decide (g.key = m.eventKey)) =
        ⟨m.eventKey, m.attempts, x, t.clock⟩ :: s.grantsOf m.eventKey := by
    intro m hm
    rw [List.filter_append, launch_grants_of_mem hnodup hm]
    rfl
  refine ⟨hids, fun key new hrow => ?_, fun key hnone => ?_, fun f hf => ?_⟩
  · by_cases hkey : key ∈ messages.map (·.eventKey)
    · obtain ⟨m, hm, rfl⟩ := List.mem_map.mp hkey
      obtain ⟨row, hold, hleasable, hnew, hcopy⟩ := hmessages m hm
      obtain rfl := Option.some.inj (hnew.symm.trans hrow)
      have hok := h.rows _ row hold
      have hattempts : m.attempts = row.attempts + 1 := by rw [hcopy]; rfl
      simp only [OutboxRow.leasable, Bool.and_eq_true, decide_eq_true_eq] at hleasable
      obtain ⟨⟨⟨hunpublished, hchannel⟩, _⟩, hlocked⟩ := hleasable
      refine ⟨?_, ?_, ?_, ?_, fun hpub => ?_⟩
      · show List.map _ (List.filter _ _) = _
        rw [hself m hm]
        show m.attempts :: (s.grantsOf m.eventKey).map (·.number) =
          (List.range (row.attempts + 1)).reverse.map (· + 1)
        rw [hok.numbered, hattempts, List.range_succ]
        simp
      · show ∀ g ∈ (List.filter _ _).head?, _
        rw [hself m hm]
        intro g hg
        obtain rfl := Option.some.inj hg
        exact Or.inr ⟨rfl, rfl⟩
      · show (List.filter _ _).IsChain _
        rw [hself m hm]
        -- the last lease was ended, or the row's lock is still its own and has run out
        refine List.isChain_cons.mpr ⟨fun g hg => ?_, hok.apart⟩
        obtain ⟨hruns, hsubject⟩ := hok.channel g (List.mem_of_mem_head? hg)
        rcases hok.current g hg with hended | ⟨_, hat⟩
        · exact Or.inl hended
        · right
          rw [hat] at hlocked
          have hle : g.grantedAt ≤ t.clock - x.leaseMicros := of_decide_eq_true hlocked
          have hmicros : g.loop.leaseMicros = x.leaseMicros := by
            unfold Loop.leaseMicros
            rw [loops.agree _ _ hruns hx (hsubject.trans hchannel)]
          show g.grantedAt + g.loop.leaseMicros ≤ t.clock
          rw [hmicros]
          exact Int.add_le_of_le_sub_right hle
      · show ∀ g ∈ List.filter _ _, _
        rw [hself m hm]
        intro g hg
        rcases List.mem_cons.mp hg with rfl | hg
        · exact ⟨hx, hchannel.symm⟩
        · exact hok.channel g hg
      · have hpub' : row.publishedAt.isSome := hpub
        rw [Option.isNone_iff_eq_none.mp hunpublished] at hpub'
        cases hpub'
    · rw [hframe key hkey] at hrow
      exact (h.rows key new hrow).mono (hother key hkey) (List.Subset.refl _)
        (List.Subset.refl _) (List.Subset.refl _)
  · by_cases hkey : key ∈ messages.map (·.eventKey)
    · obtain ⟨m, hm, rfl⟩ := List.mem_map.mp hkey
      obtain ⟨row, _, _, hnew, _⟩ := hmessages m hm
      rw [show db'.message? m.eventKey = none from hnone] at hnew
      cases hnew
    · show List.filter _ _ = []
      rw [hother key hkey]
      exact h.fresh key ((hframe key hkey).symm.trans hnone)
  · rcases List.mem_append.mp hf with hold | hnew
    · obtain ⟨row, hrow⟩ := h.flights f hold
      by_cases hkey : f.grant.key ∈ messages.map (·.eventKey)
      · -- the row went to another loop
        obtain ⟨m, hm, hmkey⟩ := List.mem_map.mp hkey
        obtain ⟨row', hstored, _, hlock, _⟩ := hmessages m hm
        rw [hmkey] at hstored hlock
        obtain rfl := Option.some.inj (hstored.symm.trans hrow.stored)
        have hkeeps : row'.Keeps (row'.lock x.dispatcherId t.clock) := ⟨rfl, rfl, rfl, fun _ => rfl⟩
        refine ⟨_, hrow.runs, hlock, hrow.keyed, hrow.id, hrow.subject, hrow.payload, hrow.channel,
          fun howner => ?_, hrow.reached.mono hkeeps (List.Subset.refl _) (List.Subset.refl _)⟩
        have hname : x.dispatcherId = f.grant.loop.dispatcherId := Option.some.inj howner
        exact absurd (loops.distinct _ _ hrow.runs hx hname.symm) (hidle f hold)
      · refine ⟨row, hrow.runs, (hframe _ hkey).trans hrow.stored, hrow.keyed, hrow.id,
          hrow.subject, hrow.payload, hrow.channel, fun howner => ?_,
          hrow.reached.mono (.refl row) (List.Subset.refl _) (List.Subset.refl _)⟩
        show f.grant ∈ (List.filter _ _).head?
        rw [hother _ hkey]
        exact hrow.owner howner
    · obtain ⟨m, hm, rfl⟩ := List.mem_map.mp hnew
      obtain ⟨row, _, hleasable, hlock, hcopy⟩ := hmessages m hm
      simp only [OutboxRow.leasable, Bool.and_eq_true, decide_eq_true_eq] at hleasable
      refine ⟨_, hx, hlock, rfl, ?_, ?_, ?_, hleasable.1.1.2, fun _ => ?_, trivial⟩
      · show m.id = row.id
        rw [hcopy]
        rfl
      · show m.subject = row.subject
        rw [hcopy]
        rfl
      · show m.payload = row.payload
        rw [hcopy]
        rfl
      · show _ ∈ (List.filter _ _).head?
        rw [hself m hm]
        rfl

/-! ## Steps -/

/-- A call that is not one of a publisher settles every row: it keeps it. -/
theorem Drain.Inv.other {loops : Loops} {s : Drain} {op : Op} {t : DbTime} {db' : Db}
    {answer : Except RepositoryError op.Out} (h : s.Inv loops) (hop : op.publishes = false)
    (hexec : (op.tx t).exec s.db = (answer, db')) : ({ s with db := db' } : Drain).Inv loops := by
  rcases Tx.exec_cases (op.tx t) s.db with ⟨out, db₁, hc, he⟩ | ⟨e, _, he⟩
  · obtain ⟨_, rfl⟩ := Prod.mk.inj (he.symm.trans hexec)
    refine h.settle ((Op.outbox hc).ids h.ids) (fun key old hold => ?_)
      (fun key new hold hnew => Op.newMessage hc hold hnew) (List.Subset.refl _)
      (List.Subset.refl _)
    obtain ⟨new, hnew, hchange⟩ := Op.leases hc hold
    refine ⟨new, hnew, ?_⟩
    cases hchange with
    | kept => exact Or.inl rfl
    | leased heq _ => rw [heq] at hop; cases hop
    | published heq _ _ => rw [heq] at hop; cases hop
    | released heq _ _ => rw [heq] at hop; cases hop
  · obtain ⟨_, rfl⟩ := Prod.mk.inj (he.symm.trans hexec)
    exact h

/-- A finalization of a flight, answered or failed. -/
theorem Drain.Inv.finalize {loops : Loops} {s : Drain} {f : Flight} {before after : List Flight}
    (op : Op) (t : DbTime) {answer : Except RepositoryError op.Out} {db' : Db} (h : s.Inv loops)
    (hs : s.flights = before ++ f :: after)
    (hop : (f.stage = .done ∧ op = .markOutboxPublished f.message.id f.grant.loop.dispatcherId) ∨
      ∃ availableAt error, op = .retryOutboxMessage f.message.id f.grant.loop.dispatcherId
        availableAt error)
    (hexec : (op.tx t).exec s.db = (answer, db')) :
    ({ s with
      db := db', flights := before ++ after,
      ended := ending f.grant answer ++ s.ended } : Drain).Inv loops := by
  have hsub : before ++ after ⊆ s.flights := by
    rw [hs]
    intro x hx
    rcases List.mem_append.mp hx with hb | ha
    · exact List.mem_append_left _ hb
    · exact List.mem_append_right _ (List.mem_cons_of_mem _ ha)
  obtain ⟨row, hf⟩ := h.flights f (by rw [hs]; exact List.mem_append_right _ List.mem_cons_self)
  rcases Tx.exec_cases (op.tx t) s.db with ⟨out, db₁, hc, he⟩ | ⟨e, _, he⟩
  · obtain ⟨rfl, rfl⟩ := Prod.mk.inj (he.symm.trans hexec)
    refine h.settle ((Op.outbox hc).ids h.ids) (fun key old hold => ?_)
      (fun key new hold hnew => Op.newMessage hc hold hnew) (List.subset_append_right _ _) hsub
    obtain ⟨new, hnew, hchange⟩ := Op.leases hc hold
    exact ⟨new, hnew, h.settles hf hold hchange hop⟩
  · obtain ⟨rfl, rfl⟩ := Prod.mk.inj (he.symm.trans hexec)
    exact h.settle h.ids (fun key old hold => ⟨old, hold, Or.inl rfl⟩)
      (fun key new hold hnew => absurd (hold.symm.trans hnew) (Option.some_ne_none _).symm)
      (List.subset_append_right _ _) hsub

/-- **One step.** Every step keeps the invariant. -/
theorem Drain.Inv.step {loops : Loops} {s s' : Drain} (h : s.Inv loops)
    (hstep : Drain.Step loops s s') : s'.Inv loops := by
  cases hstep with
  | other hop hexec => exact h.other hop hexec
  | lease hx hidle hexec => exact h.lease hx hidle (Tx.commits_of_exec hexec)
  | @send f p before after hs hstage hverdict =>
      refine h.progress hs rfl rfl rfl (List.Subset.refl _) (List.Subset.refl _) rfl
        fun row hf => ?_
      have hof := Loop.verdict_send hverdict hf.payload hf.channel
      rw [hf.keyed] at hof
      exact hof
  | @waive f before after hs hstage hverdict =>
      refine h.progress hs rfl rfl rfl (List.Subset.refl _) (List.subset_cons_self _ _) rfl
        fun row hf => Or.inr ⟨?_, List.mem_cons_self⟩
      exact hf.channel.trans (Loop.verdict_waive hverdict)
  | refuse hs hstage =>
      exact h.progress hs rfl rfl rfl (List.Subset.refl _) (List.Subset.refl _) rfl
        fun row hf => trivial
  | @confirm f p before after hs hstage =>
      refine h.progress hs rfl rfl rfl (List.subset_cons_self _ _) (List.Subset.refl _) rfl
        fun row hf => Or.inl ⟨p, List.mem_cons_self, ?_⟩
      have hreached := hf.reached
      rw [hstage] at hreached
      exact hreached
  | unconfirmed hs hstage =>
      exact h.progress hs rfl rfl rfl (List.Subset.refl _) (List.Subset.refl _) rfl
        fun row hf => trivial
  | @mark f before after t answer db' hs hstage hexec =>
      exact Drain.Inv.finalize (.markOutboxPublished f.message.id f.grant.loop.dispatcherId) t h hs
        (Or.inl ⟨hstage, rfl⟩) hexec
  | @retry f text before after availableAt answer db' hs hstage hexec =>
      -- a retry reads no clock
      exact Drain.Inv.finalize (.retryOutboxMessage f.message.id f.grant.loop.dispatcherId availableAt
        (f.grant.loop.retryError text)) ⟨0, 0, 0⟩ h hs (Or.inr ⟨_, _, rfl⟩) hexec
  | drop hsub =>
      exact h.settle h.ids (fun key old hold => ⟨old, hold, Or.inl rfl⟩)
        (fun key new hold hnew => absurd (hold.symm.trans hnew) (Option.some_ne_none _).symm)
        (List.Subset.refl _) hsub.subset

theorem drain_inv (loops : Loops) : (drain loops).Invariant (Drain.Inv loops) := by
  apply TSys.Inductive.invariant
  constructor
  · rintro s ⟨catalog, rfl⟩
    refine ⟨fun key row hrow => ?_, fun key row hrow => ?_, fun _ _ => rfl, fun f hf => ?_⟩
    · cases hrow
    · cases hrow
    · cases hf
  · intro s _ s' _ h hstep
    exact h.step hstep

/-! ## The result -/

/-- With a clock that does not go back, any older lease of a row was over when a newer one
was granted. -/
theorem Apart.pairwise {ended grants : List Grant} (h : grants.IsChain (Apart ended))
    (hclock : grants.Pairwise fun newer older => older.grantedAt ≤ newer.grantedAt) :
    grants.Pairwise (Apart ended) := by
  induction grants with
  | nil => exact .nil
  | cons newest rest ih =>
      obtain ⟨hhead, htail⟩ := List.isChain_cons.mp h
      obtain ⟨hnewest, hrest⟩ := List.pairwise_cons.mp hclock
      have hpairs := ih htail hrest
      refine List.pairwise_cons.mpr ⟨fun older hmem => ?_, hpairs⟩
      cases rest with
      | nil => cases hmem
      | cons next others =>
          rcases List.mem_cons.mp hmem with rfl | hmem
          · exact hhead older rfl
          · have hnext := (List.pairwise_cons.mp hpairs).1 older hmem
            refine hnext.imp_right fun hle => ?_
            exact Int.le_trans hle (hnewest next List.mem_cons_self)

/-- A positive timeout is not lengthened, and whole milliseconds are kept. -/
theorem Loop.leaseMicros_le {x : Loop} (h : 0 < x.leaseTimeout) :
    x.leaseMicros ≤ x.leaseTimeout ∧ (1000 ∣ x.leaseTimeout → x.leaseMicros = x.leaseTimeout) := by
  unfold leaseMicros
  rw [Int.tdiv_eq_ediv_of_nonneg (Int.le_of_lt h)]
  exact ⟨Int.ediv_mul_le _ (by decide), Int.ediv_mul_cancel⟩

/-- An unpublished row is leasable once it is due and its lock has run out. -/
theorem OutboxRow.leasable_later {row : OutboxRow} {x : Loop} (hx : 0 < x.leaseTimeout)
    (hpub : row.publishedAt = none) (hchannel : row.subject = x.subject) {clock : Time}
    (hdue : row.availableAt < clock)
    (hlock : ∀ lockedAt ∈ row.lockedAt, lockedAt + x.leaseTimeout < clock) :
    row.leasable x.subject x.leaseMicros clock = true := by
  have hle := (Loop.leaseMicros_le hx).1
  simp only [leasable, hpub, hchannel, Option.isNone_none, decide_true, Bool.true_and,
    Bool.and_eq_true, decide_eq_true_eq]
  refine ⟨Int.le_of_lt hdue, ?_⟩
  cases hl : row.lockedAt with
  | none => rfl
  | some lockedAt =>
      have hlt := hlock lockedAt hl
      apply decide_eq_true
      apply Int.le_sub_right_of_add_le
      exact Int.le_of_lt (Int.lt_of_le_of_lt (Int.add_le_add_left hle _) hlt)

/-- A step changes no published row and removes no row. -/
theorem Drain.Step.rows {loops : Loops} {s s' : Drain} (hstep : Drain.Step loops s s')
    {key : String} {row : OutboxRow} (hrow : s.db.message? key = some row) :
    ∃ row', s'.db.message? key = some row' ∧ (row.publishedAt.isSome → row' = row) := by
  have hcall : ∀ (op : Op) (t : DbTime) (answer : Except RepositoryError op.Out) (db' : Db),
      (op.tx t).exec s.db = (answer, db') →
      ∃ row', db'.message? key = some row' ∧ (row.publishedAt.isSome → row' = row) := by
    intro op t answer db' hexec
    rcases Tx.exec_cases (op.tx t) s.db with ⟨out, db₁, hc, he⟩ | ⟨e, _, he⟩
    · obtain ⟨_, rfl⟩ := Prod.mk.inj (he.symm.trans hexec)
      obtain ⟨new, hnew, hchange⟩ := Op.leases hc hrow
      exact ⟨new, hnew, hchange.of_published⟩
    · obtain ⟨_, rfl⟩ := Prod.mk.inj (he.symm.trans hexec)
      exact ⟨row, hrow, fun _ => rfl⟩
  cases hstep with
  | @other op t answer db' _ hexec => exact hcall op t answer db' hexec
  | @lease x t skip messages db' _ _ hexec =>
      exact hcall (.leaseOutboxMessages x.dispatcherId x.subject x.leaseTimeout x.batchSize skip) t
        (.ok messages) db' hexec
  | @mark f before after t answer db' _ _ hexec =>
      exact hcall (.markOutboxPublished f.message.id f.grant.loop.dispatcherId) t answer db' hexec
  | @retry f text before after availableAt answer db' _ _ hexec =>
      exact hcall (.retryOutboxMessage f.message.id f.grant.loop.dispatcherId availableAt
        (f.grant.loop.retryError text)) ⟨0, 0, 0⟩ answer db' hexec
  | send | waive | refuse | confirm | unconfirmed | drop => exact ⟨row, hrow, fun _ => rfl⟩

/-- **At least once.** In every run of loops with names of their own: a row is published
after its publication was confirmed, or its registration seen missing or inactive; the
leases of a row are numbered by its attempts, go to loops of its channel, and each is
over when the next is granted; an unpublished row can be leased again once it is due and
its lock has run out; no step removes a row or changes a published one. -/
theorem outbox_drained (loops : Loops) {s : Drain} (hs : (drain loops).Reachable s) :
    (∀ key row, s.db.message? key = some row →
      (row.publishedAt.isSome → s.Delivered key row) ∧
      (s.grantsOf key).map (·.number) = (List.range row.attempts).reverse.map (· + 1) ∧
      row.attempts = (s.grantsOf key).length ∧
      (∀ g ∈ s.grantsOf key, loops.runs g.loop ∧ g.loop.subject = row.subject) ∧
      (s.grantsOf key).IsChain (Apart s.ended) ∧
      ((s.grantsOf key).Pairwise (fun newer older => older.grantedAt ≤ newer.grantedAt) →
        (s.grantsOf key).Pairwise (Apart s.ended)) ∧
      ∀ x clock, loops.runs x → row.publishedAt = none → row.subject = x.subject →
        row.availableAt < clock →
        (∀ lockedAt ∈ row.lockedAt, lockedAt + x.leaseTimeout < clock) →
        row.leasable x.subject x.leaseMicros clock = true) ∧
    (∀ x, loops.runs x → x.leaseMicros ≤ x.leaseTimeout ∧
      (1000 ∣ x.leaseTimeout → x.leaseMicros = x.leaseTimeout)) ∧
    ∀ s', (drain loops).step s () s' → ∀ key row, s.db.message? key = some row →
      ∃ row', s'.db.message? key = some row' ∧ (row.publishedAt.isSome → row' = row) := by
  have hinv := drain_inv loops s hs
  refine ⟨fun key row hrow => ?_, fun x hx => Loop.leaseMicros_le (loops.valid x hx),
    fun s' hstep key row hrow => hstep.rows hrow⟩
  have hok := hinv.rows key row hrow
  refine ⟨hok.delivered, hok.numbered, ?_, hok.channel, hok.apart, Apart.pairwise hok.apart,
    fun x clock hx hpub hchannel hdue hlock =>
      OutboxRow.leasable_later (loops.valid x hx) hpub hchannel hdue hlock⟩
  have hlength := congrArg List.length hok.numbered
  simpa using hlength.symm

theorem Drain.step_other {loops : Loops} (s : Drain) {op : Op} (hop : op.publishes = false)
    (t : DbTime) : (drain loops).step s () { s with db := ((op.tx t).exec s.db).2 } :=
  .other hop rfl

/-- The queue dispatcher of one API process. -/
def Sample.queueLoop : Loop := .queue ⟨"api-a", 90 * 1000000, 50⟩

def Sample.loops : Loops where
  runs x := x = queueLoop
  valid := by rintro x rfl; decide
  distinct := by rintro x y rfl rfl _; rfl
  agree := by rintro x y rfl rfl _; rfl

/-- The lease of the created job's queue message: its answer and the database after it. -/
def Sample.leasing : Except RepositoryError (List OutboxMessage) × Db :=
  (leaseOutboxMessagesForSubject "api-a" jobsQueuedSubject (90 * 1000000) 50 (fun _ => false)
    (at_ 3)).exec ((create.tx (at_ 2)).exec (Db.empty catalog)).2

/-- The queue message of a created job, leased once. -/
theorem outbox_drained_leased : ∃ s, (drain Sample.loops).Reachable s ∧
    s.db = Sample.leasing.2 ∧ ∃ row, s.db.message? Sample.job.val = some row ∧
      row.attempts = 1 ∧ row.attempts = (s.grantsOf Sample.job.val).length := by
  have hanswer : Sample.leasing.1.isOk = true := by decide +kernel
  have hrow : (Sample.leasing.2.message? Sample.job.val).any (fun row => row.attempts = 1) =
      true := by decide +kernel
  obtain ⟨row, hstored, hattempts⟩ := Option.any_eq_true _ _ |>.mp hrow
  cases hleasing : Sample.leasing.1 with
  | error e => rw [hleasing] at hanswer; cases hanswer
  | ok messages =>
      have hcreate := @Drain.step_other Sample.loops ⟨Db.empty Sample.catalog, [], [], [], [], []⟩
        Sample.create rfl (Sample.at_ 2)
      have hexec : (leaseOutboxMessagesForSubject "api-a" jobsQueuedSubject (90 * 1000000) 50
          (fun _ => false) (Sample.at_ 3)).exec
            ((Sample.create.tx (Sample.at_ 2)).exec (Db.empty Sample.catalog)).2 =
          (.ok messages, Sample.leasing.2) := Prod.ext hleasing rfl
      have hlease := @Drain.Step.lease Sample.loops
        ⟨((Sample.create.tx (Sample.at_ 2)).exec (Db.empty Sample.catalog)).2, [], [], [], [], []⟩
        Sample.queueLoop (Sample.at_ 3) (fun _ => false) messages Sample.leasing.2 rfl
        (fun f hf => by cases hf) hexec
      have hreach := @TSys.Reachable.step _ _ (drain Sample.loops) _ () _
        (.step (.init ⟨Sample.catalog, rfl⟩) hcreate) hlease
      refine ⟨_, hreach, rfl, row, hstored, of_decide_eq_true hattempts, ?_⟩
      exact ((outbox_drained Sample.loops hreach).1 _ row hstored).2.2.1

end RunAnywhere
