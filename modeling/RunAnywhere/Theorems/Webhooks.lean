import RunAnywhere.Api.Webhooks
import RunAnywhere.Logic.Result
import RunAnywhere.Theorems.Poison
import RunAnywhere.Theorems.Screening

/-!
# Where events go

An event of a job is posted to the URLs its own project registered, and to no other place. A
dispatcher looks at the registration and resolves its URL for every delivery; what it connects to
is what it checked.

* **what lasts** — events, the projects of jobs, the payloads of rows and registrations
  (`Db.HooksLater`); a registration that is inactive stays so;
* **addressed rows** — a row carries a logged event to a subscriber of the job's project
  (`Db.HooksSound`);
* **steps** — `HookTask.Kind.Permits` says what a task does after which of its steps;
* **requests** — every POST request of every run (`Confined`).
-/

namespace RunAnywhere

open Logic

/-! ## What lasts -/

/-- What every later database keeps. -/
structure Db.HooksLater (db db' : Db) : Prop where
  events : ∀ e ∈ db.events, e ∈ db'.events
  jobs : ∀ j row, db.job? j = some row → ∃ row', db'.job? j = some row' ∧
    row'.projectId = row.projectId
  rows : ∀ key row, db.message? key = some row → ∃ row', db'.message? key = some row' ∧
    row'.payload = row.payload
  hooks : ∀ id w, db.webhook? id = some w → ∃ w', db'.webhook? id = some w' ∧
    w'.projectId = w.projectId ∧ w'.url = w.url ∧ w'.events = w.events ∧
    (w'.active = true → w.active = true)

theorem Db.HooksLater.refl (db : Db) : db.HooksLater db where
  events _ h := h
  jobs _ row h := ⟨row, h, rfl⟩
  rows _ row h := ⟨row, h, rfl⟩
  hooks _ w h := ⟨w, h, rfl, rfl, rfl, fun hactive => hactive⟩

theorem Db.HooksLater.trans {a b c : Db} (h : a.HooksLater b) (k : b.HooksLater c) :
    a.HooksLater c := by
  refine ⟨fun e he => k.events e (h.events e he), fun j row hrow => ?_, fun key row hrow => ?_,
    fun id w hw => ?_⟩
  · obtain ⟨row₁, hrow₁, hproject⟩ := h.jobs j row hrow
    obtain ⟨row₂, hrow₂, hproject'⟩ := k.jobs j row₁ hrow₁
    exact ⟨row₂, hrow₂, hproject'.trans hproject⟩
  · obtain ⟨row₁, hrow₁, hpayload⟩ := h.rows key row hrow
    obtain ⟨row₂, hrow₂, hpayload'⟩ := k.rows key row₁ hrow₁
    exact ⟨row₂, hrow₂, hpayload'.trans hpayload⟩
  · obtain ⟨w₁, hw₁, hproject, hurl, hevents, hactive⟩ := h.hooks id w hw
    obtain ⟨w₂, hw₂, hproject', hurl', hevents', hactive'⟩ := k.hooks id w₁ hw₁
    exact ⟨w₂, hw₂, hproject'.trans hproject, hurl'.trans hurl, hevents'.trans hevents,
      fun hnow => hactive (hactive' hnow)⟩

/-- A call that keeps the registrations. -/
theorem Op.webhooks_kept {op : Op} {t : DbTime} {db db' : Db} {out : op.Out}
    (hkeeps : op.keepsWebhooks db = true) (h : (op.tx t).Commits db out db') (id : WebhookId) :
    db'.webhook? id = db.webhook? id := by
  by_cases hset : ∃ catalog, op = .setCatalog catalog
  · obtain ⟨catalog, rfl⟩ := hset
    obtain rfl := Tx.write_commits.mp h
    have hsame : catalog.webhooks = db.catalog.webhooks := of_decide_eq_true hkeeps
    exact congrArg (Table.get? · id) hsame
  · have hcatalog := Op.catalog_eq h fun catalog hop => hset ⟨catalog, hop⟩
    unfold Db.webhook?
    rw [hcatalog]

theorem Op.hooksLater {op : Op} {t : DbTime} {db db' : Db} {out : op.Out}
    (hkeeps : op.keepsWebhooks db = true) (h : (op.tx t).Commits db out db') :
    db.HooksLater db' := by
  refine ⟨fun e he => ?_, fun j row hrow => ?_, fun key row hrow => ?_, fun id w hw => ?_⟩
  · obtain ⟨l, hl, _⟩ := Op.events h
    rw [hl]
    exact List.mem_append_left _ he
  · rcases Op.rows h j with ⟨hsame, _⟩ | ⟨row', hrow', hchange⟩
    · exact ⟨row, hsame.trans hrow, rfl⟩
    · rw [hrow] at hchange
      exact ⟨row', hrow', hchange.identity.1⟩
  · obtain ⟨row', hrow', hkept⟩ := (Op.outbox h).old key row hrow
    exact ⟨row', hrow', hkept.payload⟩
  · exact ⟨w, (Op.webhooks_kept hkeeps h id).trans hw, rfl, rfl, rfl, fun hactive => hactive⟩

/-- A registration is stored, under a free identifier or with less activity. -/
theorem Db.HooksLater.put {db : Db} {id : WebhookId} {w : Webhook}
    (h : ∀ old, db.webhook? id = some old → w.projectId = old.projectId ∧ w.url = old.url ∧
      w.events = old.events ∧ (w.active = true → old.active = true)) :
    db.HooksLater (db.putWebhook id w) where
  events _ he := he
  jobs _ row hrow := ⟨row, hrow, rfl⟩
  rows _ row hrow := ⟨row, hrow, rfl⟩
  hooks id' old hold := by
    rw [Db.webhook?_putWebhook]
    split
    · next hid =>
        subst hid
        exact ⟨w, rfl, h old hold⟩
    · exact ⟨old, hold, rfl, rfl, rfl, fun hactive => hactive⟩

/-! ## Addressed rows -/

/-- The row under `key` carries a logged event to a subscriber of the job's project. -/
structure Db.Addressed (db : Db) (key : String) (payload : WebhookOutboxPayload) : Prop where
  keyed : key = webhookKey payload.event.id payload.webhookId
  logged : payload.event ∈ db.events
  hook : ∃ w, db.webhook? payload.webhookId = some w ∧ w.url = payload.url ∧
    .jobStateChanged ∈ w.events ∧
    ∃ row, db.job? payload.event.jobId = some row ∧ row.projectId = w.projectId

theorem Db.Addressed.later {db db' : Db} {key : String} {payload : WebhookOutboxPayload}
    (h : db.Addressed key payload) (hl : db.HooksLater db') : db'.Addressed key payload := by
  obtain ⟨hkey, hlogged, w, hw, hurl, hevents, row, hrow, hproject⟩ := h
  obtain ⟨w', hw', hproject', hurl', hevents', _⟩ := hl.hooks _ w hw
  obtain ⟨row', hrow', hsame⟩ := hl.jobs _ row hrow
  refine ⟨hkey, hl.events _ hlogged, w', hw', hurl'.trans hurl, hevents' ▸ hevents, row', hrow', ?_⟩
  rw [hsame, hproject, hproject']

/-- The log is true, and every webhook row is addressed. -/
structure Db.HooksSound (db : Db) : Prop where
  log : db.LogSound
  rows : ∀ key row payload, db.message? key = some row → row.payload = .webhook payload →
    db.Addressed key payload

/-- A new row of a call is addressed. -/
theorem Op.addresses {op : Op} {t : DbTime} {db db' : Db} {out : op.Out} (hsound : db.LogSound)
    (h : (op.tx t).Commits db out db') {key : String} {row : OutboxRow}
    (hnone : db.message? key = none) (hrow : db'.message? key = some row)
    {payload : WebhookOutboxPayload} (hpayload : row.payload = .webhook payload) :
    db'.Addressed key payload := by
  have hsubject : row.subject = webhookSubject := by
    cases (Op.outbox h).new key row hrow with
    | kept old was => rw [hnone] at was; cases was
    | webhook _ _ hrow => exact hrow.1
    | created job _ _ _ _ _ hqueued => rw [hpayload] at hqueued; cases hqueued
    | marker job _ _ _ _ _ _ _ _ _ _ hletter =>
        obtain ⟨letter, hdead, _⟩ := hletter
        rw [hpayload] at hdead
        cases hdead
    | letter _ _ _ _ _ hdead => rw [hpayload] at hdead; cases hdead
  have hlogs := Op.logs h
  cases hwrote : op.wrote out with
  | none =>
      rw [hwrote] at hlogs
      exact absurd hsubject (hlogs.outbox key row hnone hrow).1
  | some j =>
      rw [hwrote] at hlogs
      obtain ⟨jobRow, hw⟩ := hlogs
      obtain ⟨event, hlogged, _⟩ := hw.logged hsound.keys
      obtain ⟨hook, hmem, hkey⟩ := hlogged.notifies.only key row hnone hrow hsubject
      obtain ⟨_, row', hrow', hdelivers⟩ := hlogged.notifies.added hook hmem
      rw [← hkey] at hrow'
      obtain rfl := Option.some.inj (hrow'.symm.trans hrow)
      obtain rfl := OutboxPayload.webhook.inj (hdelivers.payload.symm.trans hpayload)
      have hsubscribed : hook ∈ db'.subscriptions j := by
        split at hmem
        · exact absurd hmem List.not_mem_nil
        · exact hmem
      unfold Db.subscriptions at hsubscribed
      rw [hlogged.row?] at hsubscribed
      obtain ⟨hin, hfilter⟩ := List.mem_filter.mp ((List.mem_insertionSort _).mp hsubscribed)
      simp only [Bool.and_eq_true, decide_eq_true_iff, List.contains_iff_mem] at hfilter
      obtain ⟨⟨hproject, _⟩, hevents⟩ := hfilter
      refine ⟨hkey, ?_, hook.2, (Table.mem_rows_iff _ _ _).mp hin, rfl, hevents, jobRow, ?_,
        hproject.symm⟩
      · rw [hlogged.events]
        exact List.mem_append_right _ List.mem_cons_self
      · rw [hlogged.job]
        exact hlogged.row?

/-- Rows that were there stay addressed. -/
theorem Db.HooksSound.step {db db' : Db} (h : db.HooksSound) (hlog : db'.LogSound)
    (hl : db.HooksLater db') (hnew : ∀ key row payload, db.message? key = none →
      db'.message? key = some row → row.payload = .webhook payload → db'.Addressed key payload) :
    db'.HooksSound := by
  refine ⟨hlog, fun key row payload hrow hpayload => ?_⟩
  cases hold : db.message? key with
  | none => exact hnew key row payload hold hrow hpayload
  | some old =>
      obtain ⟨row', hrow', hsame⟩ := hl.rows key old hold
      obtain rfl := Option.some.inj (hrow'.symm.trans hrow)
      exact (h.rows key old payload hold (hsame.symm.trans hpayload)).later hl

/-- A registration is stored. -/
theorem Db.HooksSound.put {db : Db} (h : db.HooksSound) {id : WebhookId} {w : Webhook}
    (hl : db.HooksLater (db.putWebhook id w)) : (db.putWebhook id w).HooksSound := by
  refine h.step (h.log.quiet (Quiet.of_eq rfl rfl rfl rfl)) hl fun key row _ hnone hrow _ => ?_
  rw [Db.message?_putWebhook, hnone] at hrow
  cases hrow

theorem Op.hooksSound {op : Op} {t : DbTime} {db db' : Db} {out : op.Out}
    (hkeeps : op.keepsWebhooks db = true) (h : (op.tx t).Commits db out db')
    (hsound : db.HooksSound) : db'.HooksSound := by
  have hlog : db'.LogSound := by
    have hlogs := Op.logs h
    cases hwrote : op.wrote out with
    | none =>
        rw [hwrote] at hlogs
        exact hsound.log.quiet hlogs
    | some j =>
        rw [hwrote] at hlogs
        obtain ⟨row, hwrote'⟩ := hlogs
        exact hsound.log.wrote hwrote'
  refine hsound.step hlog (Op.hooksLater hkeeps h) fun key row payload hnone hrow hpayload => ?_
  exact Op.addresses hsound.log h hnone hrow hpayload

/-! ## Moves -/

variable {x : HookServices} {db db' : Db}

/-- A move: later, and sound if it was; a registration that is new was stored by `create`. -/
structure HookStep (db db' : Db) (create : WebhookId → CreateWebhookRequest → Prop) : Prop where
  later : db.HooksLater db'
  sound : db.HooksSound → db'.HooksSound
  hooks : ∀ id w', db'.webhook? id = some w' →
    (∃ w, db.webhook? id = some w ∧ w'.projectId = w.projectId ∧ w'.url = w.url ∧
      w'.events = w.events) ∨
    ∃ request, create id request ∧ w' = ⟨request.projectId, request.url.val, request.events, true⟩

theorem HookStep.refl (db : Db) (create : WebhookId → CreateWebhookRequest → Prop) :
    HookStep db db create :=
  ⟨.refl db, fun h => h, fun _ w hw => Or.inl ⟨w, hw, rfl, rfl, rfl⟩⟩

/-- A call of the repository that keeps the registrations. -/
theorem HookStep.op {op : Op} {t : DbTime} {create : WebhookId → CreateWebhookRequest → Prop}
    (hkeeps : op.keepsWebhooks db = true) : HookStep db ((op.tx t).exec db).2 create := by
  rcases Tx.exec_cases (op.tx t) db with ⟨out, db', hcommits, hexec⟩ | ⟨e, _, hexec⟩
  · rw [hexec]
    refine ⟨Op.hooksLater hkeeps hcommits, Op.hooksSound hkeeps hcommits, fun id w' hw' => ?_⟩
    rw [Op.webhooks_kept hkeeps hcommits id] at hw'
    exact Or.inl ⟨w', hw', rfl, rfl, rfl⟩
  · rw [hexec]
    exact .refl db create

/-- A registration is made inactive. -/
theorem HookStep.deactivate (id : WebhookId) {create : WebhookId → CreateWebhookRequest → Prop} :
    HookStep db ((deactivateWebhook id).exec db).2 create := by
  rcases Tx.exec_cases (deactivateWebhook id) db with ⟨out, db', hcommits, hexec⟩ | ⟨e, _, hexec⟩
  · obtain ⟨w, hw, rfl⟩ := deactivateWebhook_commits hcommits
    rw [hexec]
    have hl : db.HooksLater (db.putWebhook id { w with active := false }) := by
      refine .put fun old hold => ?_
      obtain rfl := Option.some.inj (hold.symm.trans hw)
      exact ⟨rfl, rfl, rfl, fun hactive => by cases hactive⟩
    refine ⟨hl, fun h => h.put hl, fun id' w' hw' => ?_⟩
    rw [Db.webhook?_putWebhook] at hw'
    split at hw'
    · next hid =>
        subst hid
        obtain rfl := Option.some.inj hw'
        exact Or.inl ⟨w, hw, rfl, rfl, rfl⟩
    · exact Or.inl ⟨w', hw', rfl, rfl, rfl⟩
  · rw [hexec]
    exact .refl db create

/-- A registration under way. -/
theorem HookStep.create {id : WebhookId} {request : CreateWebhookRequest} :
    HookStep db ((createWebhook id request).exec db).2 fun id' request' =>
      id' = id ∧ request' = request := by
  rcases Tx.exec_cases (createWebhook id request) db with ⟨_, db', hcommits, hexec⟩ | ⟨_, _, hexec⟩
  · obtain ⟨_, _, hfree, _, _, rfl⟩ := createWebhook_commits hcommits
    rw [hexec]
    have hl : db.HooksLater (db.putWebhook id
        ⟨request.projectId, request.url.val, request.events, true⟩) := by
      refine .put fun old hold => ?_
      rw [hfree] at hold
      cases hold
    refine ⟨hl, fun h => h.put hl, fun id' w' hw' => ?_⟩
    rw [Db.webhook?_putWebhook] at hw'
    split at hw'
    · next hid => exact Or.inr ⟨request, ⟨hid, rfl⟩, (Option.some.inj hw').symm⟩
    · exact Or.inl ⟨w', hw', rfl, rfl, rfl⟩
  · rw [hexec]
    exact .refl db _

/-- A call that may be lost. -/
theorem hookCall_step {α : Type} {tx : RepoTx α} {fate : Fate}
    {create : WebhookId → CreateWebhookRequest → Prop}
    (h : HookStep db (tx.exec db).2 create) : HookStep db (db.hookCall fate tx).2 create := by
  unfold Db.hookCall
  split
  · exact .refl db create
  · exact h

/-- **Actions.** Only `create_webhook` registers. -/
theorem hook_exec {c : HookCall} {r : c.Out} (h : (webhookMachine x).Exec db c r db') :
    HookStep db db' fun id request => c = .createWebhook id request := by
  obtain ⟨d, hperform⟩ := h
  have hafter : (c.perform x db d).2 = db' := congrArg Prod.snd (Option.some.inj hperform)
  subst hafter
  cases c with
  | now => exact .refl db _
  | createWebhook id request =>
      have hstep : HookStep db (db.hookCall d.fate (createWebhook id request)).2
          fun id' request' => id' = id ∧ request' = request := hookCall_step .create
      refine ⟨hstep.later, hstep.sound, fun id' w' hw' => ?_⟩
      rcases hstep.hooks id' w' hw' with hold | ⟨request', ⟨rfl, rfl⟩, hw⟩
      · exact Or.inl hold
      · exact Or.inr ⟨request', rfl, hw⟩
  | getWebhook id => exact hookCall_step (.refl db _)
  | resolve url => exact .refl db _
  | post target delivery => exact .refl db _
  | markPublished id dispatcherId =>
      show HookStep db (db.hookCall d.fate ((Op.markOutboxPublished id dispatcherId).tx d.time)).2 _
      exact hookCall_step (.op rfl)
  | retry id dispatcherId availableAt lastError =>
      show HookStep db (db.hookCall d.fate
        ((Op.retryOutboxMessage id dispatcherId availableAt lastError).tx d.time)).2 _
      exact hookCall_step (.op rfl)

/-- Others register nothing. -/
theorem hook_move {e : HookMove} (h : (webhookMachine x).env db e = some db') :
    HookStep db db' fun _ _ => False := by
  cases e with
  | op op t =>
      simp only [webhookMachine, Db.hookMove] at h
      split at h
      · next hkeeps =>
          obtain rfl := Option.some.inj h
          exact .op hkeeps
      · cases h
  | deactivateWebhook id =>
      obtain rfl := Option.some.inj h
      exact .deactivate id

/-- A look at a registration. -/
theorem getWebhook_exec {id : WebhookId} {found : Option Webhook}
    (h : (webhookMachine x).Exec db (.getWebhook id) (.ok found) db') :
    db.webhook? id = found := by
  obtain ⟨d, hperform⟩ := h
  have hanswer : (db.hookCall d.fate (getWebhook id)).1 = .ok found :=
    congrArg Prod.fst (Option.some.inj hperform)
  unfold Db.hookCall at hanswer
  split at hanswer
  · cases hanswer
  · simp only at hanswer
    split at hanswer
    · cases hanswer
    · exact Except.ok.inj hanswer

/-- A URL that was resolved, as the name service answered then. -/
theorem resolve_exec {url : String} {target : ResolvedWebhookTarget}
    (h : (webhookMachine x).Exec db (.resolve url) (.ok target) db') :
    ∃ lookupHost, resolveWebhookTarget ⟨x.parse, lookupHost⟩ url x.policy = .ok target := by
  obtain ⟨d, hperform⟩ := h
  have hanswer : ((HookCall.resolve url).perform x db d).1 = .ok target :=
    congrArg Prod.fst (Option.some.inj hperform)
  simp only [HookCall.perform] at hanswer
  split at hanswer
  · cases hanswer
  · refine ⟨d.lookupHost, ?_⟩
    cases hresolve : resolveWebhookTarget ⟨x.parse, d.lookupHost⟩ url x.policy with
    | error e =>
        rw [hresolve] at hanswer
        cases hanswer
    | ok found =>
        rw [hresolve] at hanswer
        rw [Except.ok.inj hanswer]

/-! ## Steps -/

/-- Steps of a task. -/
abbrev HookSteps := List (Σ c, HookCall.Out c)

/-- The dispatcher saw the active registration the row was made for. -/
def Looked (payload : WebhookOutboxPayload) (past : HookSteps) : Prop :=
  ∃ w, past = [⟨.getWebhook payload.webhookId, .ok (some w)⟩] ∧ w.active = true ∧
    w.url = payload.url

/-- It resolved the URL next. -/
def Resolved (payload : WebhookOutboxPayload) (target : ResolvedWebhookTarget)
    (past : HookSteps) : Prop :=
  ∃ looked, past = looked ++ [⟨.resolve payload.url, .ok target⟩] ∧ Looked payload looked

/-- It saw the registration missing or inactive, or the endpoint answered a success. -/
def Finished (key : String) (payload : WebhookOutboxPayload) (past : HookSteps) : Prop :=
  (∃ found, past = [⟨.getWebhook payload.webhookId, .ok found⟩] ∧
      ∀ w, found = some w → w.active = false) ∨
    ∃ target status, isSuccess status = true ∧
      (⟨.post target ⟨key, payload.url, payload.event⟩, .ok status⟩ : Σ c, HookCall.Out c) ∈ past

/-- What a dispatcher does with a row that carries `payload`. -/
def PermitsDelivery (message : OutboxMessage) (payload : WebhookOutboxPayload)
    (past : HookSteps) (c : HookCall) : Prop :=
  c = .getWebhook payload.webhookId ∨
  (c = .resolve payload.url ∧ Looked payload past) ∨
  ∃ target, c = .post target ⟨message.eventKey, payload.url, payload.event⟩ ∧
    Resolved payload target past

/-- The actions of a task, given its steps so far. -/
def HookTask.Kind.Permits (past : HookSteps) : HookTask.Kind → HookCall → Prop
  | .create auth request id, c =>
      (.projectWrite ∈ auth.scopes ∧ auth.projectId = some request.projectId) ∧
      (c = .resolve request.url.val ∨ (c = .createWebhook id request ∧
        ∃ target, past = [⟨.resolve request.url.val, .ok target⟩]))
  | .process dispatcherId message, c =>
      (∃ payload, message.payload = .webhook payload ∧ (PermitsDelivery message payload past c ∨
        (c = .markPublished message.id dispatcherId ∧
          Finished message.eventKey payload past))) ∨
      c = .now ∨ ∃ availableAt error, c = .retry message.id dispatcherId availableAt error

/-- The programs of a task. -/
abbrev Hooks {α : Type} (k : HookTask.Kind) (Q : α → HookSteps → Prop)
    (p : Prog HookCall HookCall.Out α) (past : HookSteps) : Prop :=
  Prog.Along (fun past c => k.Permits past c) Q p past

theorem createWebhook_hooks (auth : AuthContext) (request : CreateWebhookRequest)
    (id : WebhookId) :
    Hooks (.create auth request id) (fun _ _ => True) (Api.createWebhook auth request id) [] := by
  unfold Api.createWebhook
  refine Prog.Along.andThen ?_
  cases hscope : requireScope auth .projectWrite with
  | error e => exact True.intro
  | ok u =>
      refine Prog.Along.andThen ?_
      cases hproject : requireProject auth request.projectId with
      | error e => exact True.intro
      | ok u =>
          have hauth := And.intro (requireScope_ok hscope) (requireProject_ok hproject)
          by_cases hempty : request.events.isEmpty = true
          · simp only [hempty, if_true]
            exact True.intro
          · simp only [hempty]
            refine Prog.Along.andThen (Prog.Along.try_ (Prog.Along.andThen ?_))
            refine ⟨⟨hauth, Or.inl rfl⟩, fun r => ?_⟩
            cases r with
            | error e => exact True.intro
            | ok target =>
                exact Prog.Along.try_ ⟨⟨hauth, Or.inr ⟨rfl, target, rfl⟩⟩, fun _ => trivial⟩

/-- `deliver`, after a look at the registration. -/
theorem deliver_hooks {reason : Nat → Option String} {dispatcherId : String}
    {message : OutboxMessage} {payload : WebhookOutboxPayload}
    (hpayload : message.payload = .webhook payload)
    {looked : HookSteps} (hlooked : Looked payload looked) :
    Hooks (.process dispatcherId message)
      (fun r past => r = .ok () → Finished message.eventKey payload past)
      (WebhookDispatcher.deliver reason ⟨message.eventKey, payload.url, payload.event⟩) looked := by
  have hpermit : ∀ past c, PermitsDelivery message payload past c →
      HookTask.Kind.Permits past (.process dispatcherId message) c := fun past c h =>
    Or.inl ⟨payload, hpayload, Or.inl h⟩
  refine Prog.Along.andThen ⟨hpermit _ _ (Or.inr (Or.inl ⟨rfl, hlooked⟩)), fun r => ?_⟩
  cases r with
  | error e => exact fun h => by cases h
  | ok target =>
      refine Prog.Along.andThen ⟨hpermit _ _ (Or.inr (Or.inr ⟨target, rfl, looked, rfl, hlooked⟩)),
        fun r => ?_⟩
      cases r with
      | error e => exact fun h => by cases h
      | ok status =>
          by_cases hsuccess : isSuccess status = true
          · simp only [Prog.Along, hsuccess, if_true]
            refine fun _ => Or.inr ⟨target, status, hsuccess, ?_⟩
            exact List.mem_append_right _ List.mem_cons_self
          · simp only [Prog.Along, hsuccess, Bool.false_eq_true, if_false]
            exact fun h => by cases h

theorem dispatchOutboxMessage_hooks (reason : Nat → Option String) (dispatcherId : String)
    (message : OutboxMessage) :
    Hooks (.process dispatcherId message)
      (fun r past => r = .ok () → ∃ payload, message.payload = .webhook payload ∧
        Finished message.eventKey payload past)
      (WebhookDispatcher.dispatchOutboxMessage reason message) [] := by
  unfold WebhookDispatcher.dispatchOutboxMessage
  split
  · exact fun h => by cases h
  · cases hpayload : message.payload with
    | jobQueued queued => exact fun h => by cases h
    | jobDeadLetter letter => exact fun h => by cases h
    | webhook payload =>
        simp only
        split
        · exact fun h => by cases h
        · refine Prog.Along.andThen (Prog.Along.try_
            ⟨Or.inl ⟨payload, hpayload, Or.inl (Or.inl rfl)⟩, fun r => ?_⟩)
          cases r with
          | error e => exact fun h => by cases h
          | ok found =>
              cases found with
              | none =>
                  refine fun _ => ⟨payload, rfl, Or.inl ⟨none, rfl, fun w hw => ?_⟩⟩
                  cases hw
              | some w =>
                  by_cases hactive : w.active = true
                  · by_cases hurl : w.url = payload.url
                    · simp only [Prog.Along, Result.mapError_ok, hactive, hurl, Bool.not_true,
                        Bool.false_eq_true, if_false, ne_eq, not_true_eq_false]
                      refine Prog.Along.try_ (Prog.Along.mono ?_ (deliver_hooks hpayload
                        ⟨w, rfl, hactive, hurl⟩))
                      intro r past h hr
                      cases r with
                      | error e => cases hr
                      | ok u => exact ⟨payload, rfl, h rfl⟩
                    · simp only [Prog.Along, Result.mapError_ok, hactive, hurl, Bool.not_true,
                        Bool.false_eq_true, if_false, ne_eq, not_false_eq_true, if_true]
                      exact fun h => by cases h
                  · simp only [Prog.Along, Result.mapError_ok, hactive, Bool.not_false, if_true]
                    refine fun _ => ⟨payload, rfl, Or.inl ⟨some w, rfl, fun w' hw' => ?_⟩⟩
                    obtain rfl := Option.some.inj hw'
                    exact (Bool.not_eq_true _).mp hactive

/-- **Programs.** Every task performs only what it is permitted. -/
theorem hooks_prog (x : HookServices) (k : HookTask.Kind) :
    Hooks k (fun _ _ => True) (k.prog x) [] := by
  cases k with
  | create auth request id =>
      exact Prog.Along.bind ((createWebhook_hooks auth request id).mono fun _ _ _ => trivial)
  | process dispatcherId message =>
      refine Prog.Along.bind (Prog.Along.bind ?_)
      refine (dispatchOutboxMessage_hooks x.reason dispatcherId message).mono fun r past h => ?_
      cases r with
      | ok u =>
          obtain ⟨payload, hpayload, hfinished⟩ := h rfl
          exact ⟨Or.inl ⟨payload, hpayload, Or.inr ⟨rfl, hfinished⟩⟩, fun _ => trivial⟩
      | error e =>
          exact ⟨Or.inr (Or.inl rfl), fun now =>
            ⟨Or.inr (Or.inr ⟨_, _, rfl⟩), fun _ => trivial⟩⟩

/-! ## Records -/

/-- While a task runs, every move is a step of the registrations. -/
theorem hooks_quiet : Machine.Quiet (webhookMachine x) Db.HooksLater where
  refl := .refl
  trans := .trans
  env h := (hook_move h).later
  crash _ := rfl

/-- In every state the rows are addressed. -/
theorem hooks_sound : (webhooks x).Invariant fun q => q.pool.state.HooksSound := by
  refine Machine.state_invariant ?_ (fun _ _ _ _ hexec h => (hook_exec hexec).sound h)
    (fun _ _ _ hmove h => (hook_move hmove).sound h) fun _ h => h
  rintro _ ⟨catalog, _, rfl⟩
  have hlog : (Db.empty catalog).LogSound :=
    logSound_invariant (fun _ => True) _ (.init ⟨catalog, rfl⟩)
  refine ⟨hlog, fun key row _ hrow _ => ?_⟩
  cases hrow

/-- What holds at each record, given the journal before it. -/
structure HookRecord.Sound (x : HookServices) (A : List HookRecord) (e : HookRecord) : Prop where
  permits : e.who.kind.Permits (own e.who A) e.step.1
  exec : (webhookMachine x).Exec e.before e.step.1 e.step.2 e.after
  sound : e.before.HooksSound
  copy : ∀ dispatcherId message, e.who.kind = .process dispatcherId message →
    ∃ row, e.before.message? message.eventKey = some row ∧ row.payload = message.payload

theorem hook_records : (webhooks x).Invariant fun q =>
    ∀ A e B, q.journal = A ++ e :: B → HookRecord.Sound x A e := by
  refine Machine.record_invariant hooks_quiet ?_
  intro q i birth before since c k r s' hr _ hlive hexec
  refine ⟨?_, hexec, hooks_sound q hr, fun dispatcherId message hkind => ?_⟩
  · have hpath := (hooks_prog x i.kind).path hlive.path
    have hbefore : own i before = [] := hlive.new
    show i.kind.Permits (own i (before ++ since)) c
    rw [own_append, hbefore]
    exact hpath
  · have henabled : i.kind.enabled birth = true := hlive.enabled
    have hlater : birth.HooksLater q.pool.state := hlive.linked.extends_ .trans
      (fun _ _ h => h) fun _ _ _ _ h => (hook_exec h).later
    have hkind' : i.kind = .process dispatcherId message := hkind
    rw [hkind'] at henabled
    have hany : birth.isCopy message = true := henabled
    unfold Db.isCopy at hany
    cases hrow : birth.message? message.eventKey with
    | none =>
        rw [hrow] at hany
        cases hany
    | some row =>
        rw [hrow] at hany
        simp only [Option.any_some, Bool.and_eq_true, decide_eq_true_iff] at hany
        obtain ⟨row', hrow', hpayload⟩ := hlater.rows _ row hrow
        exact ⟨row', hrow', hpayload.trans hany.2⟩

theorem hook_record_exec {q : Journaled Db HookCall HookCall.Out HookCaller HookReport}
    (hr : (webhooks x).Reachable q) {e : HookRecord} (he : e ∈ q.journal) :
    (webhookMachine x).Exec e.before e.step.1 e.step.2 e.after := by
  obtain ⟨A, B, hjournal⟩ := List.append_of_mem he
  exact (hook_records q hr A e B hjournal).exec

/-- The states of the records come before the last one. -/
theorem hook_records_later : (webhooks x).Invariant fun q =>
    ∀ e ∈ q.journal, e.before.HooksLater q.pool.state := by
  intro q hr
  have hlinked := Machine.linked_invariant (M := webhookMachine x) (fun db => .refl db)
    (fun h k => h.trans k) (fun h => (hook_move h).later) (fun db => .refl db) q hr
  obtain ⟨_, _, hlinked⟩ := hlinked
  exact hlinked.extends_mem .trans (fun _ _ h => h) fun _ _ _ _ h => (hook_exec h).later

/-- **Registrations.** Every one was made by a request, for the project that registers it. -/
def Registers (id : WebhookId) (w : Webhook) (e : HookRecord) : Prop :=
  ∃ auth request, e.who.kind = .create auth request id ∧ e.step.1 = .createWebhook id request ∧
    request.projectId = w.projectId ∧ request.url.val = w.url ∧ request.events = w.events ∧
    .projectWrite ∈ auth.scopes ∧ auth.projectId = some w.projectId

/-- A later row of the registration. -/
theorem Registers.same {id : WebhookId} {w w' : Webhook} {e : HookRecord} (h : Registers id w e)
    (hproject : w'.projectId = w.projectId) (hurl : w'.url = w.url)
    (hevents : w'.events = w.events) : Registers id w' e := by
  unfold Registers
  rw [hproject, hurl, hevents]
  exact h

theorem hooks_registered : (webhooks x).Invariant fun q => ∀ id w,
    q.pool.state.webhook? id = some w → ∃ e ∈ q.journal, Registers id w e := by
  refine TSys.Inductive.invariant ⟨?_, ?_⟩
  · rintro q ⟨⟨catalog, hnone, hstate⟩, _⟩ id w hw
    rw [hstate, Db.webhook?, Db.empty, hnone] at hw
    cases hw
  · intro q c q' hr hq hstep id w' hw'
    rcases Machine.log_cases hstep with ⟨i, _, _, _, rfl⟩ |
      ⟨n, i, birth, c, k, r, s', _, hexec, rfl⟩ | ⟨_, hjournal, hstate⟩
    · exact hq id w' hw'
    · rcases (hook_exec hexec).hooks id w' hw' with ⟨w, hw, hproject, hurl, hevents⟩ |
        ⟨request, rfl, rfl⟩
      · obtain ⟨e, he, hregisters⟩ := hq id w hw
        exact ⟨e, List.mem_append_left _ he, hregisters.same hproject hurl hevents⟩
      · -- the new record registers it
        have hr' : (webhooks x).Reachable
            ⟨⟨s', q.pool.threads.set n ⟨i, birth, k r⟩⟩, q.journal ++
              [⟨i, ⟨.createWebhook id request, r⟩, q.pool.state, s'⟩]⟩ := .step hr hstep
        have hpermits := (hook_records _ hr' q.journal _ [] rfl).permits
        refine ⟨_, List.mem_append_right _ List.mem_cons_self, ?_⟩
        cases hkind : i.kind with
        | process dispatcherId message =>
            have hpermits' : HookTask.Kind.Permits (own i q.journal) i.kind
                (.createWebhook id request) := hpermits
            rw [hkind] at hpermits'
            rcases hpermits' with ⟨_, _, (hc | ⟨hc, _⟩ | ⟨_, hc, _⟩) | ⟨hc, _⟩⟩ | hc | ⟨_, _, hc⟩
            all_goals cases hc
        | create auth request' id' =>
            have hpermits' : HookTask.Kind.Permits (own i q.journal) i.kind
                (.createWebhook id request) := hpermits
            rw [hkind] at hpermits'
            rcases hpermits' with ⟨⟨hscope, hproject⟩, hc | ⟨hc, _⟩⟩
            · cases hc
            · obtain ⟨rfl, rfl⟩ := HookCall.createWebhook.inj hc
              exact ⟨auth, request, hkind, rfl, rfl, rfl, rfl, hscope, hproject⟩
    · have hback : ∃ w, q.pool.state.webhook? id = some w ∧ w'.projectId = w.projectId ∧
          w'.url = w.url ∧ w'.events = w.events := by
        rcases hstate with hsame | ⟨e, he⟩ | ⟨hsame, _⟩
        · exact ⟨w', hsame ▸ hw', rfl, rfl, rfl⟩
        · rcases (hook_move he).hooks id w' hw' with hold | ⟨_, hfalse, _⟩
          · exact hold
          · exact hfalse.elim
        · exact ⟨w', by rw [hsame] at hw'; exact hw', rfl, rfl, rfl⟩
      obtain ⟨w, hw, hproject, hurl, hevents⟩ := hback
      obtain ⟨e, he, hregisters⟩ := hq id w hw
      exact ⟨e, hjournal ▸ he, hregisters.same hproject hurl hevents⟩

/-! ## Requests -/

/-- A POST request of a dispatcher, after the records `A`: it connects to addresses the policy
allows, which it just resolved the URL to; the URL is the one of a registration of the job's
project for its events, active when the dispatcher looked; and it carries a logged event. -/
structure Confined (x : HookServices) (A : List HookRecord) (e : HookRecord)
    (target : ResolvedWebhookTarget) (delivery : WebhookDelivery) : Prop where
  screened : ∀ address ∈ target.addresses, isForbiddenTarget address.ip x.policy = false
  pinned : (own e.who A).getLast? = some ⟨.resolve delivery.url, .ok target⟩
  logged : delivery.event ∈ e.before.events
  hook : ∃ id w, delivery.deliveryId = webhookKey delivery.event.id id ∧
    e.before.webhook? id = some w ∧ w.url = delivery.url ∧ .jobStateChanged ∈ w.events ∧
    (∃ row, e.before.job? delivery.event.jobId = some row ∧ row.projectId = w.projectId) ∧
    ∃ g ∈ A, g.who = e.who ∧ ∃ seen, g.before.webhook? id = some seen ∧ seen.active = true ∧
      seen.url = delivery.url

theorem hooks_confined {q : Journaled Db HookCall HookCall.Out HookCaller HookReport}
    (hr : (webhooks x).Reachable q) {A B : List HookRecord} {e : HookRecord}
    (hjournal : q.journal = A ++ e :: B) {target : ResolvedWebhookTarget}
    {delivery : WebhookDelivery} (hpost : e.step.1 = .post target delivery) :
    Confined x A e target delivery ∧ ∃ dispatcherId message payload,
      e.who.kind = .process dispatcherId message ∧ message.payload = .webhook payload ∧
      delivery = ⟨message.eventKey, payload.url, payload.event⟩ := by
  have hrecord := hook_records q hr A e B hjournal
  have hpermits := hrecord.permits
  rw [hpost] at hpermits
  cases hkind : e.who.kind with
  | create auth request id =>
      rw [hkind] at hpermits
      rcases hpermits with ⟨_, hc | ⟨hc, _⟩⟩
      · cases hc
      · cases hc
  | process dispatcherId message =>
      rw [hkind] at hpermits
      rcases hpermits with ⟨payload, hpayload, hdelivery | ⟨hc, _⟩⟩ | hc | ⟨_, _, hc⟩
      · rcases hdelivery with hc | ⟨hc, _⟩ | ⟨target', hc, looked, hown, w, rfl, hactive, hurl⟩
        · cases hc
        · cases hc
        · obtain ⟨rfl, rfl⟩ := HookCall.post.inj hc
          refine ⟨?_, dispatcherId, message, payload, rfl, hpayload, rfl⟩
          -- the look and the resolution, among the records
          obtain ⟨g, hg, hgwho, hgstep⟩ := mem_own.mp (hown ▸ List.mem_cons_self :
            (⟨.getWebhook payload.webhookId, .ok (some w)⟩ : Σ c, HookCall.Out c) ∈ own e.who A)
          obtain ⟨r, hrA, _, hrstep⟩ := mem_own.mp
            (hown ▸ List.mem_cons_of_mem _ List.mem_cons_self :
              (⟨.resolve payload.url, .ok target⟩ : Σ c, HookCall.Out c) ∈ own e.who A)
          have hgexec := hook_record_exec hr (hjournal ▸ List.mem_append_left _ hg)
          have hrexec := hook_record_exec hr (hjournal ▸ List.mem_append_left _ hrA)
          rw [hgstep] at hgexec
          rw [hrstep] at hrexec
          obtain ⟨row, hrow, hcopied⟩ := hrecord.copy dispatcherId message hkind
          obtain ⟨hkey, hlogged, w', hw', hurl', hevents, hjob⟩ :=
            hrecord.sound.rows _ row payload hrow (hcopied.trans hpayload)
          refine ⟨?_, ?_, hlogged, payload.webhookId, w', hkey, hw', hurl', hevents, hjob, g, hg,
            hgwho, w, getWebhook_exec hgexec, hactive, hurl⟩
          · obtain ⟨_, hresolved⟩ := resolve_exec hrexec
            obtain ⟨_, _, _, _, _, _, hin, hallowed⟩ := resolveWebhookTarget_ok hresolved
            exact fun address haddress => hallowed address ((hin address).mp haddress)
          · rw [hown]
            rfl
      · cases hc
      · cases hc
      · cases hc

/-- Deliveries under one identifier are the same. -/
theorem hooks_same {q : Journaled Db HookCall HookCall.Out HookCaller HookReport}
    (hr : (webhooks x).Reachable q) {e f : HookRecord} (he : e ∈ q.journal) (hf : f ∈ q.journal)
    {target target' : ResolvedWebhookTarget} {delivery delivery' : WebhookDelivery}
    (hpost : e.step.1 = .post target delivery) (hpost' : f.step.1 = .post target' delivery')
    (hid : delivery.deliveryId = delivery'.deliveryId) : delivery = delivery' := by
  obtain ⟨A, B, hjournal⟩ := List.append_of_mem he
  obtain ⟨C, D, hjournal'⟩ := List.append_of_mem hf
  obtain ⟨_, d, message, payload, hkind, hpayload, rfl⟩ := hooks_confined hr hjournal hpost
  obtain ⟨_, d', message', payload', hkind', hpayload', rfl⟩ := hooks_confined hr hjournal' hpost'
  have hkey : message.eventKey = message'.eventKey := hid
  -- both rows are the row under this key in the end
  obtain ⟨row, hrow, hcopy⟩ := (hook_records q hr A e B hjournal).copy d message hkind
  obtain ⟨row', hrow', hcopy'⟩ := (hook_records q hr C f D hjournal').copy d' message' hkind'
  obtain ⟨last, hlast, hsame⟩ := (hook_records_later q hr e he).rows _ row hrow
  obtain ⟨last', hlast', hsame'⟩ := (hook_records_later q hr f hf).rows _ row' hrow'
  rw [← hkey] at hlast'
  obtain rfl := Option.some.inj (hlast'.symm.trans hlast)
  have hpayloads : OutboxPayload.webhook payload = .webhook payload' := by
    rw [← hpayload, ← hpayload', ← hcopy, ← hcopy', ← hsame, ← hsame']
  rw [hkey, OutboxPayload.webhook.inj hpayloads]

/-- A row is finalized after a success of its delivery, or after its registration was seen missing
or inactive. -/
theorem hooks_finished {q : Journaled Db HookCall HookCall.Out HookCaller HookReport}
    (hr : (webhooks x).Reachable q) {A B : List HookRecord} {e : HookRecord}
    (hjournal : q.journal = A ++ e :: B) {messageId : Nat} {dispatcherId : String}
    (hmark : e.step.1 = .markPublished messageId dispatcherId) :
    ∃ message payload, e.who.kind = .process dispatcherId message ∧ message.id = messageId ∧
      message.payload = .webhook payload ∧
      ((∃ g ∈ A, g.who = e.who ∧
          ∀ w, g.before.webhook? payload.webhookId = some w → w.active = false) ∨
        ∃ g ∈ A, g.who = e.who ∧ ∃ target status, isSuccess status = true ∧
          g.step = ⟨.post target ⟨message.eventKey, payload.url, payload.event⟩, .ok status⟩) := by
  have hpermits := (hook_records q hr A e B hjournal).permits
  rw [hmark] at hpermits
  cases hkind : e.who.kind with
  | create auth request id =>
      rw [hkind] at hpermits
      rcases hpermits with ⟨_, hc | ⟨hc, _⟩⟩
      · cases hc
      · cases hc
  | process d message =>
      rw [hkind] at hpermits
      rcases hpermits with ⟨payload, hpayload, hdelivery | ⟨hc, hfinished⟩⟩ | hc | ⟨_, _, hc⟩
      · rcases hdelivery with hc | ⟨hc, _⟩ | ⟨_, hc, _⟩
        all_goals cases hc
      · obtain ⟨rfl, rfl⟩ := HookCall.markPublished.inj hc
        refine ⟨message, payload, rfl, rfl, hpayload, ?_⟩
        rcases hfinished with ⟨found, hown, hinactive⟩ | ⟨target, status, hsuccess, hposted⟩
        · obtain ⟨g, hg, hgwho, hgstep⟩ := mem_own.mp (hown ▸ List.mem_cons_self :
            (⟨.getWebhook payload.webhookId, .ok found⟩ : Σ c, HookCall.Out c) ∈ own e.who A)
          have hgexec := hook_record_exec hr (hjournal ▸ List.mem_append_left _ hg)
          rw [hgstep] at hgexec
          refine Or.inl ⟨g, hg, hgwho, fun w hw => hinactive w ?_⟩
          exact (getWebhook_exec hgexec).symm.trans hw
        · obtain ⟨g, hg, hgwho, hgstep⟩ := mem_own.mp hposted
          exact Or.inr ⟨g, hg, hgwho, target, status, hsuccess, hgstep⟩
      · cases hc
      · cases hc

/-- **Webhooks.** In every run of any number of registrations and dispatchers, with a name service
that answers as it likes:

* every POST request is confined to allowed addresses, just resolved, of a URL that the project of
  the event's job registered and that was active when the dispatcher looked, and it carries a
  logged event;
* requests under one delivery identifier carry the same event to the same URL;
* a dispatcher finalizes a row only after a success of its delivery, or after it saw the
  registration missing or inactive. The repository calls around them may mark any row;
* every registration was made by a request with the scope to write its project. -/
theorem webhooks_confined {q : Journaled Db HookCall HookCall.Out HookCaller HookReport}
    (hr : (webhooks x).Reachable q) :
    (∀ A e B target delivery, q.journal = A ++ e :: B → e.step.1 = .post target delivery →
      Confined x A e target delivery) ∧
    (∀ e ∈ q.journal, ∀ f ∈ q.journal, ∀ target target' delivery delivery',
      e.step.1 = .post target delivery → f.step.1 = .post target' delivery' →
      delivery.deliveryId = delivery'.deliveryId → delivery = delivery') ∧
    (∀ A e B messageId dispatcherId, q.journal = A ++ e :: B →
      e.step.1 = .markPublished messageId dispatcherId →
      ∃ message payload, e.who.kind = .process dispatcherId message ∧ message.id = messageId ∧
        message.payload = .webhook payload ∧
        ((∃ g ∈ A, g.who = e.who ∧
            ∀ w, g.before.webhook? payload.webhookId = some w → w.active = false) ∨
          ∃ g ∈ A, g.who = e.who ∧ ∃ target status, isSuccess status = true ∧
            g.step =
              ⟨.post target ⟨message.eventKey, payload.url, payload.event⟩, .ok status⟩)) ∧
    ∀ id w, q.pool.state.webhook? id = some w → ∃ e ∈ q.journal, Registers id w e := by
  refine ⟨?_, ?_, ?_, hooks_registered q hr⟩
  · intro A e B target delivery hjournal hpost
    exact (hooks_confined hr hjournal hpost).1
  · intro e he f hf target target' delivery delivery' hpost hpost' hid
    exact hooks_same hr he hf hpost hpost' hid
  · intro A e B messageId dispatcherId hjournal hmark
    exact hooks_finished hr hjournal hmark

namespace Sample

def hookUrl : Uri := ⟨"https://hook", by decide⟩
def hook : WebhookId := ⟨"wh_a", by decide⟩

def hookServices : HookServices where
  policy := ⟨false⟩
  parse url := if url = "https://hook" then
    some ⟨"https", "", none, none, some (.domain "hook"), some 443⟩ else none
  display _ := "repository error"
  reason _ := none

def registrar : AuthContext := ⟨"key", none, some project, [.projectWrite]⟩

/-- An action that succeeds, with a name service that knows one address. -/
def answered (address : IpAddr) : HookDraw where
  time := at_ 5
  lookupHost _ port := .ok [⟨address, port⟩]

/-- The row of the first event. -/
def notice : OutboxMessage where
  eventKey := webhookKey (event 0) hook
  id := 1
  subject := webhookSubject
  payload := .webhook
    ⟨hook, hookUrl.val, ⟨event 0, job, 1, 2000000, "job.queued", some .queued, []⟩⟩
  traceHeaders := []
  availableAt := 0
  attempts := 0
  lockedBy := none
  lockedAt := none
  publishedAt := none
  lastError := none
  createdAt := 0

/-- The URL is registered and a job queued; the first delivery meets a private address. -/
def notified : List (Cmd HookCaller HookDraw HookMove) :=
  [.spawn ⟨0, .create registrar ⟨project, hookUrl, [.jobStateChanged]⟩ hook⟩,
    .act 0 (answered (.v4 ⟨93, 184, 216, 34⟩)), .act 0 (answered (.v4 ⟨93, 184, 216, 34⟩)),
    .finish 0, .env (.op register (at_ 1)), .env (.op create (at_ 2)),
    .env (.op (.leaseOutboxMessages "api" webhookSubject 90000000 50 fun _ => false) (at_ 3)),
    .spawn ⟨1, .process "api" notice⟩, .act 0 (answered (.v4 ⟨10, 0, 0, 1⟩)),
    .act 0 (answered (.v4 ⟨10, 0, 0, 1⟩)), .act 0 (answered (.v4 ⟨10, 0, 0, 1⟩)),
    .act 0 (answered (.v4 ⟨10, 0, 0, 1⟩)), .finish 0,
    .env (.op (.leaseOutboxMessages "api" webhookSubject 90000000 50 fun _ => false) (at_ 20)),
    .spawn ⟨2, .process "api" notice⟩, .act 0 (answered (.v4 ⟨93, 184, 216, 34⟩)),
    .act 0 (answered (.v4 ⟨93, 184, 216, 34⟩)), .act 0 (answered (.v4 ⟨93, 184, 216, 34⟩)),
    .act 0 (answered (.v4 ⟨93, 184, 216, 34⟩))]

/-- Where a request went, and its delivery identifier. -/
def posted? (e : HookRecord) : Option (List IpAddr × String) :=
  match e.step.1 with
  | .post target delivery => some (target.addresses.map (·.ip), delivery.deliveryId)
  | _ => none

end Sample

open Sample in
/-- The second delivery is posted to the public address. -/
theorem webhooks_confined_posted :
    ∃ q : Journaled Db HookCall HookCall.Out HookCaller HookReport,
      (webhooks hookServices).Reachable q ∧
      q.journal.filterMap posted? = [([.v4 ⟨93, 184, 216, 34⟩], webhookKey (event 0) hook)] ∧
      ∃ A e B target delivery, q.journal = A ++ e :: B ∧ e.step.1 = .post target delivery ∧
        Confined hookServices A e target delivery := by
  have hfinal : ((webhookMachine hookServices).logs (fun _ => false)
      ⟨⟨Db.empty catalog, []⟩, []⟩ notified).map (fun q => q.journal.filterMap posted?) =
      some [([.v4 ⟨93, 184, 216, 34⟩], webhookKey (event 0) hook)] := by
    decide +kernel
  obtain ⟨q, hlogs, hposts⟩ := Option.map_eq_some_iff.mp hfinal
  have hr : (webhooks hookServices).Reachable q :=
    Machine.logs_reachable (.init ⟨⟨catalog, rfl, rfl⟩, rfl, rfl⟩) hlogs
  have hone : ([.v4 ⟨93, 184, 216, 34⟩], webhookKey (event 0) hook) ∈
      q.journal.filterMap posted? := by
    rw [hposts]
    exact List.mem_cons_self
  obtain ⟨e, he, hposted⟩ := List.mem_filterMap.mp hone
  obtain ⟨A, B, hjournal⟩ := List.append_of_mem he
  unfold posted? at hposted
  split at hposted
  · next target delivery hstep =>
      obtain ⟨hconfined, _, _, _⟩ := webhooks_confined hr
      exact ⟨q, hr, hposts, A, e, B, target, delivery, hjournal, hstep,
        hconfined A e B target delivery hjournal hstep⟩
  · cases hposted

end RunAnywhere
