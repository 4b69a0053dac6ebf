import RunAnywhere.Repository.Run

/-!
# Webhook registrations

The webhooks of `repository/src/misc.rs`, over `webhooks` of `0005_debug_audit_webhooks.up.sql`: a
project registers a URL once, and a registration that was made inactive stays so.
-/

namespace RunAnywhere

open Logic

structure CreateWebhookRequest where
  projectId : ProjectId
  url : Uri
  events : List WebhookEvent
  deriving DecidableEq

/-- The class `[[:space:]]` of PostgreSQL's regular expressions. -/
def isSpaceClass (c : Char) : Bool :=
  c == ' ' || (9 ≤ c.toNat && c.toNat ≤ 13) || c.toNat == 0x1680 ||
    (0x2000 ≤ c.toNat && c.toNat ≤ 0x2006) || (0x2008 ≤ c.toNat && c.toNat ≤ 0x200A) ||
    c.toNat == 0x2028 || c.toNat == 0x2029 || c.toNat == 0x205F || c.toNat == 0x3000

/-- `webhooks_url_valid`. -/
def webhookUrlValid (url : String) : Bool :=
  let scheme := url.toList.takeWhile fun c => c.isAlphanum || c == '+' || c == '.' || c == '-'
  !scheme.isEmpty && (url.toList.drop scheme.length).head? == some ':' &&
    !url.toList.any fun c => isSpaceClass c || isControl c

/-- The CHECK constraints of `webhooks`. -/
structure Webhook.Checks (w : Webhook) : Prop where
  url : webhookUrlValid w.url = true
  events : w.events = [.jobStateChanged]

instance : DecidablePred Webhook.Checks := fun w =>
  decidable_of_iff (webhookUrlValid w.url = true ∧ w.events = [.jobStateChanged])
    ⟨fun ⟨a, b⟩ => ⟨a, b⟩, fun h => ⟨h.url, h.events⟩⟩

namespace Db

/-- The registration `id`. -/
def webhook? (db : Db) (id : WebhookId) : Option Webhook := db.catalog.webhooks.get? id

/-- The database with a registration stored. -/
def putWebhook (db : Db) (id : WebhookId) (w : Webhook) : Db :=
  { db with catalog := { db.catalog with webhooks := db.catalog.webhooks.put id w } }

end Db

/-- `INSERT INTO webhooks`. -/
def insertWebhook (id : WebhookId) (w : Webhook) : RepoTx (WebhookId × Webhook) := fun db =>
  if w.Checks then
    if (db.webhook? id).isSome then .error (.sqlx (.uniqueViolation "webhooks_pkey"))
    else if db.catalog.webhooks.rows.any fun x =>
        decide (x.2.projectId = w.projectId ∧ x.2.url = w.url) then
      .error (.sqlx (.uniqueViolation "webhooks_project_url_key"))
    else if (db.catalog.projects.get? w.projectId).isNone then
      .error (.sqlx (.foreignKeyViolation "webhooks_project_id_fkey"))
    else .ok ((id, w), db.putWebhook id w)
  else .error (.sqlx (.checkViolation "webhooks"))

/-- `create_webhook`, under the identifier it draws. -/
def createWebhook (id : WebhookId) (request : CreateWebhookRequest) :
    RepoTx (WebhookId × Webhook) := do
  .require (!request.events.isEmpty) (.validation "webhook must subscribe to at least one event")
  .require (decide request.events.Nodup) (.validation "webhook events must be unique")
  classifyWrite (insertWebhook id ⟨request.projectId, request.url.val, request.events, true⟩)
    "webhook URL already registered for project"

/-- `get_webhook`. -/
def getWebhook (id : WebhookId) : RepoTx (Option Webhook) := .read fun db => db.webhook? id

/-- `deactivate_webhook`. -/
def deactivateWebhook (id : WebhookId) : RepoTx (WebhookId × Webhook) := fun db =>
  match db.webhook? id with
  | none => .error (.notFound "webhook" id.val)
  | some w => .ok ((id, { w with active := false }), db.putWebhook id { w with active := false })

/-! ## What the calls did -/

namespace Db

variable (db : Db) (id : WebhookId) (w : Webhook)

theorem webhook?_putWebhook (id' : WebhookId) :
    (db.putWebhook id w).webhook? id' = if id' = id then some w else db.webhook? id' :=
  Table.get?_put _ _ _ _

@[simp] theorem job?_putWebhook (j : JobId) : (db.putWebhook id w).job? j = db.job? j := rfl

@[simp] theorem message?_putWebhook (key : String) :
    (db.putWebhook id w).message? key = db.message? key := rfl

@[simp] theorem events_putWebhook : (db.putWebhook id w).events = db.events := rfl

end Db

/-- A registration that commits is new, for a project and a URL that had none. -/
theorem createWebhook_commits {id : WebhookId} {request : CreateWebhookRequest}
    {out : WebhookId × Webhook} {db db' : Db} (h : (createWebhook id request).Commits db out db') :
    out = (id, ⟨request.projectId, request.url.val, request.events, true⟩) ∧
      out.2.Checks ∧ db.webhook? id = none ∧
      (∀ id' w, db.webhook? id' = some w →
        ¬ (w.projectId = request.projectId ∧ w.url = request.url.val)) ∧
      (db.catalog.projects.get? request.projectId).isSome = true ∧
      db' = db.putWebhook id ⟨request.projectId, request.url.val, request.events, true⟩ := by
  simp only [createWebhook, Tx.bind_commits, Tx.require_commits, classifyWrite_commits] at h
  obtain ⟨_, _, ⟨_, rfl⟩, _, _, ⟨_, rfl⟩, h⟩ := h
  unfold Tx.Commits insertWebhook at h
  split at h
  · next hchecks =>
      split at h
      · cases h
      · next hfree =>
          split at h
          · cases h
          · next hurl =>
              split at h
              · cases h
              · next hproject =>
                  cases h
                  refine ⟨rfl, hchecks, Option.not_isSome_iff_eq_none.mp hfree, ?_, ?_, rfl⟩
                  · intro id' w hw hsame
                    refine hurl (List.any_eq_true.mpr ?_)
                    exact ⟨(id', w), (Table.mem_rows_iff _ _ _).mpr hw, decide_eq_true hsame⟩
                  · rw [← Option.not_isNone]
                    exact Bool.not_eq_true' _ ▸ (Bool.not_eq_true _).mp hproject
  · cases h

theorem deactivateWebhook_commits {id : WebhookId} {out : WebhookId × Webhook} {db db' : Db}
    (h : (deactivateWebhook id).Commits db out db') :
    ∃ w, db.webhook? id = some w ∧ db' = db.putWebhook id { w with active := false } := by
  unfold Tx.Commits deactivateWebhook at h
  split at h
  · cases h
  · next w hw =>
      cases h
      exact ⟨w, hw, rfl⟩

end RunAnywhere
