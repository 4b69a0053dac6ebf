import RunAnywhere.Api.Handlers
import RunAnywhere.Api.Webhook
import RunAnywhere.Logic.Journal
import RunAnywhere.Repository.Webhooks
import RunAnywhere.Scheduler.Loops
import RunAnywhere.Scheduler.Machine

/-!
# Webhook registrations and deliveries

`api/src/webhooks.rs` and the deliveries of `api/src/webhook.rs`, from the request that registers
a URL to the POST requests the dispatchers make.

* **texts** — what a row that is given back stores of its error;
* **programs** — a registration, a delivery, and what a dispatcher does with a leased row. A URL is
  resolved anew for every delivery, and the connection is made to the addresses that were checked;
* **machine** — registrations and rows are worked on at the same time, in any number. The name
  service answers each lookup as it likes, requests may time out, and registrations may be made
  inactive at any time.
-/

namespace RunAnywhere

open Logic

/-! ## Errors -/

/-- The errors of a validation or a delivery. -/
inductive WebhookDeliveryError
  | validation (error : WebhookValidationError)
  | timeout
  | delivery (error : String)
  deriving DecidableEq

inductive WebhookOutboxError
  | invalidMessage
  | repository (error : RepositoryError)
  | delivery (error : WebhookDeliveryError)
  deriving DecidableEq

def WebhookValidationError.text : WebhookValidationError → String
  | .invalidUrl => "webhook URL must be a valid absolute URL"
  | .unsupportedScheme => "webhook URL must use http or https"
  | .unsafeUrlComponents => "webhook URL must not contain embedded credentials or a fragment"
  | .resolve error => "webhook hostname could not be resolved: " ++ error
  | .noAddresses => "webhook hostname did not resolve to an address"
  | .privateNetwork => "webhook targets private, local, reserved, or non-routable networking"

def WebhookDeliveryError.text : WebhookDeliveryError → String
  | .validation error => error.text
  | .timeout => "webhook validation or delivery timed out"
  | .delivery error => "webhook delivery failed: " ++ error

/-- `to_string`, over that of repository errors. -/
def WebhookOutboxError.text (display : RepositoryError → String) : WebhookOutboxError → String
  | .invalidMessage => "invalid webhook outbox message"
  | .repository error => display error
  | .delivery error => error.text

/-- The longest front of a text that takes at most `n` bytes. -/
def truncateBytes (n : Nat) : List Char → List Char
  | [] => []
  | c :: rest => if c.utf8Size ≤ n then c :: truncateBytes (n - c.utf8Size) rest else []

/-- `truncate_error`. -/
def truncateError (error : String) : String := String.ofList (truncateBytes 1024 error.toList)

/-! ## Programs -/

/-- An action of a registration or a dispatcher. `post` connects to the addresses of the target,
and to no other, follows no redirect, and answers the status. -/
inductive HookCall
  | now
  | createWebhook (id : WebhookId) (request : CreateWebhookRequest)
  | getWebhook (id : WebhookId)
  | resolve (url : String)
  | post (target : ResolvedWebhookTarget) (delivery : WebhookDelivery)
  | markPublished (messageId : Nat) (dispatcherId : String)
  | retry (messageId : Nat) (dispatcherId : String) (availableAt : Time) (lastError : String)

abbrev HookCall.Out : HookCall → Type
  | .now => Time
  | .createWebhook _ _ => Except RepositoryError (WebhookId × Webhook)
  | .getWebhook _ => Except RepositoryError (Option Webhook)
  | .resolve _ => Except WebhookDeliveryError ResolvedWebhookTarget
  | .post _ _ => Except WebhookDeliveryError Nat
  | .markPublished _ _ | .retry _ _ _ _ => Except RepositoryError OutboxMessage

/-- A part of a registration or a dispatcher. -/
abbrev HookTask (ε α : Type) := Routine HookCall HookCall.Out ε α

/-- Perform one action. -/
def hookAct (x : HookCall) : Prog HookCall HookCall.Out x.Out := .perform x

/-- The status of a success. -/
def isSuccess (status : Nat) : Bool := decide (200 ≤ status ∧ status < 300)

namespace WebhookDispatcher

def outboxRetryDelay : Int := 5 * 1000000

/-- `resolve_webhook_target`, within the timeout. -/
def resolve (url : String) : HookTask WebhookDeliveryError ResolvedWebhookTarget :=
  hookAct (.resolve url)

/-- The request of `deliver_webhook`. -/
def post (target : ResolvedWebhookTarget) (delivery : WebhookDelivery) :
    HookTask WebhookDeliveryError Nat := hookAct (.post target delivery)

/-- `validate_url`. -/
def validateUrl (url : Uri) : HookTask WebhookDeliveryError Unit := do
  let _ ← resolve url.val
  pure ()

/-- `StatusCode` as it is displayed, over the reason phrases of the codes that have one. -/
def displayStatus (reason : Nat → Option String) (status : Nat) : String :=
  toString status ++ " " ++ (reason status).getD "<unknown status code>"

/-- `deliver`: resolve again, and post to the addresses that were checked. -/
def deliver (reason : Nat → Option String) (delivery : WebhookDelivery) :
    HookTask WebhookDeliveryError Unit := do
  let target ← resolve delivery.url
  let status ← post target delivery
  if isSuccess status then pure ()
  else .fail (.delivery ("endpoint returned HTTP " ++ displayStatus reason status))

/-- `dispatch_outbox_message`. -/
def dispatchOutboxMessage (reason : Nat → Option String) (message : OutboxMessage) :
    HookTask WebhookOutboxError Unit :=
  if message.subject ≠ webhookSubject then .fail .invalidMessage
  else
    match message.payload with
    | .webhook payload =>
        if message.eventKey ≠ "webhook:" ++ payload.event.id.val ++ ":" ++ payload.webhookId.val ∨
            payload.event.state.isNone then .fail .invalidMessage
        else do
          match ← .try_ (hookAct (.getWebhook payload.webhookId)) .repository with
          | none => pure ()
          | some webhook =>
              if !webhook.active then pure ()
              else if webhook.url ≠ payload.url then .fail .invalidMessage
              else .try_ (deliver reason ⟨message.eventKey, payload.url, payload.event⟩) .delivery
    | _ => .fail .invalidMessage

/-- `process_outbox_message`; the errors of the last call are only logged. -/
def processOutboxMessage (display : RepositoryError → String) (reason : Nat → Option String)
    (dispatcherId : String) (message : OutboxMessage) : Prog HookCall HookCall.Out Unit := do
  match ← dispatchOutboxMessage reason message with
  | .ok _ =>
      let _ ← hookAct (.markPublished message.id dispatcherId)
      pure ()
  | .error error =>
      let now ← hookAct .now
      let _ ← hookAct (.retry message.id dispatcherId (now + outboxRetryDelay)
        (truncateError (error.text display)))
      pure ()

end WebhookDispatcher

/-- `create_webhook`, under the identifier it draws. -/
def Api.createWebhook (auth : AuthContext) (request : CreateWebhookRequest) (id : WebhookId) :
    HookTask ApiError (WebhookId × Webhook) := do
  .ofExcept (requireScope auth .projectWrite)
  .ofExcept (requireProject auth request.projectId)
  if request.events.isEmpty then
    .fail (.validation "webhook must subscribe to at least one event")
  else do
    .try_ (WebhookDispatcher.validateUrl request.url) fun error => .validation error.text
    .try_ (hookAct (.createWebhook id request)) .ofRepository

/-! ## The machine -/

/-- What a service is configured with; the URL parser, the texts of repository errors and the reason
phrases of status codes are parameters. -/
structure HookServices where
  policy : WebhookPolicy
  parse : String → Option Url
  display : RepositoryError → String
  reason : Nat → Option String

/-- A registration under way, or a leased row in the hands of a dispatcher. -/
inductive HookTask.Kind
  | create (auth : AuthContext) (request : CreateWebhookRequest) (id : WebhookId)
  | process (dispatcherId : String) (message : OutboxMessage)
  deriving DecidableEq

/-- A task, numbered among all tasks. -/
structure HookCaller where
  number : Nat
  kind : HookTask.Kind
  deriving DecidableEq

inductive HookReport
  | created (result : Except ApiError (WebhookId × Webhook))
  | processed

/-- Nature's choices for one action: how it went, the clock, what the name service answers, and
the endpoint. -/
structure HookDraw where
  fate : Fate := .success
  time : DbTime := ⟨0, 0, 0⟩
  timedOut : Bool := false
  lookupHost : String → Nat → Except String (List SocketAddr) := fun _ _ => .error "no answer"
  status : Except String Nat := .ok 200

/-- Moves of others: calls of the repository that register no webhook, and operators. -/
inductive HookMove
  | op (op : Op) (time : DbTime)
  | deactivateWebhook (id : WebhookId)

/-- A call keeps the registrations. -/
def Op.keepsWebhooks (db : Db) : Op → Bool
  | .setCatalog catalog => decide (catalog.webhooks = db.catalog.webhooks)
  | _ => true

/-- A call of the repository, which may be lost before or after it commits. -/
def Db.hookCall {α : Type} (db : Db) (fate : Fate) (tx : RepoTx α) :
    Except RepositoryError α × Db :=
  if fate = .failure then (.error (.sqlx .connection), db)
  else
    let done := tx.exec db
    (if fate = .lost then .error (.sqlx .connection) else done.1, done.2)

/-- **Actions.** -/
def HookCall.perform (x : HookServices) (db : Db) : (c : HookCall) → HookDraw → c.Out × Db
  | .now, d => (d.time.clock, db)
  | .createWebhook id request, d => db.hookCall d.fate (RunAnywhere.createWebhook id request)
  | .getWebhook id, d => db.hookCall d.fate (RunAnywhere.getWebhook id)
  | .resolve url, d =>
      (if d.timedOut then .error .timeout
        else (resolveWebhookTarget ⟨x.parse, d.lookupHost⟩ url x.policy).mapError .validation, db)
  | .post _ _, d =>
      (if d.timedOut then .error .timeout else d.status.mapError .delivery, db)
  | .markPublished id dispatcherId, d =>
      db.hookCall d.fate (RunAnywhere.markOutboxPublished id dispatcherId d.time)
  | .retry id dispatcherId availableAt lastError, d =>
      db.hookCall d.fate (RunAnywhere.retryOutboxMessage id dispatcherId availableAt lastError)

/-- The program of a task. -/
def HookTask.Kind.prog (x : HookServices) : HookTask.Kind → Prog HookCall HookCall.Out HookReport
  | .create auth request id => do
      let result ← Api.createWebhook auth request id
      pure (.created result)
  | .process dispatcherId message => do
      WebhookDispatcher.processOutboxMessage x.display x.reason dispatcherId message
      pure .processed

/-- A dispatcher works on rows that a lease returned. -/
def HookTask.Kind.enabled (db : Db) : HookTask.Kind → Bool
  | .create _ _ _ => true
  | .process _ message => db.isCopy message

def Db.hookMove (db : Db) : HookMove → Option Db
  | .op op t => if op.keepsWebhooks db then some ((op.tx t).exec db).2 else none
  | .deactivateWebhook id => some ((RunAnywhere.deactivateWebhook id).exec db).2

/-- **Webhooks.** -/
def webhookMachine (x : HookServices) :
    Machine Db HookCall HookCall.Out HookCaller HookReport HookDraw HookMove where
  perform db c d := some (c.perform x db d)
  prog i := i.kind.prog x
  enabled db i := i.kind.enabled db
  survives _ := false
  env := Db.hookMove
  crash db := db

/-- The runs from a database without jobs and registrations, with their journals. -/
def webhooks (x : HookServices) :
    TSys (Journaled Db HookCall HookCall.Out HookCaller HookReport)
      (Cmd HookCaller HookDraw HookMove) :=
  (webhookMachine x).journaled (fun _ => false) fun db =>
    ∃ catalog, catalog.webhooks = Table.empty ∧ db = Db.empty catalog

abbrev HookRecord := Record Db HookCall HookCall.Out HookCaller

end RunAnywhere
