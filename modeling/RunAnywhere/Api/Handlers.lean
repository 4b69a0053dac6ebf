import RunAnywhere.Api.Events
import RunAnywhere.Logic.Chrono
import RunAnywhere.Logic.Script
import RunAnywhere.Repository.DebugSessions
import RunAnywhere.Repository.Locks
import RunAnywhere.Repository.Pages

/-!
# Job routes

The guards of `api/src/auth.rs` and `api/src/params.rs`, the handlers of the routes that name one
job or the uploads of a new one (`jobs.rs`, `events.rs`, `artifacts.rs`, `debug_sessions.rs`), and
the other paged routes (`workers.rs`, `runtime_profiles.rs`). A handler is a script: each call of
the repository is a transaction of its own.

* **context** — who asks (`AuthContext`), and the guards;
* **store** — the database with its sessions and artifacts (`ApiStore`);
* **services** — object store, token key and cursor codec are parameters (`ApiServices`);
* **dates** — the debug handler computes with `chrono` instants; a column holds microseconds.

Metrics and the identifiers put into log lines are left out.
-/

namespace RunAnywhere

open Logic

/-- Identity and tenant boundary established by authentication. -/
structure AuthContext where
  actor : String
  keyId : Option String
  projectId : Option ProjectId
  scopes : List AuthScope
  deriving DecidableEq

/-- `require_scope`. -/
def requireScope (context : AuthContext) (required : AuthScope) : Except ApiError Unit :=
  if required ∈ context.scopes then .ok ()
  else .error (.forbidden "the API key lacks the required scope")

/-- `require_project`: the client itself supplied the project. -/
def requireProject (context : AuthContext) (projectId : ProjectId) : Except ApiError Unit :=
  if context.projectId = some projectId then .ok ()
  else .error (.forbidden "the requested project is outside the authenticated project")

theorem requireScope_ok {context : AuthContext} {required : AuthScope} {u : Unit}
    (h : requireScope context required = .ok u) : required ∈ context.scopes := by
  unfold requireScope at h
  split at h
  · next hscope => exact hscope
  · cases h

theorem requireProject_ok {context : AuthContext} {projectId : ProjectId} {u : Unit}
    (h : requireProject context projectId = .ok u) : context.projectId = some projectId := by
  unfold requireProject at h
  split at h
  · next hproject => exact hproject
  · cases h

/-- `require_owned_resource`: hide whether a resource of another tenant exists. -/
def requireOwnedResource (context : AuthContext) (projectId : ProjectId) (resourceName : String) :
    Except ApiError Unit :=
  if context.projectId = some projectId then .ok () else .error (.notFound resourceName)

/-- `validate_cursor`. -/
def validateCursor (cursor : Option String) : Except ApiError Unit :=
  match cursor with
  | none => .ok ()
  | some cursor =>
      if cursor.isEmpty ∨ 2048 < cursor.utf8ByteSize then
        .error (.validation "cursor must contain between 1 and 2048 bytes")
      else .ok ()

/-- `parse_idempotency_key`; `header` is the `idempotency-key` header. -/
def parseIdempotencyKey (header : Option String) : Except ApiError String :=
  match header with
  | none => .error (.validation "Idempotency-Key header is required")
  | some value =>
      match headerText value with
      | none => .error (.validation "Idempotency-Key must contain visible ASCII")
      | some value =>
          if value.isEmpty ∨ 255 < value.utf8ByteSize ∨
              ¬ (value.toList.all fun c => decide ('!' ≤ c) && decide (c ≤ '~')) then
            .error (.validation "Idempotency-Key must contain 1 to 255 visible ASCII characters")
          else .ok value

/-! ## Store and services -/

/-- The database as the handlers see it. -/
structure ApiStore extends DebugDb where
  artifacts : Table.Checked ArtifactId ArtifactRow.Checks

/-- The part of the store that listings of artifacts read. -/
def ApiStore.archive (s : ApiStore) : Archive := ⟨s.db, s.artifacts⟩

/-- A request ends with an error, or with a panic. -/
inductive Halt
  | error (e : ApiError)
  | panic
  deriving DecidableEq

abbrev Handler := Script Halt ApiStore

/-- `DebugTokenClaims`. -/
structure DebugTokenClaims where
  aud : String
  jti : String
  mode : DebugSessionMode
  exp : Int
  deriving DecidableEq

/-- What the handlers call, and their configuration. An upload's object is named by the upload. -/
structure ApiServices where
  codec : CursorCodec
  verifyUpload : UploadId → Except ObjectStoreError Unit
  presignDownload : String → Except ObjectStoreError (String × Time)
  /-- `encode` under the token key -/
  encode : DebugTokenClaims → Except String String
  /-- the JSON text of an instant -/
  instantText : Chrono.DateTime → String
  /-- `debug_token_ttl`, in nanoseconds -/
  debugTokenTtl : Nat
  debugGatewayBaseUrl : String

namespace Api

variable {α : Type}

/-- Halt with the error of a check. -/
def check (r : Except ApiError α) : Handler α := .check (r.mapError .error)

/-- `ok_or_else`. -/
def orElse (o : Option α) (e : ApiError) : Handler α := .okOr o (.error e)

/-- A call of the repository. -/
def onDb (x : RepoTx α) : Handler α :=
  .ofTx (fun s => s.db) (fun s db => { s with db := db }) (fun e => .error (.ofRepository e)) x

/-- A call that writes debug sessions. -/
def onSessions (x : DebugTx α) : Handler α :=
  .ofTx (fun s => s.toDebugDb) (fun s d => { s with toDebugDb := d })
    (fun e => .error (.ofRepository e)) x

/-- A call that reads artifacts. -/
def onArchive (x : ArchiveTx α) : Handler α :=
  .ofTx ApiStore.archive (fun s a => { s with db := a.db, artifacts := a.artifacts })
    (fun e => .error (.ofRepository e)) x

section Running

variable {β : Type} {p : Prop} [Decidable p] {e : ApiError} {s : ApiStore}

theorem guard_pos {f : Unit → Handler β} (h : p) :
    (check (if p then .ok () else .error e) >>= f) s = f () s := by
  rw [if_pos h]
  rfl

theorem guard_neg {f : Unit → Handler β} (h : ¬ p) :
    (check (if p then .ok () else .error e) >>= f) s = (.error (.error e), s) := by
  rw [if_neg h]
  rfl

theorem orElse_some_bind {f : α → Handler β} (a : α) : (orElse (some a) e >>= f) s = f a s := rfl

theorem orElse_none_bind {f : α → Handler β} :
    (orElse none e >>= f) s = (.error (.error e), s) := rfl

end Running

/-! ## One job -/

/-- The job of a path, which must be one of the caller's project. -/
def ownedJob (auth : AuthContext) (j : JobId) : Handler Job := do
  let found ← onDb (RunAnywhere.getJob j)
  let job ← orElse found (.notFound "job")
  check (requireOwnedResource auth job.projectId "job")
  pure job

/-- `get_job`. -/
def getJob (auth : AuthContext) (j : JobId) : Handler Job := do
  check (requireScope auth .projectRead)
  ownedJob auth j

/-- `cancel_job`; `eventId` is the identifier the repository draws. -/
def cancelJob (auth : AuthContext) (j : JobId) (eventId : JobEventId) (t : DbTime) :
    Handler Job := do
  check (requireScope auth .projectWrite)
  let _ ← ownedJob auth j
  let mutation ← onDb (requestJobCancellation j eventId t)
  pure mutation.job

/-- `stream_job_events`, up to the stream. -/
def streamJobEvents (auth : AuthContext) (j : JobId) (lastEventId : Option String) :
    Handler EventStreamState := do
  check (requireScope auth .projectRead)
  let _ ← ownedJob auth j
  let afterSequence ← check (parseLastEventId lastEventId)
  pure (.opened j afterSequence)

/-- The loop of `list_job_artifacts`. -/
def signArtifacts (services : ApiServices) : List StoredArtifact → Handler (List Artifact)
  | [] => pure []
  | stored :: rest => do
      let (url, expiresAt) ← check ((services.presignDownload stored.s3Key).mapError .ofObjectStore)
      let items ← signArtifacts services rest
      pure ({ stored.artifact with
        downloadUrl := some url, downloadExpiresAt := some expiresAt } :: items)

/-- `list_job_artifacts`. -/
def listJobArtifacts (services : ApiServices) (auth : AuthContext) (j : JobId)
    (cursor : Option String) : Handler (Page Artifact String) := do
  check (requireScope auth .projectRead)
  check (validateCursor cursor)
  let _ ← ownedJob auth j
  let page ← onArchive (listArtifactsPage services.codec j cursor)
  let items ← signArtifacts services page.items
  pure ⟨items, page.nextCursor⟩

/-! ## Listings -/

/-- `list_jobs`. -/
def listJobs (services : ApiServices) (auth : AuthContext) (projectId : ProjectId)
    (status : Option JobState) (cursor : Option String) : Handler (Page JobSummary String) := do
  check (requireScope auth .projectRead)
  check (requireProject auth projectId)
  check (validateCursor cursor)
  onDb (RunAnywhere.listJobs services.codec
    ⟨projectId, status, cursor, JobListQuery.defaultLimit⟩)

/-- `list_workers`. -/
def listWorkers (services : ApiServices) (auth : AuthContext) (cursor : Option String) :
    Handler (Page WorkerStatus String) := do
  check (requireScope auth .admin)
  check (validateCursor cursor)
  onDb (listWorkersPage services.codec cursor)

/-- `list_runtime_profiles`. -/
def listRuntimeProfiles (services : ApiServices) (auth : AuthContext) (cursor : Option String) :
    Handler (Page RuntimeProfile String) := do
  check (requireScope auth .admin)
  check (validateCursor cursor)
  onDb (listRuntimeProfilesPage services.codec cursor)

/-! ## Debug sessions -/

open Chrono

/-- `MINIMUM_TOKEN_LIFETIME`, in nanoseconds. -/
def minimumTokenLifetime : Int := 30 * second

/-- The instant a column holds. -/
def ofColumn (t : Time) : Option DateTime := DateTime.ofNanos (t * 1000)

/-- The column an instant is stored in: whole microseconds from the first of January 2000. -/
def toColumn (t : DateTime) : Time :=
  946684800000000 + (t.nanos - 946684800000000000).tdiv 1000

/-- `DateTime::timestamp`. -/
def timestamp (t : DateTime) : Int := t.nanos / second

/-- What a request draws and reads: identifiers and clocks. -/
structure DebugDraw where
  now : DateTime
  sessionId : DebugSessionId
  jti : Ident "jti_"
  clocks : DebugClocks
  /-- the clock of `mint` -/
  minted : DateTime

/-- `DebugTokenError`. -/
inductive DebugTokenError
  | invalidJti
  | invalidExpiry
  | signing (text : String)
  deriving DecidableEq

/-- `mint_at`. -/
def mint (services : ApiServices) (j : JobId) (sessionId : DebugSessionId) (jti : String)
    (mode : DebugSessionMode) (expiresAt now : DateTime) : Except DebugTokenError String :=
  if isBlank jti || jti.toList.any isAsciiControl then .error .invalidJti
  else if expiresAt.nanos ≤ now.nanos then .error .invalidExpiry
  else (services.encode ⟨j.val ++ ":" ++ sessionId.val, jti, mode, timestamp expiresAt⟩).mapError
    .signing

structure DebugSessionToken where
  sessionId : DebugSessionId
  jobId : JobId
  mode : DebugSessionMode
  token : String
  connectUrl : Uri
  expiresAt : DateTime
  deriving DecidableEq

/-- What the handler asks the repository to create. -/
def sessionRequest (services : ApiServices) (auth : AuthContext) (j : JobId)
    (mode : DebugSessionMode) (projectId : ProjectId) (draw : DebugDraw) (expiresAt : DateTime) :
    DebugSessionRequest where
  jobId := j
  id := draw.sessionId
  jti := draw.jti.val
  createdBy := auth.actor
  mode := mode
  expiresAt := toColumn expiresAt
  auditPayload := [("expires_at", .json (services.instantText expiresAt)), ("job_id", .jobId j),
    ("mode", .json (match mode with | .viewer => "viewer" | .controller => "controller")),
    ("project_id", .json projectId.val)]

/-- `create_debug_session`, from the deadline on. -/
def openSession (services : ApiServices) (auth : AuthContext) (j : JobId) (mode : DebugSessionMode)
    (projectId : ProjectId) (draw : DebugDraw) (expiresAt : DateTime) :
    Handler DebugSessionToken := do
  let created ← onSessions (createDebugSessionWithAudit
    (sessionRequest services auth j mode projectId draw expiresAt) draw.clocks)
  let token ← check ((mint services j created.session.id draw.jti.val mode expiresAt
    draw.minted).mapError fun _ => .internal)
  let connectUrl ← check ((Uri.new (services.debugGatewayBaseUrl ++ "/sessions/" ++
    created.session.id.val)).mapError fun _ => .internal)
  pure ⟨created.session.id, j, mode, token, connectUrl, expiresAt⟩

/-- `create_debug_session`, from the sums on. `Duration::seconds` and the sum with the minimum
lifetime panic out of range. -/
def grantSession (services : ApiServices) (auth : AuthContext) (j : JobId)
    (mode : DebugSessionMode) (projectId : ProjectId) (timeoutSeconds : Nat)
    (configuredTtl : TimeDelta) (startedAt : DateTime) (draw : DebugDraw) :
    Handler DebugSessionToken := do
  let jobTimeout ← Script.okOr (TimeDelta.trySeconds timeoutSeconds) .panic
  let jobDeadline ← orElse (startedAt.checkedAdd jobTimeout) .internal
  let tokenDeadline ← orElse (draw.now.checkedAdd configuredTtl) .internal
  let expiresAt := if jobDeadline.nanos ≤ tokenDeadline.nanos then jobDeadline else tokenDeadline
  let earliest ← Script.okOr (DateTime.ofNanos (draw.now.nanos + minimumTokenLifetime)) .panic
  check (if expiresAt.nanos < earliest.nanos then
      .error (.conflict "the remaining job lifetime is too short for a debug session")
    else .ok ())
  openSession services auth j mode projectId draw expiresAt

/-- `create_debug_session`. -/
def createDebugSession (services : ApiServices) (auth : AuthContext) (j : JobId)
    (mode : DebugSessionMode) (draw : DebugDraw) : Handler DebugSessionToken := do
  check (requireScope auth .debugCreate)
  let job ← ownedJob auth j
  check (if job.state = .debugAvailable then .ok ()
    else .error (.conflict "debug sessions require a job in debug_available state"))
  let configuredTtl ← orElse (TimeDelta.fromStd services.debugTokenTtl) .internal
  let startedAt ← orElse (job.startedAt.bind ofColumn) .internal
  check (if job.timeoutSeconds.seconds < 2 ^ 63 then .ok () else .error .internal)
  grantSession services auth j mode job.projectId job.timeoutSeconds.seconds configuredTtl startedAt
    draw

/-! ## A new job -/

/-- `find_job_by_idempotency_key`. -/
def findJobByIdempotencyKey (projectId : ProjectId) (key : String) : RepoTx (Option Job) := do
  let found ← lookupKey projectId key
  pure (found.map fun x => x.2.intoJob x.1)

/-- `load_owned_upload`. -/
def loadOwnedUpload (auth : AuthContext) (u : UploadId) : Handler UploadRow := do
  let found ← onDb (.read fun db => db.catalog.uploads.get? u)
  let upload ← orElse found (.notFound "upload")
  check (requireOwnedResource auth upload.projectId "upload")
  pure upload

/-- `upload_kind_name`. -/
def uploadKindName : UploadKind → String
  | .apk => "apk"
  | .test => "test"
  | .script => "script"

/-- `require_upload_kind`. -/
def requireUploadKind (u : UploadId) (upload : UploadRow) (expected : UploadKind) :
    Except ApiError Unit :=
  if upload.kind = expected then .ok ()
  else .error (.validation ("upload " ++ u.val ++ " must have kind " ++ uploadKindName expected))

/-- An upload of the caller's, of a kind, whose object is there. -/
def verifiedUpload (services : ApiServices) (auth : AuthContext) (u : UploadId)
    (kind : UploadKind) : Handler Unit := do
  let upload ← loadOwnedUpload auth u
  check (requireUploadKind u upload kind)
  check ((services.verifyUpload u).mapError .ofObjectStore)

/-- What the repository draws and reads for a new job, and the trace headers of the request. -/
structure CreateDraw where
  id : JobId
  eventId : JobEventId
  traceHeaders : List (String × String)
  time : DbTime

/-- `create_job`; `header` is the `idempotency-key` header. -/
def createJob (services : ApiServices) (auth : AuthContext) (header : Option String)
    (request : CreateJobRequest) (draw : CreateDraw) : Handler Job := do
  check (requireScope auth .projectWrite)
  check (requireProject auth request.projectId)
  let key ← check (parseIdempotencyKey header)
  match ← onDb (findJobByIdempotencyKey request.projectId key) with
  | some job => pure job
  | none => do
      check (if request.testUploadId = some request.apkUploadId then
          .error (.validation "APK and test uploads must be different")
        else .ok ())
      verifiedUpload services auth request.apkUploadId .apk
      match request.testUploadId with
      | none => pure ()
      | some testUploadId => verifiedUpload services auth testUploadId .test
      let created ← onDb (createJobWithOutbox draw.id draw.eventId request key draw.traceHeaders
        draw.time)
      pure created.job

end Api

end RunAnywhere
