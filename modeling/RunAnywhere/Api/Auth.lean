import RunAnywhere.Api.Handlers
import RunAnywhere.Logic.Prog
import RunAnywhere.Repository.Keys

/-!
# Authentication

`api/src/auth.rs`, the scopes of the routes in `api/src/router.rs` and the handler of
`api/src/projects.rs`: from the header of a request to the handler of its route.

* **token** — the `authorization` header, and the text of a bearer token in it;
* **two calls** — a key is looked up by the digest of the token, then touched; it may be revoked
  in between, so each call is an action of its own (`KeyCall`);
* **routes** — `PublicRoute.scope` is the guard of a route; a request that passes it comes to the
  handler with its context;
* **machine** — requests of any number of servers, and operators who make and revoke keys. A call
  may fail, before it commits or after.
-/

namespace RunAnywhere

open Logic

/-! ## The header -/

def maxBearerTokenBytes : Nat := 4 * 1024

/-- `str::split_once`. -/
def splitOnce (separator : Char) (text : List Char) : Option (List Char × List Char) :=
  match text.span (· ≠ separator) with
  | (before, _ :: after) => some (before, after)
  | (_, []) => none

/-- `bearer_token`; `header` is the `authorization` header. -/
def bearerToken (header : Option String) : Except ApiError String :=
  match (header.bind headerText).bind fun value => splitOnce ' ' value.toList with
  | none => .error .unauthorized
  | some (scheme, token) =>
      if scheme.map Char.toLower ≠ "bearer".toList ∨ token = [] ∨
          maxBearerTokenBytes < (String.ofList token).utf8ByteSize ∨
          token.any isAsciiWhitespace then
        .error .unauthorized
      else .ok (String.ofList token)

/-! ## Calls -/

/-- A call of the repository. -/
inductive KeyCall (η : Type)
  | findApiKeyByHash (hash : η)
  | touchApiKeyLastUsed (id : ApiKeyId)
  | createProjectWithApiKey (draw : KeyDraw) (name owner : String) (scopes : List AuthScope)

abbrev KeyCall.Ok {η : Type} : KeyCall η → Type
  | .findApiKeyByHash _ => Option ApiKeyRecord
  | .touchApiKeyLastUsed _ => ApiKeyRecord
  | .createProjectWithApiKey _ _ _ _ => CreatedProject

abbrev KeyCall.Out {η : Type} (x : KeyCall η) : Type := Except RepositoryError x.Ok

/-- A part of a request. -/
abbrev KeyTask (η ε α : Type) := Routine (KeyCall η) KeyCall.Out ε α

namespace Api

section Programs

variable {η : Type} [DecidableEq η] (digest : String → η)

def call (x : KeyCall η) : KeyTask η RepositoryError x.Ok := Prog.perform x

/-- The identity of a key. -/
def keyContext (record : ApiKeyRecord) : AuthContext where
  actor := "api_key:" ++ record.id.val
  keyId := some record.id.val
  projectId := some record.projectId
  scopes := record.scopes

/-- The identity of the bootstrap token, which has the scope `admin` only. -/
def bootstrapContext : AuthContext := ⟨"bootstrap-admin", none, none, [.admin]⟩

/-- What `authenticate_api_key` makes of the second call. -/
def touched : Except RepositoryError ApiKeyRecord → Except ApiError AuthContext
  | .ok record => .ok (keyContext record)
  | .error (.notFound _ _) => .error .unauthorized
  | .error e => .error (.ofRepository e)

/-- `authenticate_api_key`. -/
def authenticateApiKey (token : String) : KeyTask η ApiError AuthContext := do
  let found ← .try_ (call (.findApiKeyByHash (digest token))) ApiError.ofRepository
  match found with
  | none => .fail .unauthorized
  | some record =>
      if record.revokedAt.isSome then .fail .unauthorized
      else do
        let answer ← .attempt (call (.touchApiKeyLastUsed record.id))
        .ofExcept (touched answer)

/-- `constant_time_token_eq`. -/
def constantTimeTokenEq (candidate configured : String) : Bool :=
  digest candidate = digest configured

/-- `authenticate`. -/
def authenticate (bootstrapAdminToken : Option String) (header : Option String) :
    KeyTask η ApiError AuthContext := do
  let token ← .ofExcept (bearerToken header)
  if bootstrapAdminToken.any (constantTimeTokenEq digest token) then pure bootstrapContext
  else authenticateApiKey digest token

/-! ## Routes -/

/-- `INITIAL_PROJECT_SCOPES`. -/
def initialProjectScopes : List AuthScope := [.projectRead, .projectWrite, .debugCreate]

structure CreateProjectResponse where
  project : Project
  apiKey : String
  scopes : List AuthScope
  deriving DecidableEq

/-- `validate_name`. -/
def validateName (name : String) : Except ApiError Unit :=
  if isBlank name then .error (.validation "project name must not be blank")
  else if 255 < name.length then
    .error (.validation "project name must contain at most 255 characters")
  else .ok ()

/-- `create_project`. -/
def createProject (auth : AuthContext) (name : String) (draw : KeyDraw) :
    KeyTask η ApiError CreateProjectResponse := do
  .ofExcept (requireScope auth .admin)
  .ofExcept (validateName name)
  let created ← .try_ (call (.createProjectWithApiKey draw name auth.actor initialProjectScopes))
    ApiError.ofRepository
  pure ⟨created.project, created.apiKey.key, initialProjectScopes⟩

end Programs

/-- The routes of `public_router`. -/
inductive PublicRoute
  | createProject (name : String) (draw : KeyDraw)
  | createUpload
  | createJob
  | listJobs
  | getJob
  | streamJobEvents
  | listJobArtifacts
  | createDebugSession
  | cancelJob
  | createWebhook
  | listWorkers
  | listRuntimeProfiles
  | unknown

/-- The scope of a route. -/
def PublicRoute.scope : PublicRoute → Option AuthScope
  | .createProject _ _ => some .admin
  | .createUpload => some .projectWrite
  | .createJob => some .projectWrite
  | .listJobs => some .projectRead
  | .getJob => some .projectRead
  | .streamJobEvents => some .projectRead
  | .listJobArtifacts => some .projectRead
  | .createDebugSession => some .debugCreate
  | .cancelJob => some .projectWrite
  | .createWebhook => some .projectWrite
  | .listWorkers => some .admin
  | .listRuntimeProfiles => some .admin
  | .unknown => none

structure PublicRequest where
  authorization : Option String
  route : PublicRoute

/-- What a request comes to: the handler of its route, or for `create_project` its answer. -/
inductive Passed
  | handler (context : AuthContext)
  | created (response : CreateProjectResponse)
  deriving DecidableEq

section Serving

variable {η : Type} [DecidableEq η] (digest : String → η)

/-- The handler of a route, where it is one of this module. -/
def dispatch (context : AuthContext) : PublicRoute → KeyTask η ApiError Passed
  | .createProject name draw => do
      let response ← createProject context name draw
      pure (.created response)
  | _ => pure (.handler context)

/-- The layers of `public_router`: `authenticate`, then `scope_guard` of the route. -/
def serve (bootstrapAdminToken : Option String) (request : PublicRequest) :
    KeyTask η ApiError Passed := do
  let context ← authenticate digest bootstrapAdminToken request.authorization
  match request.route.scope with
  | none => .fail (.notFound "route")
  | some required => do
      .ofExcept (requireScope context required)
      dispatch context request.route

end Serving

end Api

/-! ## The machine -/

/-- How a call went: answered, or lost before or after it was committed. -/
inductive KeyFate
  | answered (now : Time)
  | lost (now : Time) (committed : Bool)

/-- What operators do with the repository. -/
inductive KeyOperator
  | createProject (id : ProjectId) (name owner : String) (now : Time)
  | createApiKey (draw : KeyDraw) (scopes : List AuthScope) (now : Time)
  | revokeApiKey (id : ApiKeyId) (now : Time)

section Machine

variable {η : Type} [DecidableEq η] (digest : String → η)

/-- The transaction of a call. -/
def KeyCall.tx (now : Time) : (x : KeyCall η) → KeyTx η x.Ok
  | .findApiKeyByHash hash => RunAnywhere.findApiKeyByHash hash
  | .touchApiKeyLastUsed id => RunAnywhere.touchApiKeyLastUsed id now
  | .createProjectWithApiKey draw name owner scopes =>
      RunAnywhere.createProjectWithApiKey digest draw name owner scopes now

/-- A call under its fate. -/
def KeyCall.perform (s : KeyDb η) (x : KeyCall η) : KeyFate → x.Out × KeyDb η
  | .answered now => (x.tx digest now).exec s
  | .lost now committed =>
      (.error (.sqlx .connection), if committed then ((x.tx digest now).exec s).2 else s)

/-- An operation of an operator; the scopes of the keys they make are limited. -/
def KeyDb.operate (mints : List AuthScope) (s : KeyDb η) : KeyOperator → Option (KeyDb η)
  | .createProject id name owner now =>
      some ((RunAnywhere.createProject id name owner now).exec s).2
  | .createApiKey draw scopes now =>
      if scopes.all fun scope => decide (scope ∈ mints) then
        some ((RunAnywhere.createApiKey digest draw scopes now).exec s).2
      else none
  | .revokeApiKey id now => some ((RunAnywhere.revokeApiKey id now).exec s).2

/-- Requests to any number of servers, over one database. -/
def keyMachine (bootstrapAdminToken : Option String) (mints : List AuthScope) :
    Machine (KeyDb η) (KeyCall η) KeyCall.Out Api.PublicRequest (Except ApiError Api.Passed)
      KeyFate KeyOperator where
  perform s x fate := some (x.perform digest s fate)
  prog request := Api.serve digest bootstrapAdminToken request
  enabled _ _ := true
  survives _ := false
  env := KeyDb.operate digest mints
  crash s := s

end Machine

end RunAnywhere
