import RunAnywhere.Api.Auth
import RunAnywhere.Logic.Trace

/-!
# API keys guard the routes

What the keys give the service, over every run of any number of requests, with operators who make
and revoke keys in between and calls that may fail before or after they commit:

* **lasting** — keys are never deleted, what they grant does not change, and a revoked key does
  not change at all (`KeyDb.Later`);
* **admission** — a request that comes to the handler of its route presented the bootstrap token,
  or a key that was live after the request arrived, and the route's scope is one of its;
* **refusal** — a request that presents a key is refused as unauthorized only if that key was not
  there when it arrived, or has been revoked since.
-/

namespace RunAnywhere

open Logic Logic.Machine Logic.Prog

variable {η : Type} [DecidableEq η] {digest : String → η} {bootstrap : Option String}
  {mints granted : List AuthScope}

/-! ## The discipline -/

/-- A call grants no other scopes. -/
def KeyCall.Within (granted : List AuthScope) : KeyCall η → Prop
  | .createProjectWithApiKey _ _ _ scopes => ∀ scope ∈ scopes, scope ∈ granted
  | _ => True

theorem KeyCall.tx_step {x : KeyCall η} {now : Time} {s s' : KeyDb η} {a : x.Ok}
    (hx : x.Within granted) (h : (x.tx digest now).Commits s a s') : s.Step granted s' := by
  cases x with
  | findApiKeyByHash hash =>
      cases a with
      | none => exact (findApiKeyByHash_none h).1 ▸ .refl _
      | some record => exact (findApiKeyByHash_some h).1 ▸ .refl _
  | touchApiKeyLastUsed id => exact (touchApiKeyLastUsed_step granted h).1
  | createProjectWithApiKey draw name owner scopes =>
      exact (createProjectWithApiKey_step hx h).1

omit [DecidableEq η] in
/-- A transaction that keeps what lasts when it commits keeps it when it is run. -/
theorem exec_step {α : Type} {x : KeyTx η α} {s : KeyDb η}
    (h : ∀ a s', x.Commits s a s' → s.Step granted s') : s.Step granted (x.exec s).2 := by
  rcases Tx.exec_cases x s with ⟨a, s', hcommits, hexec⟩ | ⟨e, _, hexec⟩
  · rw [hexec]
    exact h a s' hcommits
  · rw [hexec]
    exact .refl s

/-- How a call of a request can go. -/
theorem keyMachine_exec {x : KeyCall η} {s s' : KeyDb η} {r : x.Out}
    (h : (keyMachine digest bootstrap mints).Exec s x r s') :
    (∃ now, (x.tx digest now).exec s = (r, s')) ∨
      (r = .error (.sqlx .connection) ∧ (s' = s ∨ ∃ now, s' = ((x.tx digest now).exec s).2)) := by
  obtain ⟨fate, h⟩ := h
  have hperform : x.perform digest s fate = (r, s') := Option.some.inj h
  cases fate with
  | answered now => exact Or.inl ⟨now, hperform⟩
  | lost now committed =>
      obtain ⟨rfl, rfl⟩ := Prod.mk.inj hperform
      refine Or.inr ⟨rfl, ?_⟩
      cases committed with
      | false => exact Or.inl rfl
      | true => exact Or.inr ⟨now, rfl⟩

/-- What requests and operators share. -/
def keyDiscipline (η : Type) (granted : List AuthScope) : Discipline (KeyDb η) (KeyCall η) where
  inv s := s.Sound ∧ s.Grants granted
  later := KeyDb.Later
  cond _ _ := True
  allowed _ x := x.Within granted
  refl := KeyDb.Later.refl
  trans := KeyDb.Later.trans

omit [DecidableEq η] in
theorem dispatch_within (h : ∀ scope ∈ Api.initialProjectScopes, scope ∈ granted)
    (context : AuthContext) (route : Api.PublicRoute) :
    All (KeyCall.Within granted) (Api.dispatch context route : KeyTask η ApiError Api.Passed) := by
  cases route with
  | createProject name draw =>
      refine All.andThen ?_ fun _ => trivial
      unfold Api.createProject
      refine All.andThen trivial fun _ => All.andThen trivial fun _ => ?_
      exact All.andThen (All.try_ (All.perform h)) fun _ => trivial
  | _ => trivial

/-- Requests make projects with the initial scopes only. -/
theorem serve_within (h : ∀ scope ∈ Api.initialProjectScopes, scope ∈ granted)
    (request : Api.PublicRequest) :
    All (KeyCall.Within granted) (Api.serve digest bootstrap request) := by
  have hkey : ∀ token, All (KeyCall.Within granted) (Api.authenticateApiKey digest token) := by
    intro token
    unfold Api.authenticateApiKey
    refine All.andThen (All.try_ (All.perform trivial)) fun found => ?_
    cases found with
    | none => trivial
    | some record =>
        dsimp only
        split
        · trivial
        · exact All.andThen (All.attempt (All.perform trivial)) fun _ => trivial
  have hauth : All (KeyCall.Within granted)
      (Api.authenticate digest bootstrap request.authorization) := by
    refine All.andThen trivial fun token => ?_
    split
    · trivial
    · exact hkey token
  refine All.andThen hauth fun context => ?_
  split
  · trivial
  · exact All.andThen trivial fun _ => dispatch_within h context request.route

theorem key_respects (digest : String → η) (bootstrap : Option String) (mints : List AuthScope) :
    Machine.Respects (keyMachine digest bootstrap mints)
      (keyDiscipline η (Api.initialProjectScopes ++ mints)) fun _ _ _ _ => True where
  act s x r s' hi _ hx hexec := by
    have hstep : s.Step (Api.initialProjectScopes ++ mints) s' := by
      rcases keyMachine_exec hexec with ⟨now, hx'⟩ | ⟨_, rfl | ⟨now, rfl⟩⟩
      · have hrun : s.Step (Api.initialProjectScopes ++ mints) ((x.tx digest now).exec s).2 :=
          exec_step fun _ _ => KeyCall.tx_step hx
        rw [hx'] at hrun
        exact hrun
      · exact .refl _
      · exact exec_step fun a s' => KeyCall.tx_step hx
    exact ⟨⟨hstep.sound hi.1, hstep.grants hi.2⟩, hstep.later⟩
  env s e s' hi he := by
    have hstep : s.Step (Api.initialProjectScopes ++ mints) s' := by
      cases e with
      | createProject id name owner now =>
          cases he
          exact exec_step fun _ _ => createProject_step
      | createApiKey draw scopes now =>
          simp only [keyMachine, KeyDb.operate] at he
          split at he
          · next hscopes =>
              cases he
              refine exec_step fun _ _ => createApiKey_step fun scope hscope => ?_
              have hmint := List.all_eq_true.mp hscopes scope hscope
              exact List.mem_append_right _ (of_decide_eq_true hmint)
          · cases he
      | revokeApiKey id now =>
          cases he
          exact exec_step fun _ _ h => (revokeApiKey_step h).1
    exact ⟨⟨hstep.sound hi.1, hstep.grants hi.2⟩, hstep.later⟩
  crash s hi := ⟨hi, .refl s⟩
  spawn s request _ _ := Safe.of_all (φ := KeyCall.Within (Api.initialProjectScopes ++ mints))
    (fun _ _ _ hx => hx) (serve_within (fun _ => List.mem_append_left _) request) s

/-! ## One request -/

variable (digest bootstrap mints) in
/-- A call of a request among the others. -/
def KeyRaces (s : KeyDb η) (x : KeyCall η) (r : x.Out) (s' : KeyDb η) : Prop :=
  ∃ s₁, s.Later s₁ ∧ (s₁.Sound ∧ s₁.Grants (Api.initialProjectScopes ++ mints)) ∧
    (keyMachine digest bootstrap mints).Exec s₁ x r s'

variable {s s' : KeyDb η} {steps : List (Σ x : KeyCall η, x.Out)}

/-- A call that is answered. -/
theorem call_done {x : KeyCall η} {r : x.Out}
    (h : Trace (KeyRaces digest bootstrap mints) (Api.call x) s steps s' (.done r)) :
    ∃ s₁, s.Later s₁ ∧ s₁.Sound ∧
      ((∃ now, (x.tx digest now).exec s₁ = (r, s')) ∨ r = .error (.sqlx .connection)) := by
  obtain ⟨⟨s₁, hlater, hinv, hexec⟩, _⟩ := Trace.perform_done h
  refine ⟨s₁, hlater, hinv.1, ?_⟩
  rcases keyMachine_exec hexec with hx | ⟨hlost, _⟩
  · exact Or.inl hx
  · exact Or.inr hlost

/-- Every key with the token's digest is revoked. -/
def KeyDb.Dead (digest : String → η) (token : String) (s : KeyDb η) : Prop :=
  ∀ id row, s.key? id = some row → row.keyHash = digest token → row.revokedAt.isSome = true

/-- The identity of a key: one that was live when it was touched. -/
structure KeyIdentity (digest : String → η) (token : String) (birth s : KeyDb η)
    (context : AuthContext) (id : ApiKeyId) (row : ApiKeyRow η) : Prop where
  stored : s.key? id = some row
  hash : row.keyHash = digest token
  context : context = Api.keyContext (row.intoRecord id)
  used : row.lastUsedAt.isSome = true
  live : ∀ old, birth.key? id = some old → old.revokedAt = none

/-- No failure of the repository is answered as unauthorized. -/
theorem ofRepository_ne_unauthorized (e : RepositoryError) :
    ApiError.ofRepository e ≠ .unauthorized := by
  intro h
  have hcode := congrArg ApiError.code h
  cases e <;> cases hcode

omit [DecidableEq η] in
/-- One of the keys with a hash is the only one. -/
theorem KeyDb.Sound.dead {token : String} (h : s.Sound) {id : ApiKeyId} {row : ApiKeyRow η}
    (hrow : s.key? id = some row) (hhash : row.keyHash = digest token)
    (hrevoked : row.revokedAt.isSome = true) : s.Dead digest token := by
  intro id' row' hrow' hhash'
  have hid : id' = id := h.unique id' id row' row hrow' hrow (hhash'.trans hhash.symm)
  subst hid
  cases hrow.symm.trans hrow'
  exact hrevoked

/-- The second call of `authenticate_api_key`, of the key that was found. -/
theorem touched_done {token : String} {id : ApiKeyId} {row : ApiKeyRow η} {answer : Except _ _}
    (hrow : s.key? id = some row) (hhash : row.keyHash = digest token)
    (h : Trace (KeyRaces digest bootstrap mints) (Api.call (.touchApiKeyLastUsed id)) s steps s'
      (.done answer)) :
    (∀ context, Api.touched answer = .ok context →
      ∃ row', KeyIdentity digest token s s' context id row') ∧
    (Api.touched answer = .error .unauthorized → ∃ s₁, s.Later s₁ ∧ s₁.Later s' ∧
      s₁.Dead digest token) := by
  obtain ⟨s₁, hlater, hsound, ⟨now, hexec⟩ | hlost⟩ := call_done h
  · obtain ⟨row₁, hrow₁, hkeeps⟩ := hlater.keys id row hrow
    have hhash₁ : row₁.keyHash = digest token := hkeeps.keyHash.trans hhash
    cases answer with
    | ok record =>
        obtain ⟨hstep, row₂, hrow₂, hlive, hrow', rfl⟩ :=
          touchApiKeyLastUsed_step [] (Tx.commits_of_exec hexec)
        cases hrow₁.symm.trans hrow₂
        refine ⟨fun context hcontext => ?_, fun hfailed => by cases hfailed⟩
        cases hcontext
        refine ⟨_, hrow', hhash₁, rfl, rfl, fun old hold => ?_⟩
        exact hlater.live hold hrow₁ hlive
    | error e =>
        refine ⟨fun context hcontext => ?_, fun hfailed => ?_⟩
        · cases e <;> cases hcontext
        · cases e with
          | notFound entity key =>
              rcases Tx.exec_cases (touchApiKeyLastUsed id now) s₁ with ⟨_, _, _, hx⟩ | ⟨e, hx, hx'⟩
              · cases hx.symm.trans hexec
              · obtain ⟨he, rfl⟩ := Prod.mk.inj (hx'.symm.trans hexec)
                cases he
                exact ⟨s₁, hlater, .refl s₁,
                  hsound.dead hrow₁ hhash₁ (touchApiKeyLastUsed_notFound hx row₁ hrow₁)⟩
          | _ => exact absurd (Except.error.inj hfailed) (ofRepository_ne_unauthorized _)
  · subst hlost
    exact ⟨fun context hcontext => (by cases hcontext),
      fun hfailed => absurd (Except.error.inj hfailed) (ofRepository_ne_unauthorized _)⟩

/-- What `authenticate_api_key` answers. -/
theorem authenticateApiKey_done {token : String} {r : Except ApiError AuthContext}
    (h : Trace (KeyRaces digest bootstrap mints) (Api.authenticateApiKey digest token) s steps s'
      (.done r)) :
    (∀ context, r = .ok context → ∃ id row, KeyIdentity digest token s s' context id row) ∧
    (r = .error .unauthorized → ∃ s₁, s.Later s₁ ∧ s₁.Later s' ∧ s₁.Dead digest token) := by
  unfold Api.authenticateApiKey at h
  rcases Trace.andThen_done h with ⟨e, rfl, hfailed⟩ | ⟨found, s₁, _, _, hfound, hrest, _⟩
  · obtain ⟨answer, hanswer, _⟩ := Trace.map_done (p := Api.call _) hfailed
    refine ⟨fun context hcontext => (by cases hcontext), fun hrefused => ?_⟩
    cases hrefused
    cases answer with
    | ok a => cases hanswer
    | error e => exact absurd (Except.error.inj hanswer).symm (ofRepository_ne_unauthorized e)
  · obtain ⟨answer, hanswer, hcall⟩ := Trace.map_done (p := Api.call _) hfound
    cases answer with
    | error e => cases hanswer
    | ok found' =>
        cases hanswer
        obtain ⟨s₀, hlater, hsound, ⟨now, hexec⟩ | hlost⟩ := call_done hcall
        · have hcommits := Tx.commits_of_exec hexec
          cases found with
          | none =>
              obtain ⟨rfl, hnone⟩ := findApiKeyByHash_none hcommits
              obtain ⟨rfl, rfl⟩ := Trace.done_done hrest
              refine ⟨fun context hcontext => (by cases hcontext), fun _ => ?_⟩
              exact ⟨s', hlater, .refl s',
                fun id row hrow hhash => absurd hhash (hnone id row hrow)⟩
          | some record =>
              obtain ⟨rfl, row, hrow, hhash, hrecord⟩ := findApiKeyByHash_some hcommits
              have hstamp : record.revokedAt = row.revokedAt := congrArg (·.revokedAt) hrecord
              dsimp only at hrest
              split at hrest
              · next hrevoked =>
                  obtain ⟨rfl, rfl⟩ := Trace.done_done hrest
                  refine ⟨fun context hcontext => (by cases hcontext), fun _ => ?_⟩
                  exact ⟨s', hlater, .refl s', hsound.dead hrow hhash (hstamp ▸ hrevoked)⟩
              · rcases Trace.andThen_done hrest with
                  ⟨e, _, hfailed⟩ | ⟨_, s₂, _, _, htouch, hlast, _⟩
                · obtain ⟨_, hnever, _⟩ := Trace.map_done (p := Api.call _) hfailed
                  cases hnever
                · obtain ⟨answer, hanswer, hcall'⟩ := Trace.map_done (p := Api.call _) htouch
                  cases hanswer
                  obtain ⟨rfl, rfl⟩ := Trace.done_done hlast
                  obtain ⟨hadmits, hrefuses⟩ := touched_done hrow hhash hcall'
                  refine ⟨fun context hcontext => ?_, fun hrefused => ?_⟩
                  · obtain ⟨row', hidentity⟩ := hadmits context hcontext
                    refine ⟨record.id, row', hidentity.stored, hidentity.hash, hidentity.context,
                      hidentity.used, fun old hold => ?_⟩
                    obtain ⟨old', hold', hkeeps⟩ := hlater.keys _ old hold
                    exact hlater.live hold hold' (hidentity.live old' hold')
                  · obtain ⟨s₃, hl, hl', hdead⟩ := hrefuses hrefused
                    exact ⟨s₃, hlater.trans hl, hl', hdead⟩
        · cases hlost

variable (digest bootstrap) in
/-- Who a request is of: the bootstrap token, or a key. -/
def Identified (token : String) (birth s : KeyDb η) (context : AuthContext) : Prop :=
  (bootstrap.any (Api.constantTimeTokenEq digest token) = true ∧
      context = Api.bootstrapContext) ∨
    (bootstrap.any (Api.constantTimeTokenEq digest token) = false ∧
      ∃ id row, KeyIdentity digest token birth s context id row)

/-- What `authenticate` answers. -/
theorem authenticate_done {header : Option String} {r : Except ApiError AuthContext}
    (h : Trace (KeyRaces digest bootstrap mints) (Api.authenticate digest bootstrap header) s steps
      s' (.done r)) :
    (∀ context, r = .ok context → ∃ token, bearerToken header = .ok token ∧
      Identified digest bootstrap token s s' context) ∧
    (r = .error .unauthorized → ∀ token, bearerToken header = .ok token →
      bootstrap.any (Api.constantTimeTokenEq digest token) = false ∧
      ∃ s₁, s.Later s₁ ∧ s₁.Later s' ∧ s₁.Dead digest token) := by
  rcases Trace.andThen_done h with ⟨e, rfl, hfailed⟩ | ⟨token, s₁, _, _, htoken, hrest, _⟩
  · obtain ⟨_, _, hr⟩ := Trace.of_done hfailed
    refine ⟨fun context hcontext => (by cases hcontext), fun _ token htoken => ?_⟩
    cases htoken.symm.trans (Prog.done.inj hr).symm
  · obtain ⟨_, rfl, hr⟩ := Trace.of_done htoken
    have hheader : bearerToken header = .ok token := (Prog.done.inj hr).symm
    cases hboot : bootstrap.any (Api.constantTimeTokenEq digest token) with
    | true =>
        rw [hboot, if_pos rfl] at hrest
        obtain ⟨rfl, rfl⟩ := Trace.done_done hrest
        refine ⟨fun context hcontext => ?_, fun hrefused => by cases hrefused⟩
        cases hcontext
        exact ⟨token, hheader, Or.inl ⟨hboot, rfl⟩⟩
    | false =>
        rw [hboot, if_neg Bool.false_ne_true] at hrest
        obtain ⟨hadmits, hrefuses⟩ := authenticateApiKey_done hrest
        refine ⟨fun context hcontext => ⟨token, hheader, Or.inr ⟨hboot, hadmits context hcontext⟩⟩,
          fun hrefused token' htoken' => ?_⟩
        cases hheader.symm.trans htoken'
        exact ⟨hboot, hrefuses hrefused⟩

/-! ## A new key -/

/-- Visible ASCII is a bearer token. -/
theorem bearerToken_of_visible {token : List Char} (hne : token ≠ [])
    (hvisible : ∀ c ∈ token, 33 ≤ c.toNat ∧ c.toNat ≤ 126)
    (hlength : token.length ≤ maxBearerTokenBytes) :
    bearerToken (some ("Bearer " ++ String.ofList token)) = .ok (String.ofList token) := by
  have hlist : ("Bearer " ++ String.ofList token).toList = "Bearer ".toList ++ token := by simp
  have hscheme : ("Bearer ".toList.all fun c => decide (32 ≤ c.toNat ∧ c.toNat ≤ 126)) = true := by
    decide
  have htext : headerText ("Bearer " ++ String.ofList token) =
      some ("Bearer " ++ String.ofList token) := by
    unfold headerText
    refine if_pos (List.all_eq_true.mpr fun c hc => ?_)
    rw [hlist] at hc
    have hrange : 32 ≤ c.toNat ∧ c.toNat ≤ 126 := by
      rcases List.mem_append.mp hc with h | h
      · exact of_decide_eq_true (List.all_eq_true.mp hscheme c h)
      · have := hvisible c h
        omega
    have hlow : ' ' ≤ c := Char.le_def.mpr (UInt32.le_iff_toNat_le.mpr hrange.1)
    have hhigh : c ≤ '~' := Char.le_def.mpr (UInt32.le_iff_toNat_le.mpr hrange.2)
    simp [hlow, hhigh]
  have hsplit : splitOnce ' ' ("Bearer ".toList ++ token) = some ("Bearer".toList, token) := rfl
  have hsize : (String.ofList token).utf8ByteSize = token.length :=
    Json.utf8ByteSize_ascii fun c hc => by
      have := hvisible c hc
      omega
  have hblank : token.any isAsciiWhitespace = false := by
    refine List.any_eq_false.mpr fun c hc hspace => ?_
    have hrange := hvisible c hc
    simp only [isAsciiWhitespace, Bool.or_eq_true, beq_iff_eq] at hspace
    rcases hspace with (((rfl | rfl) | rfl) | rfl) | rfl <;> revert hrange <;> decide
  unfold bearerToken
  rw [Option.bind_some, htext, Option.bind_some, hlist, hsplit]
  simp only
  rw [if_neg]
  rintro (hcase | hnil | hlong | hspace)
  · exact hcase (by decide)
  · exact hne hnil
  · rw [hsize] at hlong
    omega
  · rw [hblank] at hspace
    cases hspace

/-- The text of a new key is a bearer token. -/
theorem bearerToken_generateApiKey (random : Vector UInt8 32) :
    bearerToken (some ("Bearer " ++ generateApiKey random)) = .ok (generateApiKey random) := by
  have htext : generateApiKey random =
      String.ofList ("raa_sk_".toList ++ Base64.encode random.toList) := by
    rw [String.ofList_append, String.ofList_toList]
    rfl
  have hprefix : ("raa_sk_".toList.all fun c => decide (33 ≤ c.toNat ∧ c.toNat ≤ 126)) = true := by
    decide
  rw [htext]
  refine bearerToken_of_visible (by simp) (fun c hc => ?_) ?_
  · rcases List.mem_append.mp hc with h | h
    · exact of_decide_eq_true (List.all_eq_true.mp hprefix c h)
    · obtain ⟨n, rfl⟩ := Base64.mem_encode _ c h
      exact Base64.letter_visible n
  · rw [List.length_append, Base64.length_encode, Vector.length_toList]
    decide

/-! ## The route -/

variable (digest) in
/-- What a request came to: the handler with its identity, or a new project, whose key is stored
and works as a bearer token. -/
def Api.Passed.Of (s : KeyDb η) (context : AuthContext) : Api.Passed → Prop
  | .handler context' => context' = context
  | .created response =>
      response.project.owner = context.actor ∧
      s.project? response.project.id = some response.project ∧
      bearerToken (some ("Bearer " ++ response.apiKey)) = .ok response.apiKey ∧
      ∃ id row, s.key? id = some row ∧ row.keyHash = digest response.apiKey ∧
        row.projectId = response.project.id ∧ row.scopes = Api.initialProjectScopes

/-- What a check of the request answers. -/
theorem ofExcept_done {α : Type} {check r : Except ApiError α}
    (h : Trace (KeyRaces digest bootstrap mints) (Routine.ofExcept check) s steps s' (.done r)) :
    s' = s ∧ r = check := by
  obtain ⟨_, rfl, hr⟩ := Trace.of_done h
  exact ⟨rfl, Prog.done.inj hr⟩

/-- What `create_project` answers. -/
theorem createProject_done {context : AuthContext} {name : String} {draw : KeyDraw}
    {r : Except ApiError Api.CreateProjectResponse}
    (h : Trace (KeyRaces digest bootstrap mints) (Api.createProject context name draw) s steps s'
      (.done r)) :
    (∀ response, r = .ok response → (Api.Passed.created response).Of digest s' context) ∧
    r ≠ .error .unauthorized := by
  unfold Api.createProject at h
  rcases Trace.andThen_done h with ⟨e, rfl, hfailed⟩ | ⟨_, s₁, _, _, hscope, hrest, _⟩
  · obtain ⟨_, hr⟩ := ofExcept_done hfailed
    refine ⟨fun _ hr => (by cases hr), fun hrefused => ?_⟩
    cases hrefused
    unfold requireScope at hr
    split at hr <;> cases hr
  rcases Trace.andThen_done hrest with ⟨e, rfl, hfailed⟩ | ⟨_, s₂, _, _, hname, hrest, _⟩
  · obtain ⟨_, hr⟩ := ofExcept_done hfailed
    refine ⟨fun _ hr => (by cases hr), fun hrefused => ?_⟩
    cases hrefused
    unfold Api.validateName at hr
    split at hr
    · cases hr
    · split at hr <;> cases hr
  rcases Trace.andThen_done hrest with ⟨e, rfl, hfailed⟩ | ⟨created, s₃, _, _, hcreated, hlast, _⟩
  · obtain ⟨answer, hanswer, _⟩ := Trace.map_done (p := Api.call _) hfailed
    refine ⟨fun _ hr => (by cases hr), fun hrefused => ?_⟩
    cases hrefused
    cases answer with
    | ok a => cases hanswer
    | error e => exact absurd (Except.error.inj hanswer).symm (ofRepository_ne_unauthorized e)
  · obtain ⟨answer, hanswer, hcall⟩ := Trace.map_done (p := Api.call _) hcreated
    obtain ⟨rfl, rfl⟩ := Trace.done_done hlast
    refine ⟨fun response hresponse => ?_, fun hrefused => by cases hrefused⟩
    cases hresponse
    cases answer with
    | error e => cases hanswer
    | ok created' =>
        cases hanswer
        obtain ⟨s₀, _, _, ⟨now, hexec⟩ | hlost⟩ := call_done hcall
        · obtain ⟨_, hproject, hkey, hrow, hkeyrow⟩ := createProjectWithApiKey_step
            (fun scope hscope => hscope) (Tx.commits_of_exec hexec)
          refine ⟨by rw [hproject], by rw [hproject] at hrow ⊢; exact hrow, ?_, _, _, hkeyrow, rfl,
            by rw [hproject], rfl⟩
          rw [hkey]
          exact bearerToken_generateApiKey _
        · cases hlost

omit [DecidableEq η] in
/-- An identity lasts. -/
theorem KeyIdentity.later {token : String} {birth : KeyDb η} {context : AuthContext} {id : ApiKeyId}
    {row : ApiKeyRow η} (h : KeyIdentity digest token birth s context id row) (hl : s.Later s') :
    ∃ row', KeyIdentity digest token birth s' context id row' := by
  obtain ⟨row', hrow', hkeeps⟩ := hl.keys id row h.stored
  refine ⟨row', hrow', hkeeps.keyHash.trans h.hash, ?_, hkeeps.used h.used, h.live⟩
  rw [h.context]
  unfold Api.keyContext ApiKeyRow.intoRecord
  rw [hkeeps.projectId, hkeeps.scopes]

theorem Identified.later {token : String} {birth : KeyDb η} {context : AuthContext}
    (h : Identified digest bootstrap token birth s context) (hl : s.Later s') :
    Identified digest bootstrap token birth s' context := by
  rcases h with hboot | ⟨hno, id, row, hidentity⟩
  · exact Or.inl hboot
  · obtain ⟨row', hidentity'⟩ := hidentity.later hl
    exact Or.inr ⟨hno, id, row', hidentity'⟩

omit [DecidableEq η] in
theorem Api.Passed.Of.later {context : AuthContext} {passed : Api.Passed}
    (h : passed.Of digest s context) (hl : s.Later s') : passed.Of digest s' context := by
  cases passed with
  | handler context' => exact h
  | created response =>
      obtain ⟨howner, hproject, hbearer, id, row, hrow, hhash, hproj, hscopes⟩ := h
      obtain ⟨row', hrow', hkeeps⟩ := hl.keys id row hrow
      exact ⟨howner, hl.projects _ _ hproject, hbearer, id, row', hrow',
        hkeeps.keyHash.trans hhash, hkeeps.projectId.trans hproj, hkeeps.scopes.trans hscopes⟩

/-- A request moves projects and keys along what lasts. -/
theorem races_later {α : Type} {p q : Prog (KeyCall η) KeyCall.Out α}
    (hp : All (KeyCall.Within (Api.initialProjectScopes ++ mints)) p)
    (h : Trace (KeyRaces digest bootstrap mints) p s steps s' q) : s.Later s' := by
  refine Trace.keeps (P := fun t => s.Later t) hp ?_ h (.refl s)
  rintro t x r t' hx ⟨t₁, hlater, hinv, hexec⟩ ht
  exact (ht.trans hlater).trans
    ((key_respects digest bootstrap mints).act t₁ x r t' hinv trivial hx hexec).2

/-- What a request comes to past the guard. -/
theorem dispatch_done {context : AuthContext} {route : Api.PublicRoute}
    {r : Except ApiError Api.Passed}
    (h : Trace (KeyRaces digest bootstrap mints) (Api.dispatch context route) s steps s'
      (.done r)) :
    (∀ passed, r = .ok passed → passed.Of digest s' context) ∧ r ≠ .error .unauthorized := by
  cases route with
  | createProject name draw =>
      rcases Trace.andThen_done h with ⟨e, rfl, hfailed⟩ | ⟨response, s₁, _, _, hcreated, hlast, _⟩
      · obtain ⟨_, hnever⟩ := createProject_done hfailed
        refine ⟨fun _ hr => (by cases hr), fun hr => hnever ?_⟩
        cases hr
        rfl
      · obtain ⟨hcreates, _⟩ := createProject_done hcreated
        obtain ⟨rfl, rfl⟩ := Trace.done_done hlast
        refine ⟨fun passed hr => ?_, fun hr => by cases hr⟩
        cases hr
        exact hcreates response rfl
  | _ =>
      obtain ⟨_, rfl, hr⟩ := Trace.of_done h
      cases Prog.done.inj hr
      refine ⟨fun passed hr => ?_, fun hr => by cases hr⟩
      cases hr
      rfl

/-- What a request comes to. -/
theorem serve_done {request : Api.PublicRequest} {r : Except ApiError Api.Passed}
    (h : Trace (KeyRaces digest bootstrap mints) (Api.serve digest bootstrap request) s steps s'
      (.done r)) :
    (∀ passed, r = .ok passed → ∃ token context required,
      bearerToken request.authorization = .ok token ∧ request.route.scope = some required ∧
      required ∈ context.scopes ∧ Identified digest bootstrap token s s' context ∧
      passed.Of digest s' context) ∧
    (r = .error .unauthorized → ∀ token, bearerToken request.authorization = .ok token →
      bootstrap.any (Api.constantTimeTokenEq digest token) = false ∧
      ∃ s₁, s.Later s₁ ∧ s₁.Later s' ∧ s₁.Dead digest token) := by
  unfold Api.serve at h
  rcases Trace.andThen_done h with ⟨e, rfl, hfailed⟩ | ⟨context, s₁, _, _, hauth, hrest, _⟩
  · obtain ⟨_, hrefuses⟩ := authenticate_done hfailed
    exact ⟨fun _ hr => (by cases hr), fun hr => hrefuses (by cases hr; rfl)⟩
  obtain ⟨hadmits, _⟩ := authenticate_done hauth
  obtain ⟨token, htoken, hidentified⟩ := hadmits context rfl
  cases hroute : request.route.scope with
  | none =>
      rw [hroute] at hrest
      obtain ⟨_, _, hr⟩ := Trace.of_done hrest
      cases Prog.done.inj hr
      exact ⟨fun _ hr => (by cases hr), fun hr => by cases hr⟩
  | some required =>
      rw [hroute] at hrest
      rcases Trace.andThen_done hrest with ⟨e, rfl, hfailed⟩ | ⟨_, s₂, _, _, hguard, hlast, _⟩
      · obtain ⟨_, hr⟩ := ofExcept_done hfailed
        refine ⟨fun _ hr => (by cases hr), fun hrefused => ?_⟩
        cases hrefused
        unfold requireScope at hr
        split at hr <;> cases hr
      obtain ⟨rfl, hscope⟩ := ofExcept_done hguard
      have hrequired := requireScope_ok hscope.symm
      have hlater : s₂.Later s' :=
        races_later (dispatch_within (fun _ => List.mem_append_left _) context _) hlast
      have hpassed := dispatch_done hlast
      refine ⟨fun passed hr => ?_, fun hr => absurd hr hpassed.2⟩
      exact ⟨token, context, required, htoken, rfl, hrequired, hidentified.later hlater,
        hpassed.1 passed hr⟩

/-! ## Every run -/

/-- **Keys.** In every run of requests and operators from an empty database:

* keys are never deleted and grant the same to the same project for ever, a revoked key does not
  change at all, and a digest is of one key;
* a request that passes presented the bootstrap token, whose identity has the scope `admin` only,
  or a key that was not revoked when the request arrived; its identity is the key's, which was
  stamped as used, and it has the scope of the route; a project it made is stored with a first key
  that works as a bearer token;
* a request that presents a token and is unauthorized did not present the bootstrap token, and
  every key with its digest that was there when it arrived has been revoked;
* unless operators make keys with the scope `admin`, only the bootstrap token passes a route of
  that scope. -/
theorem api_keys_guard {p : Pool (KeyDb η) (KeyCall η) KeyCall.Out Api.PublicRequest
      (Except ApiError Api.Passed)} {cs : List (Cmd Api.PublicRequest KeyFate KeyOperator)}
    (hrun : ((keyMachine digest bootstrap mints).system (· = .empty) fun _ _ => True).Run
      ⟨.empty, []⟩ cs p) :
    (p.state.Sound ∧ ∀ cs' p',
      ((keyMachine digest bootstrap mints).system (· = .empty) fun _ _ => True).Run p cs' p' →
        p.state.Later p'.state) ∧
    (∀ th ∈ p.threads, ∀ passed, th.rest = .done (.ok passed) → ∃ token context required,
      bearerToken th.tag.authorization = .ok token ∧ th.tag.route.scope = some required ∧
      required ∈ context.scopes ∧ Identified digest bootstrap token th.birth p.state context ∧
      passed.Of digest p.state context) ∧
    (∀ th ∈ p.threads, th.rest = .done (.error .unauthorized) → ∀ token,
      bearerToken th.tag.authorization = .ok token →
      bootstrap.any (Api.constantTimeTokenEq digest token) = false ∧
      ∀ id old, th.birth.key? id = some old → old.keyHash = digest token →
        ∃ row, p.state.key? id = some row ∧ row.revokedAt.isSome = true) ∧
    (AuthScope.admin ∉ mints → ∀ th ∈ p.threads, ∀ passed, th.rest = .done (.ok passed) →
      th.tag.route.scope = some .admin → ∀ token, bearerToken th.tag.authorization = .ok token →
      bootstrap.any (Api.constantTimeTokenEq digest token) = true) := by
  have hrespects := key_respects digest bootstrap mints
  have hinit : ∀ s : KeyDb η, s = .empty →
      (keyDiscipline η (Api.initialProjectScopes ++ mints)).inv s := by
    rintro _ rfl
    exact ⟨KeyDb.sound_empty, fun _ _ h => (by cases h)⟩
  have hboot : ((keyMachine digest bootstrap mints).system (· = .empty) fun _ _ => True).Reachable
      ⟨.empty, []⟩ := .init ⟨rfl, rfl⟩
  have hreach := hboot.run hrun
  have hinv := hrespects.inv hinit hreach
  have htraces := hrespects.traces hinit p hreach
  have hpassed : ∀ th ∈ p.threads, ∀ passed, th.rest = .done (.ok passed) →
      ∃ token context required,
      bearerToken th.tag.authorization = .ok token ∧ th.tag.route.scope = some required ∧
      required ∈ context.scopes ∧ Identified digest bootstrap token th.birth p.state context ∧
      passed.Of digest p.state context := by
    intro th hth passed hdone
    obtain ⟨s, steps, htrace, hlater⟩ := htraces th hth
    rw [hdone] at htrace
    obtain ⟨token, context, required, htoken, hscope, hrequired, hidentified, hof⟩ :=
      (serve_done htrace).1 passed rfl
    exact ⟨token, context, required, htoken, hscope, hrequired, hidentified.later hlater,
      hof.later hlater⟩
  refine ⟨⟨hinv.1, fun cs' p' hrun' => hrespects.run_later hinit hreach hrun'⟩, hpassed, ?_, ?_⟩
  · intro th hth hdone token htoken
    obtain ⟨s, steps, htrace, hlater⟩ := htraces th hth
    rw [hdone] at htrace
    obtain ⟨hno, s₁, hbefore, hafter, hdead⟩ := (serve_done htrace).2 rfl token htoken
    refine ⟨hno, fun id old hold hhash => ?_⟩
    obtain ⟨row, hrow, hkeeps⟩ := hbefore.keys id old hold
    have hrevoked := hdead id row hrow (hkeeps.keyHash.trans hhash)
    exact ⟨row, (hafter.trans hlater).revoked hrow hrevoked, hrevoked⟩
  · intro hmints th hth passed hdone hroute token htoken
    obtain ⟨token', context, required, htoken', hscope, hrequired, hidentified, _⟩ :=
      hpassed th hth passed hdone
    cases htoken.symm.trans htoken'
    cases hroute.symm.trans hscope
    rcases hidentified with ⟨hroot, _⟩ | ⟨_, id, row, hidentity⟩
    · exact hroot
    · rw [hidentity.context] at hrequired
      have hgranted := hinv.2 id row hidentity.stored _ hrequired
      rcases List.mem_append.mp hgranted with hinitial | hmint
      · simp [Api.initialProjectScopes] at hinitial
      · exact absurd hmint hmints

namespace Sample

def keyDraw : KeyDraw where
  projectId := ⟨"proj_keys", by decide⟩
  keyId := ⟨"key_first", by decide⟩
  random := Vector.replicate 32 0

def keyHeader : Option String := some ("Bearer " ++ generateApiKey keyDraw.random)

/-- A project is made. One request passes with its key; another one has found the key when it is
revoked. -/
def keyRun : List (Cmd Api.PublicRequest KeyFate KeyOperator) :=
  [.spawn ⟨some "Bearer root", .createProject "Mobile QA" keyDraw⟩, .act 0 (.answered 5),
    .spawn ⟨keyHeader, .getJob⟩, .act 1 (.answered 6), .act 1 (.answered 7),
    .spawn ⟨keyHeader, .getJob⟩, .act 2 (.answered 8), .env (.revokeApiKey keyDraw.keyId 9),
    .act 2 (.answered 10)]

def keyOutcome? (th : Thread (KeyDb String) (KeyCall String) KeyCall.Out Api.PublicRequest
    (Except ApiError Api.Passed)) : Option (Except ApiError Api.Passed) :=
  match th.rest with
  | .done r => some r
  | .act _ _ => none

def keyIdentity : AuthContext :=
  ⟨"api_key:key_first", some "key_first", some keyDraw.projectId, Api.initialProjectScopes⟩

end Sample

/-- The first request passed with the identity of the key, which is stored; the second one is
refused. -/
theorem api_keys_guard_revoked : ∃ p, ((keyMachine id (some "root") []).system (· = .empty)
      fun _ _ => True).Run ⟨.empty, []⟩ Sample.keyRun p ∧
    (p.threads.map Sample.keyOutcome?).drop 1 =
      [some (.ok (.handler Sample.keyIdentity)), some (.error .unauthorized)] ∧
    ∃ token birth key row, KeyIdentity id token birth p.state Sample.keyIdentity key row := by
  have hfinal : ((keyMachine id (some "root") []).replay ⟨.empty, []⟩ Sample.keyRun).map (fun p =>
      (p.threads.map Sample.keyOutcome?).drop 1) =
      some [some (.ok (.handler Sample.keyIdentity)), some (.error .unauthorized)] := by
    decide +kernel
  obtain ⟨p, hreplay, houtcomes⟩ := Option.map_eq_some_iff.mp hfinal
  have hrun : ((keyMachine id (some "root") []).system (· = .empty) fun _ _ => True).Run
      ⟨.empty, []⟩ Sample.keyRun p := replay_run _ hreplay
  have hmem : some (.ok (.handler Sample.keyIdentity)) ∈ p.threads.map Sample.keyOutcome? := by
    apply List.mem_of_mem_drop
    rw [houtcomes]
    exact List.mem_cons_self
  obtain ⟨th, hth, hdone⟩ := List.mem_map.mp hmem
  have hrest : th.rest = .done (.ok (.handler Sample.keyIdentity)) := by
    unfold Sample.keyOutcome? at hdone
    split at hdone
    · next heq =>
        cases hdone
        exact heq
    · cases hdone
  obtain ⟨_, hpassed, _⟩ := api_keys_guard hrun
  obtain ⟨token, context, _, _, _, _, hidentified, hof⟩ := hpassed th hth _ hrest
  have hcontext : Sample.keyIdentity = context := hof
  subst hcontext
  rcases hidentified with ⟨_, hroot⟩ | ⟨_, key, row, hidentity⟩
  · exact absurd hroot (by decide)
  · exact ⟨p, hrun, houtcomes, token, th.birth, key, row, hidentity⟩

end RunAnywhere
