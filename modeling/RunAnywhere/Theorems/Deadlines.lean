import Mathlib.Data.List.TakeWhile
import RunAnywhere.Theorems.DebugSessions
import RunAnywhere.Theorems.Tenancy

/-!
# Deadlines of debug sessions

**When a debug session is opened safely.** The handler of `POST /jobs/{id}/debug-sessions` adds
three durations to two instants. Some of its sums are checked and one conversion is not, so a job
whose timeout is out of `chrono`'s range, which job creation accepts, ends every such request in a
panic. It also goes on to mint a token after the session was committed.

* **call** — a request with the store it meets (`DebugCall`);
* **safe** — no panic, an error only before anything is stored, and otherwise one expiry between
  the bounds (`DebugCall.Safe`);
* **well timed** — what is left to ask of a request that gets as far as the sums
  (`DebugCall.WellTimed`).
-/

namespace RunAnywhere

open Logic Chrono

/-! ## Calls -/

/-- A request for a debug session, with the store it meets. -/
structure DebugCall where
  services : ApiServices
  auth : AuthContext
  job : JobId
  mode : DebugSessionMode
  draw : Api.DebugDraw
  store : ApiStore

namespace DebugCall

def run (c : DebugCall) : Except Halt Api.DebugSessionToken × ApiStore :=
  Api.createDebugSession c.services c.auth c.job c.mode c.draw c.store

/-- `MINIMUM_TOKEN_LIFETIME` from now. -/
def earliest (c : DebugCall) : Int := c.draw.now.nanos + Api.minimumTokenLifetime

def jobDeadline (row : JobRow) (startedAt : DateTime) : Int :=
  startedAt.nanos + row.timeoutSeconds.seconds * second

def tokenDeadline (c : DebugCall) : Int := c.draw.now.nanos + c.services.debugTokenTtl

/-- The expiry lies between its bounds, as plain sums. -/
structure Bounded (c : DebugCall) (expiresAt : DateTime) : Prop where
  earliest : c.earliest ≤ expiresAt.nanos
  job : ∃ row startedAt, c.store.db.job? c.job = some row ∧
    row.startedAt.bind Api.ofColumn = some startedAt ∧
    expiresAt.nanos ≤ jobDeadline row startedAt
  token : expiresAt.nanos ≤ c.tokenDeadline

/-- The session, its audit entry and the token carry the expiry. -/
structure Carries (c : DebugCall) (s' : ApiStore) (token : Api.DebugSessionToken) : Prop where
  fresh : c.store.session? token.sessionId = none
  session : ∃ row, s'.session? token.sessionId = some row ∧ row.jobId = c.job ∧
    row.expiresAt = Api.toColumn token.expiresAt
  audit : ∃ entry, s'.auditLog = c.store.auditLog ++ [entry] ∧
    entry.action = "debug_session.created" ∧ entry.subject = token.sessionId.val ∧
    entry.payload.lookup "expires_at" = some (.json (c.services.instantText token.expiresAt))
  signed : ∃ claims, c.services.encode claims = .ok token.token ∧
    claims.exp = Api.timestamp token.expiresAt

/-- No panic; an error only with the sessions as they were; a session only between the bounds. -/
def Safe (c : DebugCall) : Prop :=
  match c.run with
  | (.error .panic, _) => False
  | (.error (.error _), s') => ∀ id, s'.session? id = c.store.session? id
  | (.ok token, s') => c.Bounded token.expiresAt ∧ c.Carries s' token

/-! ## The condition -/

/-- The request gets as far as the sums. -/
structure Reaches (c : DebugCall) (row : JobRow) (ttl : TimeDelta) (startedAt : DateTime) :
    Prop where
  scope : .debugCreate ∈ c.auth.scopes
  job : c.store.db.job? c.job = some row
  owned : c.auth.projectId = some row.projectId
  state : row.state = .debugAvailable
  ttl : TimeDelta.fromStd c.services.debugTokenTtl = some ttl
  started : row.startedAt.bind Api.ofColumn = some startedAt
  fits : row.timeoutSeconds.seconds < 2 ^ 63

/-- What the handler asks of the repository with expiry `e`. -/
def request (c : DebugCall) (row : JobRow) (e : DateTime) : DebugSessionRequest :=
  Api.sessionRequest c.services c.auth c.job c.mode row.projectId c.draw e

/-- The claims signed for expiry `e`. -/
def claims (c : DebugCall) (e : DateTime) : DebugTokenClaims :=
  ⟨c.job.val ++ ":" ++ c.draw.sessionId.val, c.draw.jti.val, c.mode, Api.timestamp e⟩

/-- Nothing fails once the session is stored. -/
structure Finishes (c : DebugCall) (e : DateTime) : Prop where
  unexpired : c.draw.minted.nanos < e.nanos
  signs : ∃ text, c.services.encode (c.claims e) = .ok text
  url : validUri c.services.debugGatewayBaseUrl = true

/-- The timeout is a duration; where both deadlines are dates, so is the earliest expiry; and a
session that is stored is answered. -/
structure WellTimed (c : DebugCall) (row : JobRow) (startedAt : DateTime) : Prop where
  timeout : row.timeoutSeconds.seconds ≤ maxDeltaSeconds
  earliest : jobDeadline row startedAt ≤ maxUtc → c.tokenDeadline ≤ maxUtc → c.earliest ≤ maxUtc
  finishes : ∀ e : DateTime, e.nanos = min (jobDeadline row startedAt) c.tokenDeadline →
    jobDeadline row startedAt ≤ maxUtc → c.tokenDeadline ≤ maxUtc → c.earliest ≤ e.nanos →
    (c.request row e).Admitted c.store.toDebugDb c.draw.clocks → c.Finishes e

end DebugCall

/-! ## Once the session is stored -/

/-- A suffix without a colon, whitespace and control characters changes nothing. -/
theorem validUri_append {value suffix : String}
    (h : ∀ c ∈ suffix.toList, c ≠ ':' ∧ isAsciiWhitespace c = false ∧ isAsciiControl c = false) :
    validUri (value ++ suffix) = validUri value := by
  have hcolon : suffix.toList.contains ':' = false := by
    apply Bool.eq_false_iff.mpr
    intro hmem
    exact (h ':' (List.contains_iff_mem.mp hmem)).1 rfl
  have hspace : (suffix.toList.any fun c => isAsciiWhitespace c || isAsciiControl c) = false := by
    apply List.any_eq_false.mpr
    intro c hc
    obtain ⟨_, hwhite, hcontrol⟩ := h c hc
    rw [hwhite, hcontrol]
    exact Bool.false_ne_true
  unfold validUri
  simp only [String.toList_append, List.any_append, hspace, Bool.or_false]
  by_cases hmem : ':' ∈ value.toList
  · -- the scheme ends inside `value`
    have hshort : (value.toList.takeWhile (· != ':')).length ≠ value.toList.length := by
      intro hlen
      have hall := List.takeWhile_eq_self_iff.mp
        ((List.takeWhile_prefix _).eq_of_length hlen) ':' hmem
      exact absurd hall (by decide)
    have hhead : (value.toList ++ suffix.toList).contains ':' = value.toList.contains ':' := by
      rw [List.contains_iff_mem.mpr hmem]
      exact List.contains_iff_mem.mpr (List.mem_append_left _ hmem)
    rw [List.takeWhile_append, if_neg hshort, hhead]
  · have hno : (value.toList ++ suffix.toList).contains ':' = false := by
      apply Bool.eq_false_iff.mpr
      intro hboth
      rcases List.mem_append.mp (List.contains_iff_mem.mp hboth) with hleft | hright
      · exact hmem hleft
      · exact (h ':' hright).1 rfl
    have hno' : value.toList.contains ':' = false :=
      Bool.eq_false_iff.mpr fun hc => hmem (List.contains_iff_mem.mp hc)
    rw [hno, hno']
    rfl

/-- A committed create: the session it returns, and the entry with the payload asked for. -/
theorem createDebugSessionWithAudit_created {request : DebugSessionRequest} {c : DebugClocks}
    {s s' : DebugDb} {out : CreatedDebugSession}
    (h : (createDebugSessionWithAudit request c).Commits s out s') :
    out.session.id = request.id ∧ out.audit.action = "debug_session.created" ∧
      out.audit.subject = request.id.val ∧ out.audit.payload = request.auditPayload ∧
      s'.auditLog = s.auditLog ++ [out.audit] := by
  simp only [createDebugSessionWithAudit, validateDebugSession, lockDebugSessionJob,
    Tx.bind_commits, Tx.require_commits, Tx.read_commits, Tx.okOr_commits, Tx.pure_commits] at h
  obtain ⟨_, _, ⟨_, rfl⟩, state, _, ⟨_, _, ⟨rfl, rfl⟩, _, rfl⟩, _, _, ⟨_, rfl⟩, _, s₁, hexpire,
    session, s₂, hinsert, entry, s₃, haudit, rfl, rfl⟩ := h
  obtain ⟨_, hlog, _⟩ := endExpiredDebugSession_commits hexpire
  obtain ⟨hid, _, _, _, rfl⟩ := insertDebugSession_commits hinsert
  obtain ⟨haction, hsubject, hpayload, rfl⟩ := insertAudit_commits haudit
  refine ⟨hid, haction, hsubject.trans (congrArg _ hid), hpayload, ?_⟩
  show s₁.auditLog ++ [entry] = _
  rw [hlog]

/-- A drawn `jti` is always valid, so minting fails by the expiry or by the signature. -/
theorem mint_eq_ok_iff {services : ApiServices} {j : JobId} {id : DebugSessionId}
    {jti : Ident "jti_"} {mode : DebugSessionMode} {expiresAt now : DateTime} {text : String} :
    Api.mint services j id jti.val mode expiresAt now = .ok text ↔
      now.nanos < expiresAt.nanos ∧
        services.encode ⟨j.val ++ ":" ++ id.val, jti.val, mode, Api.timestamp expiresAt⟩ =
          .ok text := by
  have hjti : (isBlank jti.val || jti.val.toList.any isAsciiControl) = false := by
    obtain ⟨suffix, htext, hchars⟩ := jti.toList_eq
    unfold isBlank
    rw [htext]
    have hcontrol : suffix.any isAsciiControl = false :=
      List.any_eq_false.mpr fun c hc => isAsciiControl_of_identifier (hchars c hc)
    rw [List.any_append, hcontrol]
    rfl
  unfold Api.mint
  rw [if_neg (Bool.eq_false_iff.mp hjti)]
  by_cases hexpired : expiresAt.nanos ≤ now.nanos
  · rw [if_pos hexpired]
    constructor
    · intro h
      cases h
    · intro h
      omega
  · rw [if_neg hexpired, Tx.mapError_eq_ok]
    constructor
    · intro h
      exact ⟨by omega, h⟩
    · intro h
      exact h.2

/-- The URL of a session is one where the configured base is. -/
theorem sessionUrl_valid (base : String) (id : DebugSessionId) :
    validUri (base ++ "/sessions/" ++ id.val) = validUri base := by
  rw [String.append_assoc]
  apply validUri_append
  intro c hc
  obtain ⟨suffix, htext, hchars⟩ := id.toList_eq
  rw [String.toList_append, htext] at hc
  have hfixed : ∀ text : List Char, (text.all fun c => decide (c ≠ ':') &&
      !isAsciiWhitespace c && !isAsciiControl c) = true → ∀ c ∈ text,
        c ≠ ':' ∧ isAsciiWhitespace c = false ∧ isAsciiControl c = false := by
    intro text hall c hc
    have hone := List.all_eq_true.mp hall c hc
    simp only [Bool.and_eq_true, decide_eq_true_eq, Bool.not_eq_true', and_assoc] at hone
    exact hone
  rcases List.mem_append.mp hc with hsegment | hid
  · exact hfixed "/sessions/".toList (by decide) c hsegment
  · rcases List.mem_append.mp hid with hpre | hsuffix
    · exact hfixed "dbg_".toList (by decide) c hpre
    · have hchar := hchars c hsuffix
      have hother : ∀ d, isIdentifierChar d = false → c ≠ d := fun d => isIdentifierChar_ne hchar
      refine ⟨hother ':' (by decide), ?_,
        Bool.eq_false_iff.mpr (isAsciiControl_of_identifier hchar)⟩
      unfold isAsciiWhitespace
      simp only [Bool.or_eq_false_iff, beq_eq_false_iff_ne]
      exact ⟨⟨⟨⟨hother _ (by decide), hother _ (by decide)⟩, hother _ (by decide)⟩,
        hother _ (by decide)⟩, hother _ (by decide)⟩

namespace DebugCall

variable {c : DebugCall} {row : JobRow} {e : DateTime}

/-- `create_debug_session`, from the create on. -/
abbrev opened (c : DebugCall) (row : JobRow) (e : DateTime) :
    Except Halt Api.DebugSessionToken × ApiStore :=
  Api.openSession c.services c.auth c.job c.mode row.projectId c.draw e c.store

/-- A create that is not admitted stores nothing. -/
theorem opened_refused (h : ¬ (c.request row e).Admitted c.store.toDebugDb c.draw.clocks) :
    ∃ error, c.opened row e = (.error (.error error), c.store) := by
  cases hcreate : createDebugSessionWithAudit (c.request row e) c.draw.clocks
      c.store.toDebugDb with
  | ok out => exact absurd (createDebugSessionWithAudit_commits hcreate).1 h
  | error error => exact ⟨.ofRepository error, Script.bind_error (Script.ofTx_error hcreate)⟩

/-- What is answered once the session is stored. -/
theorem opened_of_commits {out : CreatedDebugSession} {d : DebugDb}
    (h : (createDebugSessionWithAudit (c.request row e) c.draw.clocks).Commits c.store.toDebugDb
      out d) :
    c.opened row e =
      match Api.mint c.services c.job c.draw.sessionId c.draw.jti.val c.mode e c.draw.minted,
        Uri.new (c.services.debugGatewayBaseUrl ++ "/sessions/" ++ c.draw.sessionId.val) with
      | .ok token, .ok url => (.ok ⟨c.draw.sessionId, c.job, c.mode, token, url, e⟩,
          { c.store with toDebugDb := d })
      | _, _ => (.error (.error .internal), { c.store with toDebugDb := d }) := by
  have hsession : out.session.id = c.draw.sessionId := (createDebugSessionWithAudit_created h).1
  have hcreate : Api.onSessions (createDebugSessionWithAudit (Api.sessionRequest c.services c.auth
      c.job c.mode row.projectId c.draw e) c.draw.clocks) c.store =
        (.ok out, { c.store with toDebugDb := d }) := Script.ofTx_ok h
  unfold opened Api.openSession
  rw [Script.bind_ok hcreate, hsession]
  cases Api.mint c.services c.job c.draw.sessionId c.draw.jti.val c.mode e c.draw.minted with
  | error _ => rfl
  | ok token =>
      cases Uri.new (c.services.debugGatewayBaseUrl ++ "/sessions/" ++ c.draw.sessionId.val) with
      | error _ => rfl
      | ok url => rfl

/-- The stored session, its entry and the token. -/
theorem carries_of_commits {out : CreatedDebugSession} {d : DebugDb} {text : String} {url : Uri}
    (h : (createDebugSessionWithAudit (c.request row e) c.draw.clocks).Commits c.store.toDebugDb
      out d) (hsigned : c.services.encode (c.claims e) = .ok text) :
    c.Carries { c.store with toDebugDb := d }
      ⟨c.draw.sessionId, c.job, c.mode, text, url, e⟩ := by
  obtain ⟨_, haction, hsubject, hpayload, hlog⟩ := createDebugSessionWithAudit_created h
  obtain ⟨hadmitted, hstored⟩ := createDebugSessionWithAudit_commits h
  constructor
  · exact hadmitted.fresh
  · refine ⟨(c.request row e).row c.draw.clocks, ?_, rfl, rfl⟩
    show d.session? c.draw.sessionId = _
    rw [hstored.session]
    exact if_pos rfl
  · refine ⟨out.audit, hlog, haction, hsubject, ?_⟩
    rw [hpayload]
    rfl
  · exact ⟨c.claims e, hsigned, rfl⟩

/-- **Stored and answered.** -/
theorem opened_finishes (h : (c.request row e).Admitted c.store.toDebugDb c.draw.clocks)
    (hfin : c.Finishes e) :
    ∃ token s', c.opened row e = (.ok token, s') ∧ token.expiresAt = e ∧ c.Carries s' token := by
  obtain ⟨out, d, hcreate⟩ := h.commits
  obtain ⟨text, hsigned⟩ := hfin.signs
  have hmint : Api.mint c.services c.job c.draw.sessionId c.draw.jti.val c.mode e c.draw.minted =
      .ok text := mint_eq_ok_iff.mpr ⟨hfin.unexpired, hsigned⟩
  have hurl : validUri (c.services.debugGatewayBaseUrl ++ "/sessions/" ++ c.draw.sessionId.val) =
      true := by
    rw [sessionUrl_valid]
    exact hfin.url
  have hnew : Uri.new (c.services.debugGatewayBaseUrl ++ "/sessions/" ++ c.draw.sessionId.val) =
      .ok ⟨_, hurl⟩ := dif_pos hurl
  refine ⟨⟨c.draw.sessionId, c.job, c.mode, text, ⟨_, hurl⟩, e⟩,
    { c.store with toDebugDb := d }, ?_, rfl, carries_of_commits hcreate hsigned⟩
  rw [opened_of_commits hcreate, hmint, hnew]

/-- **Stored and then refused.** What stands between the create and the answer can fail. -/
theorem opened_unfinished (h : (c.request row e).Admitted c.store.toDebugDb c.draw.clocks)
    (hfin : ¬ c.Finishes e) :
    ∃ error s', c.opened row e = (.error (.error error), s') ∧
      s'.session? c.draw.sessionId ≠ c.store.session? c.draw.sessionId := by
  obtain ⟨out, d, hcreate⟩ := h.commits
  have hstored := (createDebugSessionWithAudit_commits hcreate).2
  refine ⟨.internal, { c.store with toDebugDb := d }, ?_, ?_⟩
  · rw [opened_of_commits hcreate]
    split
    · next text url hmint hnew =>
        exfalso
        obtain ⟨hunexpired, hsigned⟩ := mint_eq_ok_iff.mp hmint
        refine hfin ⟨hunexpired, ⟨text, hsigned⟩, ?_⟩
        rw [← sessionUrl_valid _ c.draw.sessionId]
        unfold Uri.new at hnew
        split at hnew
        · next hurl => exact hurl
        · cases hnew
    · rfl
  · intro hsame
    have hnone : c.store.session? c.draw.sessionId = none := h.fresh
    have hsome := hstored.session c.draw.sessionId
    rw [show c.draw.sessionId = (c.request row e).id from rfl, if_pos rfl] at hsome
    have hlost := hsome.symm.trans (hsame.trans hnone)
    cases hlost

/-! ## The sums -/

/-- `create_debug_session`, from the sums on. -/
abbrev granted (c : DebugCall) (row : JobRow) (ttl : TimeDelta) (startedAt : DateTime) :
    Except Halt Api.DebugSessionToken × ApiStore :=
  Api.grantSession c.services c.auth c.job c.mode row.projectId row.timeoutSeconds.seconds ttl
    startedAt c.draw c.store

variable {ttl : TimeDelta} {startedAt : DateTime}

/-- A timeout out of range panics. -/
theorem granted_panics (h : maxDeltaSeconds < row.timeoutSeconds.seconds) :
    c.granted row ttl startedAt = (.error .panic, c.store) := by
  have hnone : TimeDelta.trySeconds row.timeoutSeconds.seconds = none := by
    apply Option.not_isSome_iff_eq_none.mp
    rw [TimeDelta.isSome_trySeconds_iff]
    exact Nat.not_le.mpr h
  rw [granted, Api.grantSession, hnone, Script.okOr_none_bind]

theorem earliest_low : minUtc ≤ c.earliest := by
  have hlow := c.draw.now.bounded.1
  unfold earliest Api.minimumTokenLifetime second
  omega

/-- A sum of an instant and a duration that is not negative. -/
theorem checkedAdd_cases (t : DateTime) (d : TimeDelta) (hd : 0 ≤ d.nanos) :
    (t.checkedAdd d = none ∧ maxUtc < t.nanos + d.nanos) ∨
      ∃ t', t.checkedAdd d = some t' ∧ t'.nanos = t.nanos + d.nanos ∧ t'.nanos ≤ maxUtc := by
  unfold DateTime.checkedAdd
  cases hsum : DateTime.ofNanos (t.nanos + d.nanos) with
  | some t' =>
      exact .inr ⟨t', rfl, DateTime.ofNanos_eq_some_iff.mp hsum, t'.bounded.2⟩
  | none =>
      have hout : ¬ (minUtc ≤ t.nanos + d.nanos ∧ t.nanos + d.nanos ≤ maxUtc) := by
        rw [← DateTime.isSome_ofNanos_iff, hsum]
        exact Bool.false_ne_true
      have hlow := t.bounded.1
      exact .inl ⟨rfl, by omega⟩

/-- What the sums of a timeout in range lead to. -/
theorem granted_cases (httl : ttl.nanos = c.services.debugTokenTtl)
    (h : row.timeoutSeconds.seconds ≤ maxDeltaSeconds) :
    (c.granted row ttl startedAt = (.error (.error .internal), c.store) ∧
      ¬ (jobDeadline row startedAt ≤ maxUtc ∧ c.tokenDeadline ≤ maxUtc)) ∨
    (jobDeadline row startedAt ≤ maxUtc ∧ c.tokenDeadline ≤ maxUtc ∧ ∃ e : DateTime,
      e.nanos = min (jobDeadline row startedAt) c.tokenDeadline ∧
      c.granted row ttl startedAt =
        if maxUtc < c.earliest then (.error .panic, c.store)
        else if e.nanos < c.earliest then (.error (.error (.conflict
          "the remaining job lifetime is too short for a debug session")), c.store)
        else c.opened row e) := by
  obtain ⟨d, hd⟩ := Option.isSome_iff_exists.mp ((TimeDelta.isSome_trySeconds_iff _).mpr h)
  have hnanos : d.nanos = row.timeoutSeconds.seconds * second :=
    TimeDelta.ofNanos_eq_some_iff.mp hd
  have hpos : 0 ≤ d.nanos := by
    rw [hnanos]
    unfold second
    omega
  rw [granted, Api.grantSession, hd, Script.okOr_some_bind]
  rcases checkedAdd_cases startedAt d hpos with ⟨hjob, hover⟩ | ⟨jd, hjob, hjd, hjdmax⟩
  · refine .inl ⟨?_, ?_⟩
    · rw [hjob, Api.orElse_none_bind]
    · unfold jobDeadline
      rw [hnanos] at hover
      omega
  · rw [hjob, Api.orElse_some_bind]
    rcases checkedAdd_cases c.draw.now ttl (by omega) with ⟨htok, hover⟩ | ⟨td, htok, htd, htdmax⟩
    · refine .inl ⟨?_, ?_⟩
      · rw [htok, Api.orElse_none_bind]
      · unfold tokenDeadline
        rw [httl] at hover
        omega
    · rw [htok, Api.orElse_some_bind]
      have hjd' : jd.nanos = jobDeadline row startedAt := by rw [hjd, hnanos]; rfl
      have htd' : td.nanos = c.tokenDeadline := by rw [htd, httl]; rfl
      refine .inr ⟨by omega, by omega,
        if jd.nanos ≤ td.nanos then jd else td, ?_, ?_⟩
      · split
        · omega
        · omega
      · generalize (if jd.nanos ≤ td.nanos then jd else td) = e
        cases hearliest : DateTime.ofNanos (c.draw.now.nanos + Api.minimumTokenLifetime) with
        | none =>
            have hout : ¬ (minUtc ≤ c.earliest ∧ c.earliest ≤ maxUtc) := by
              rw [← DateTime.isSome_ofNanos_iff, earliest, hearliest]
              exact Bool.false_ne_true
            have hlow : minUtc ≤ c.earliest := earliest_low
            rw [if_pos (by omega), Script.okOr_none_bind]
        | some early =>
            have hearly : early.nanos = c.earliest := DateTime.ofNanos_eq_some_iff.mp hearliest
            have hhigh : ¬ maxUtc < c.earliest := by
              rw [← hearly]
              exact Int.not_lt.mpr early.bounded.2
            rw [if_neg hhigh, Script.okOr_some_bind, hearly]
            by_cases hshort : e.nanos < c.earliest
            · rw [if_pos hshort, if_pos hshort]
              rfl
            · rw [if_neg hshort, if_neg hshort]
              rfl

/-- **Up to the sums.** A request ends with an error before anything is stored, or it reaches the
sums. -/
theorem run_cases (c : DebugCall) :
    ((∃ error, c.run = (.error (.error error), c.store)) ∧
      ∀ row ttl startedAt, ¬ c.Reaches row ttl startedAt) ∨
    ∃ row ttl startedAt, c.Reaches row ttl startedAt ∧ c.run = c.granted row ttl startedAt := by
  unfold run
  rw [Api.createDebugSession]
  by_cases hscope : .debugCreate ∈ c.auth.scopes
  · rw [requireScope, Api.guard_pos hscope]
    by_cases hhidden : c.store.HidesJob c.auth c.job
    · exact .inl ⟨⟨_, Script.bind_error (Api.ownedJob_hidden hhidden)⟩,
        fun row _ _ h => hhidden row h.job h.owned⟩
    · unfold ApiStore.HidesJob at hhidden
      simp only [not_forall, not_not] at hhidden
      obtain ⟨row, hjob, howned⟩ := hhidden
      -- any row that reaches the sums is this one
      have hrow : ∀ row', c.store.db.job? c.job = some row' → row' = row := by
        intro row' hjob'
        rw [hjob] at hjob'
        exact (Option.some.inj hjob').symm
      rw [Script.bind_ok (Api.ownedJob_owned hjob howned)]
      by_cases hstate : (row.intoJob c.job).state = .debugAvailable
      · rw [Api.guard_pos hstate]
        cases httl : TimeDelta.fromStd c.services.debugTokenTtl with
        | none =>
            refine .inl ⟨⟨_, Api.orElse_none_bind⟩, fun _ _ _ h => ?_⟩
            exact nomatch httl.symm.trans h.ttl
        | some ttl =>
            rw [Api.orElse_some_bind]
            cases hstarted : (row.intoJob c.job).startedAt.bind Api.ofColumn with
            | none =>
                refine .inl ⟨⟨_, Api.orElse_none_bind⟩, fun _ _ _ h => ?_⟩
                have hsome := h.started
                rw [hrow _ h.job] at hsome
                exact nomatch hstarted.symm.trans hsome
            | some startedAt =>
                rw [Api.orElse_some_bind]
                by_cases hfits : (row.intoJob c.job).timeoutSeconds.seconds < 2 ^ 63
                · refine .inr ⟨row, ttl, startedAt,
                    ⟨hscope, hjob, howned, hstate, httl, hstarted, hfits⟩, ?_⟩
                  exact Api.guard_pos hfits
                · refine .inl ⟨⟨_, Api.guard_neg hfits⟩, fun _ _ _ h => ?_⟩
                  have hlt := h.fits
                  rw [hrow _ h.job] at hlt
                  exact hfits hlt
      · refine .inl ⟨⟨_, Api.guard_neg hstate⟩, fun _ _ _ h => ?_⟩
        have heq := h.state
        rw [hrow _ h.job] at heq
        exact hstate heq
  · exact .inl ⟨⟨_, Api.guard_neg hscope⟩, fun _ _ _ h => hscope h.scope⟩

/-- What a request reaches the sums with is fixed by the store and the configuration. -/
theorem Reaches.run_eq (h : c.Reaches row ttl startedAt) : c.run = c.granted row ttl startedAt := by
  rcases c.run_cases with ⟨_, hno⟩ | ⟨row', ttl', startedAt', h', hrun⟩
  · exact absurd h (hno row ttl startedAt)
  · obtain rfl : row' = row := Option.some.inj (h'.job.symm.trans h.job)
    obtain rfl : ttl' = ttl := Option.some.inj (h'.ttl.symm.trans h.ttl)
    obtain rfl : startedAt' = startedAt := Option.some.inj (h'.started.symm.trans h.started)
    exact hrun

theorem safe_of_error {error : ApiError} (h : c.run = (.error (.error error), c.store)) :
    c.Safe := by
  unfold Safe
  rw [h]
  intro id
  rfl

theorem not_safe_of_panic (h : c.run.1 = .error .panic) : ¬ c.Safe := by
  unfold Safe
  generalize c.run = answered at h
  obtain ⟨answer, s'⟩ := answered
  obtain rfl : answer = .error .panic := h
  exact not_false

end DebugCall

/-! ## The headline -/

/-- **Safe deadlines.** A request is answered safely exactly if it is well timed, in case it gets as
far as the sums. -/
theorem debug_deadlines_safe_iff (c : DebugCall) :
    c.Safe ↔ ∀ row ttl startedAt, c.Reaches row ttl startedAt → c.WellTimed row startedAt := by
  constructor
  · intro hsafe row ttl startedAt h
    have hrun := h.run_eq
    have httl : ttl.nanos = c.services.debugTokenTtl := TimeDelta.ofNanos_eq_some_iff.mp h.ttl
    have htimeout : row.timeoutSeconds.seconds ≤ maxDeltaSeconds := by
      by_contra hlong
      have hpanic : c.granted row ttl startedAt = (.error .panic, c.store) :=
        DebugCall.granted_panics (Nat.not_le.mp hlong)
      exact DebugCall.not_safe_of_panic (congrArg Prod.fst (hrun.trans hpanic)) hsafe
    refine ⟨htimeout, fun hjob htoken => ?_, fun e he hjob htoken hearliest hadmitted => ?_⟩
    · by_contra hlate
      rcases DebugCall.granted_cases httl htimeout with ⟨_, hover⟩ | ⟨_, _, e, _, hgranted⟩
      · exact hover ⟨hjob, htoken⟩
      · rw [if_pos (Int.not_le.mp hlate)] at hgranted
        exact DebugCall.not_safe_of_panic (congrArg Prod.fst (hrun.trans hgranted)) hsafe
    · by_contra hfin
      rcases DebugCall.granted_cases httl htimeout with ⟨_, hover⟩ | ⟨_, _, e', he', hgranted⟩
      · exact hover ⟨hjob, htoken⟩
      · -- the expiry is the earlier deadline, in range and late enough
        obtain rfl : e' = e := by
          obtain ⟨n, _⟩ := e
          obtain ⟨n', _⟩ := e'
          simp only at he he'
          subst he he'
          rfl
        have hrange := e'.bounded.2
        rw [if_neg (by omega), if_neg (by omega)] at hgranted
        obtain ⟨error, s', hopened, hlost⟩ := DebugCall.opened_unfinished hadmitted hfin
        unfold DebugCall.Safe at hsafe
        rw [hrun, hgranted, hopened] at hsafe
        exact hlost (hsafe _)
  · intro hwell
    rcases c.run_cases with ⟨⟨error, hrun⟩, _⟩ | ⟨row, ttl, startedAt, h, hrun⟩
    · exact DebugCall.safe_of_error hrun
    · have httl : ttl.nanos = c.services.debugTokenTtl := TimeDelta.ofNanos_eq_some_iff.mp h.ttl
      have htimed := hwell row ttl startedAt h
      rcases DebugCall.granted_cases httl htimed.timeout with
        ⟨hgranted, _⟩ | ⟨hjob, htoken, e, he, hgranted⟩
      · exact DebugCall.safe_of_error (hrun.trans hgranted)
      · rw [if_neg (Int.not_lt.mpr (htimed.earliest hjob htoken))] at hgranted
        by_cases hshort : e.nanos < c.earliest
        · rw [if_pos hshort] at hgranted
          exact DebugCall.safe_of_error (hrun.trans hgranted)
        · rw [if_neg hshort] at hgranted
          by_cases hadmitted : (c.request row e).Admitted c.store.toDebugDb c.draw.clocks
          · have hfin := htimed.finishes e he hjob htoken (Int.not_lt.mp hshort) hadmitted
            obtain ⟨token, s', hopened, rfl, hcarries⟩ := DebugCall.opened_finishes hadmitted hfin
            unfold DebugCall.Safe
            rw [hrun, hgranted, hopened]
            refine ⟨⟨Int.not_lt.mp hshort, ⟨row, startedAt, h.job, h.started, ?_⟩, ?_⟩, hcarries⟩
            · omega
            · omega
          · obtain ⟨error, hopened⟩ := DebugCall.opened_refused hadmitted
            exact DebugCall.safe_of_error (hrun.trans (hgranted.trans hopened))

namespace Sample

/-- The steps of a job to its debug phase, created with a timeout of its own. -/
def debuggingFor (timeout : DurationSeconds) : List (Op × DbTime) :=
  [(register, at_ 1), (.createJobWithOutbox job (event 0)
    { request with timeoutSeconds := timeout } "key" [], at_ 2)] ++ debugging.drop 2

/-- The owner of the sample job. -/
def owner : AuthContext := ⟨"user", none, some project, [.debugCreate]⟩

/-- A request at second 20. -/
def openDebug (timeout : DurationSeconds) : DebugCall where
  services := services
  auth := owner
  job := job
  mode := .viewer
  draw := ⟨⟨20000000000, by decide⟩, session, ⟨"jti_a", by decide⟩, clocks 20,
    ⟨20000000000, by decide⟩⟩
  store := store (after (debuggingFor timeout))

/-- A timeout one second above the range. -/
def longDebug : DebugCall := openDebug ⟨9223372036854776, by decide, by decide⟩

end Sample

/-- **A timeout that creation accepts.** One second above `chrono`'s range, and the request
panics. -/
theorem long_timeout_panics :
    ∃ c : DebugCall, (repository fun _ => True).Reachable c.store.db ∧
      (∃ row, c.store.db.job? c.job = some row ∧ row.state = .debugAvailable ∧
        row.timeoutSeconds.seconds = 9223372036854776) ∧ c.run.1 = .error .panic ∧ ¬ c.Safe := by
  have hrow : (Sample.longDebug.store.db.job? Sample.longDebug.job).any
      (fun row => decide (row.state = .debugAvailable ∧
        row.timeoutSeconds.seconds = 9223372036854776)) = true := by decide +kernel
  have hpanic : Sample.longDebug.run.1 = .error .panic := by decide +kernel
  obtain ⟨row, hjob, hfound⟩ := (Option.any_eq_true _ _).mp hrow
  refine ⟨Sample.longDebug, ?_, ⟨row, hjob, of_decide_eq_true hfound⟩, hpanic,
    DebugCall.not_safe_of_panic hpanic⟩
  unfold Sample.longDebug Sample.openDebug Sample.store
  simp only
  apply Sample.after_reachable
  intro _ _
  trivial

end RunAnywhere
