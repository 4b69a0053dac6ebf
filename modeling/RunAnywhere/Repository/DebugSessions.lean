import RunAnywhere.Repository.Outbox

/-!
# Debug sessions and their audit

The debug-session operations of `repository/src/misc.rs` over `debug_sessions` and
`audit_log` of `0005_debug_audit_webhooks.up.sql`, with the index of `0007` that allows one
unended session a job. A session ends when it is found expired, by `create` or by the
reconciler, or when the reconciler finds its job ended.
-/

namespace RunAnywhere

open Logic

abbrev DebugSessionId := Ident "dbg_"

inductive DebugSessionMode
  | viewer | controller
  deriving DecidableEq

inductive DebugSessionEndReason
  | expired | jobEnded
  deriving DecidableEq

/-! ## Rows -/

/-- `debug_sessions`, without its key. -/
structure DebugSessionRow where
  jobId : JobId
  jti : String
  createdBy : String
  mode : DebugSessionMode
  createdAt : Time
  expiresAt : Time
  endedAt : Option Time
  deriving DecidableEq

/-- The CHECK constraints of `debug_sessions`. -/
structure DebugSessionRow.Checks (r : DebugSessionRow) : Prop where
  jti : btrimEmpty r.jti = false
  createdBy : btrimEmpty r.createdBy = false
  expiryOrder : r.createdAt < r.expiresAt
  endedOrder : ∀ at_ ∈ r.endedAt, r.createdAt ≤ at_

instance (r : DebugSessionRow) : Decidable r.Checks :=
  decidable_of_iff (btrimEmpty r.jti = false ∧ btrimEmpty r.createdBy = false ∧
      r.createdAt < r.expiresAt ∧ ∀ at_ ∈ r.endedAt, r.createdAt ≤ at_)
    ⟨fun ⟨a, b, c, d⟩ => ⟨a, b, c, d⟩, fun h => ⟨h.jti, h.createdBy, h.expiryOrder, h.endedOrder⟩⟩

/-- A value of an audit payload: any JSON of the caller's, or what the reconciler writes. -/
inductive AuditValue
  | json (text : String)
  | jobId (j : JobId)
  | reason (reason : DebugSessionEndReason)
  deriving DecidableEq

/-- `audit_log`. -/
structure AuditRow where
  id : Nat
  actor : String
  action : String
  subject : String
  timestamp : Time
  payload : List (String × AuditValue)
  deriving DecidableEq

/-- The database with its debug sessions. -/
structure DebugDb where
  db : Db
  sessions : Table.Checked DebugSessionId DebugSessionRow.Checks
  auditLog : List AuditRow
  nextAuditId : Nat

/-- The session with identifier `id`. -/
def DebugDb.session? (s : DebugDb) (id : DebugSessionId) : Option DebugSessionRow :=
  s.sessions.row? id

/-- The audit entries of `action` about session `id`. -/
def DebugDb.auditsOf (s : DebugDb) (action : String) (id : DebugSessionId) : List AuditRow :=
  s.auditLog.filter fun a => a.action = action && a.subject = id.val

/-- At most one unended session a job. -/
def DebugDb.OneUnended (s : DebugDb) : Prop :=
  ∀ id id' row row', s.session? id = some row → s.session? id' = some row' →
    row.jobId = row'.jobId → row.endedAt = none → row'.endedAt = none → id = id'

abbrev DebugTx := Tx RepositoryError DebugDb

structure StoredDebugSession where
  id : DebugSessionId
  row : DebugSessionRow
  deriving DecidableEq

structure CreatedDebugSession where
  session : StoredDebugSession
  audit : AuditRow
  deriving DecidableEq

structure EndedDebugSession where
  session : StoredDebugSession
  audit : AuditRow
  reason : DebugSessionEndReason
  deriving DecidableEq

/-! ## Statements -/

/-- `UPDATE debug_sessions SET … WHERE id = $1 AND guard RETURNING …`. -/
def updateDebugSession (id : DebugSessionId) (guard : DebugSessionRow → Bool)
    (set : DebugSessionRow → DebugSessionRow) : DebugTx (Option DebugSessionRow) := fun s =>
  match s.session? id with
  | none => .ok (none, s)
  | some row =>
      if guard row then
        if h : (set row).Checks then
          .ok (some (set row), { s with sessions := s.sessions.put id ⟨set row, h⟩ })
        else .error (.sqlx (.checkViolation "debug_sessions"))
      else .ok (none, s)

/-- `INSERT INTO audit_log … RETURNING …`. -/
def insertAudit (actor action subject : String) (payload : List (String × AuditValue))
    (now : Time) : DebugTx AuditRow := fun s =>
  if btrimEmpty actor || btrimEmpty action || btrimEmpty subject then
    .error (.sqlx (.checkViolation "audit_log"))
  else
    let row : AuditRow :=
      { id := s.nextAuditId, actor := actor, action := action, subject := subject,
        timestamp := now, payload := payload }
    .ok (row, { s with auditLog := s.auditLog ++ [row], nextAuditId := s.nextAuditId + 1 })

/-! ## Creating a session -/

/-- `validate_debug_session`. -/
def validateDebugSession (jti createdBy : String) : DebugTx Unit :=
  .require (!isBlank jti && !isBlank createdBy)
    (.validation "debug session jti and creator must not be blank")

/-- `lock_debug_session_job`. -/
def lockDebugSessionJob (j : JobId) : DebugTx JobState := do
  let row ← .read fun s => s.db.job? j
  .okOr (row.map (·.state)) (.notFound "job" j.val)

/-- The clock readings of a create: `CURRENT_TIMESTAMP`, and `clock_timestamp()` where the
expiry is compared, where the old session is ended and where the new one is inserted. -/
structure DebugClocks where
  now : Time
  expiry : Time
  ended : Time
  insert : Time

/-- `job_id = $1 AND ended_at IS NULL AND expires_at <= clock_timestamp()`. -/
def DebugSessionRow.expiredOf (j : JobId) (clock : Time) (r : DebugSessionRow) : Bool :=
  decide (r.jobId = j) && r.endedAt.isNone && decide (r.expiresAt ≤ clock)

theorem DebugSessionRow.expiredOf_iff {j : JobId} {clock : Time} {r : DebugSessionRow} :
    r.expiredOf j clock = true ↔ r.jobId = j ∧ r.endedAt = none ∧ r.expiresAt ≤ clock := by
  unfold expiredOf
  rw [Bool.and_eq_true, Bool.and_eq_true, decide_eq_true_iff, decide_eq_true_iff,
    Option.isNone_iff_eq_none, and_assoc]

/-- `end_expired_debug_session`: the row is ended, and nothing else is written. -/
def endExpiredDebugSession (j : JobId) (c : DebugClocks) : DebugTx Unit := fun s =>
  let hit (r : DebugSessionRow) : Bool := r.expiredOf j c.expiry
  let set (r : DebugSessionRow) : DebugSessionRow := { r with endedAt := some c.ended }
  if s.sessions.rows.all fun p => !hit p.2.val || decide (set p.2.val).Checks then
    .ok ((), { s with
      sessions := s.sessions.mapRows fun _ r =>
        if h : hit r.val = true ∧ (set r.val).Checks then ⟨set r.val, h.2⟩ else r })
  else .error (.sqlx (.checkViolation "debug_sessions"))

/-- A unique index of `debug_sessions` that a new row of `j` with `jti` runs into. -/
def DebugDb.conflicts (s : DebugDb) (id : DebugSessionId) (j : JobId) (jti : String) : Bool :=
  (s.session? id).isSome || s.sessions.rows.any fun p =>
    decide (p.2.val.jti = jti) || (decide (p.2.val.jobId = j) && p.2.val.endedAt.isNone)

/-- `insert_debug_session`; `id` is the identifier it draws. -/
def insertDebugSession (j : JobId) (id : DebugSessionId) (jti createdBy : String)
    (mode : DebugSessionMode) (expiresAt : Time) (c : DebugClocks) :
    DebugTx StoredDebugSession := fun s =>
  let row : DebugSessionRow :=
    { jobId := j, jti := jti, createdBy := createdBy, mode := mode, createdAt := c.now,
      expiresAt := expiresAt, endedAt := none }
  if c.insert < expiresAt then
    if h : row.Checks then
      if s.conflicts id j jti then
        .error (.conflict "an active debug session already exists for the job or jti")
      else .ok (⟨id, row⟩, { s with sessions := s.sessions.put id ⟨row, h⟩ })
    else .error (.sqlx (.checkViolation "debug_sessions"))
  else .error (.validation "debug session expiry must be later than database time")

/-- What a caller of `create_debug_session_with_audit` passes, with the identifier drawn. -/
structure DebugSessionRequest where
  jobId : JobId
  id : DebugSessionId
  jti : String
  createdBy : String
  mode : DebugSessionMode
  expiresAt : Time
  auditPayload : List (String × AuditValue)

/-- `create_debug_session_with_audit`. -/
def createDebugSessionWithAudit (request : DebugSessionRequest) (c : DebugClocks) :
    DebugTx CreatedDebugSession := do
  validateDebugSession request.jti request.createdBy
  let state ← lockDebugSessionJob request.jobId
  .require (decide (state = .debugAvailable))
    (.conflict "debug sessions require a job in debug_available state")
  endExpiredDebugSession request.jobId c
  let session ← insertDebugSession request.jobId request.id request.jti request.createdBy
    request.mode request.expiresAt c
  let audit ← insertAudit request.createdBy "debug_session.created" session.id.val
    request.auditPayload c.now
  pure ⟨session, audit⟩

/-- `create_debug_session`: the same without the state check and the audit entry. -/
def createDebugSession (request : DebugSessionRequest) (c : DebugClocks) :
    DebugTx StoredDebugSession := do
  validateDebugSession request.jti request.createdBy
  let _ ← lockDebugSessionJob request.jobId
  endExpiredDebugSession request.jobId c
  insertDebugSession request.jobId request.id request.jti request.createdBy request.mode
    request.expiresAt c

/-! ## Ending sessions -/

/-- `end_debug_session`: a session that has ended keeps the time it ended at. -/
def endDebugSession (id : DebugSessionId) (now : Time) : DebugTx StoredDebugSession := do
  let row ← updateDebugSession id (fun _ => true)
    fun r => { r with endedAt := some (r.endedAt.getD now) }
  let row ← .okOr row (.notFound "debug session" id.val)
  pure ⟨id, row⟩

/-- `jobs.state IN ('passed', …)` for the job of a session. -/
def DebugDb.jobEnded (s : DebugDb) (j : JobId) : Bool :=
  (s.db.job? j).any (·.state.isTerminal)

/-- The candidates of a reconciler: `ORDER BY expires_at, id LIMIT n FOR UPDATE … SKIP
LOCKED`. `skip` are the rows another transaction has locked. -/
def DebugDb.endCandidates (s : DebugDb) (expiredBefore : Time) (limit : Nat)
    (skip : DebugSessionId → Bool) : List (DebugSessionId × DebugSessionEndReason) :=
  let ready := s.sessions.rows.filter fun p =>
    (s.db.job? p.2.val.jobId).isSome && p.2.val.endedAt.isNone &&
      (decide (p.2.val.expiresAt ≤ expiredBefore) || s.jobEnded p.2.val.jobId) && !skip p.1
  let ordered := ready.insertionSort fun p q =>
    p.2.val.expiresAt < q.2.val.expiresAt ∨
      (p.2.val.expiresAt = q.2.val.expiresAt ∧ ¬ q.1.val < p.1.val)
  (ordered.take limit).map fun p =>
    (p.1, if p.2.val.expiresAt ≤ expiredBefore then .expired else .jobEnded)

/-- End the candidates one by one, each with its audit entry. -/
def endDebugSessions (actor : String) (clock : DebugSessionId → Time) (now : Time) :
    List (DebugSessionId × DebugSessionEndReason) → DebugTx (List EndedDebugSession)
  | [] => pure []
  | (id, reason) :: rest => do
      let row ← updateDebugSession id (·.endedAt.isNone)
        fun r => { r with endedAt := some (max r.createdAt (clock id)) }
      let row ← .okOr row (.compareAndSwapLost "debug session" id.val)
      let audit ← insertAudit actor "debug_session.ended" id.val
        [("job_id", .jobId row.jobId), ("reason", .reason reason)] now
      let ended ← endDebugSessions actor clock now rest
      pure (⟨⟨id, row⟩, audit, reason⟩ :: ended)

/-- `end_expired_or_terminal_debug_sessions_with_audit`; `clock` are the readings of
`clock_timestamp()`, one for each session. -/
def endExpiredOrTerminalDebugSessionsWithAudit (expiredBefore : Time) (actor : String)
    (limit : Nat) (skip : DebugSessionId → Bool) (clock : DebugSessionId → Time) (now : Time) :
    DebugTx (List EndedDebugSession) := do
  .require (!isBlank actor) (.validation "debug-session reconciler actor must not be blank")
  .require (decide (0 < limit) && decide (limit ≤ 200))
    (.validation "limit must be between 1 and 200")
  let candidates ← .read fun s => s.endCandidates expiredBefore limit skip
  endDebugSessions actor clock now candidates

end RunAnywhere
