import RunAnywhere.Repository.DebugSessions
import RunAnywhere.Theorems.Parked

/-!
# Debug sessions are audited once

`debugSessions` interleaves the two operations on debug sessions, with any number of
reconcilers, and every change of a job. What a job may have and what a session was created
with hold in every run; what a session ended with does not:

* **one unended session** — the index keeps it, and a create ends only expired ones
  (`DebugDb.OneUnended`);
* **created** — the entry is written with the row (`DebugDb.CreatedAudited`);
* **ended** — the reconciler writes the entry with its reason. `create` ends an expired
  session of its job without one, and the reconciler looks at unended sessions only
  (`DebugDb.EndedAudited`, in runs whose creates find no expired session).
-/

namespace RunAnywhere

open Logic

/-- The operations of a run. -/
inductive DebugOp
  | job (call : Call)
  | create (request : DebugSessionRequest) (c : DebugClocks)
  | reconcile (expiredBefore : Time) (actor : String) (limit : Nat)
      (skip : DebugSessionId → Bool) (clock : DebugSessionId → Time) (now : Time)

/-- What an operation does. A reconciler does not look past the database's clock. -/
def DebugOp.Steps (s : DebugDb) : DebugOp → DebugDb → Prop
  | .job call, s' => ∃ db', (repository fun _ => True).step s.db call db' ∧
      s' = { s with db := db' }
  | .create request c, s' => s' = ((createDebugSessionWithAudit request c).exec s).2
  | .reconcile expiredBefore actor limit skip clock now, s' =>
      (∀ id, expiredBefore ≤ clock id) ∧
        s' = ((endExpiredOrTerminalDebugSessionsWithAudit expiredBefore actor limit skip clock
          now).exec s).2

/-- Runs whose operations meet `cond` in the state they find. -/
def debugSessions (cond : DebugDb → DebugOp → Prop) : TSys DebugDb DebugOp where
  init s := ∃ catalog, s = ⟨Db.empty catalog, Table.empty, [], 1⟩
  step s op s' := cond s op ∧ op.Steps s s'

/-! ## What the audit log should say -/

/-- One entry for the creation of each session. -/
def DebugDb.CreatedAudited (s : DebugDb) : Prop :=
  ∀ id row, s.session? id = some row → (s.auditsOf "debug_session.created" id).length = 1

/-- Why a session ended at `at_`. -/
def DebugSessionEndReason.Holds (s : DebugDb) (row : DebugSessionRow) (at_ : Time) :
    DebugSessionEndReason → Prop
  | .expired => row.expiresAt ≤ at_
  | .jobEnded => s.jobEnded row.jobId = true

/-- One entry for the end of each ended session, with the reason. -/
def DebugDb.EndedAudited (s : DebugDb) : Prop :=
  ∀ id row at_, s.session? id = some row → row.endedAt = some at_ →
    ∃ entry reason, s.auditsOf "debug_session.ended" id = [entry] ∧
      entry.payload = [("job_id", .jobId row.jobId), ("reason", .reason reason)] ∧
      reason.Holds s row at_

/-! ## Statements -/

theorem updateDebugSession_commits {id : DebugSessionId} {guard : DebugSessionRow → Bool}
    {set : DebugSessionRow → DebugSessionRow} {s s' : DebugDb} {out : Option DebugSessionRow}
    (h : (updateDebugSession id guard set).Commits s out s') :
    (out = none ∧ s' = s) ∨ ∃ row, ∃ hc : (set row).Checks, s.session? id = some row ∧
      guard row = true ∧ out = some (set row) ∧
      s' = { s with sessions := s.sessions.put id ⟨set row, hc⟩ } := by
  unfold Tx.Commits updateDebugSession at h
  cases hrow : s.session? id with
  | none =>
      rw [hrow] at h
      cases h
      exact Or.inl ⟨rfl, rfl⟩
  | some row =>
      rw [hrow] at h
      simp only at h
      split at h
      · next hguard =>
          split at h
          · next hc =>
              cases h
              exact Or.inr ⟨row, hc, rfl, hguard, rfl, rfl⟩
          · cases h
      · cases h
        exact Or.inl ⟨rfl, rfl⟩

theorem insertAudit_commits {actor action subject : String}
    {payload : List (String × AuditValue)} {now : Time} {s s' : DebugDb} {entry : AuditRow}
    (h : (insertAudit actor action subject payload now).Commits s entry s') :
    entry.action = action ∧ entry.subject = subject ∧ entry.payload = payload ∧
      s' = { s with auditLog := s.auditLog ++ [entry], nextAuditId := s.nextAuditId + 1 } := by
  unfold Tx.Commits insertAudit at h
  split at h
  · cases h
  · cases h
    exact ⟨rfl, rfl, rfl, rfl⟩

/-- An expired session of `j` is ended, and no other changes. -/
def DebugSessionRow.expire (j : JobId) (c : DebugClocks) (r : DebugSessionRow) :
    DebugSessionRow :=
  if r.expiredOf j c.expiry then { r with endedAt := some c.ended } else r

theorem endExpiredDebugSession_commits {j : JobId} {c : DebugClocks} {s s' : DebugDb} {u : Unit}
    (h : (endExpiredDebugSession j c).Commits s u s') :
    s'.db = s.db ∧ s'.auditLog = s.auditLog ∧ s'.nextAuditId = s.nextAuditId ∧
      (∀ id, s'.session? id = (s.session? id).map (·.expire j c)) ∧
      ∀ id row, s.session? id = some row → row.expiredOf j c.expiry = true →
        row.createdAt ≤ c.ended := by
  unfold Tx.Commits endExpiredDebugSession at h
  simp only at h
  split at h
  · next hall =>
      cases h
      -- an expired row that is read passes the check of its new value
      have hchecks : ∀ id (r : { r : DebugSessionRow // r.Checks }), s.sessions.get? id = some r →
          r.val.expiredOf j c.expiry = true →
          ({ r.val with endedAt := some c.ended } : DebugSessionRow).Checks := by
        intro id r hr hexp
        have hmem := List.all_eq_true.mp hall (id, r) ((Table.mem_rows_iff _ id r).mpr hr)
        rcases Bool.or_eq_true_iff.mp hmem with hno | hyes
        · rw [hexp] at hno
          cases hno
        · exact of_decide_eq_true hyes
      refine ⟨rfl, rfl, rfl, fun id => ?_, fun id row hrow hexp => ?_⟩
      · show ((Table.mapRows _ s.sessions).get? id).map Subtype.val =
          ((s.sessions.get? id).map Subtype.val).map (·.expire j c)
        rw [Table.get?_mapRows]
        cases hr : s.sessions.get? id with
        | none => rfl
        | some r =>
            simp only [Option.map_some, DebugSessionRow.expire]
            by_cases hexp : r.val.expiredOf j c.expiry = true
            · rw [dif_pos ⟨hexp, hchecks id r hr hexp⟩, if_pos hexp]
            · rw [dif_neg fun hboth => hexp hboth.1, if_neg hexp]
      · unfold DebugDb.session? Table.row? at hrow
        obtain ⟨r, hr, rfl⟩ := Option.map_eq_some_iff.mp hrow
        exact (hchecks id r hr hexp).endedOrder c.ended rfl
  · cases h

/-- The row a create inserts. -/
def DebugSessionRequest.row (request : DebugSessionRequest) (c : DebugClocks) :
    DebugSessionRow where
  jobId := request.jobId
  jti := request.jti
  createdBy := request.createdBy
  mode := request.mode
  createdAt := c.now
  expiresAt := request.expiresAt
  endedAt := none

theorem DebugDb.conflicts_eq_false {s : DebugDb} {id : DebugSessionId} {j : JobId} {jti : String} :
    s.conflicts id j jti = false ↔ s.session? id = none ∧ ∀ id' row, s.session? id' = some row →
      row.jti ≠ jti ∧ (row.jobId = j → row.endedAt ≠ none) := by
  unfold DebugDb.conflicts
  rw [Bool.or_eq_false_iff, List.any_eq_false, Option.isSome_eq_false_iff,
    Option.isNone_iff_eq_none]
  refine and_congr_right fun _ => ?_
  constructor
  · intro h id' row hrow
    unfold DebugDb.session? Table.row? at hrow
    obtain ⟨r, hr, rfl⟩ := Option.map_eq_some_iff.mp hrow
    have hno := h (id', r) ((Table.mem_rows_iff _ id' r).mpr hr)
    simp only [Bool.or_eq_true, Bool.and_eq_true, decide_eq_true_iff, not_or, not_and,
      Option.isNone_iff_eq_none] at hno
    exact hno
  · rintro h ⟨id', r⟩ hmem
    have hrow : s.session? id' = some r.val := by
      unfold DebugDb.session? Table.row?
      rw [(Table.mem_rows_iff _ id' r).mp hmem]
      rfl
    simp only [Bool.or_eq_true, Bool.and_eq_true, decide_eq_true_iff, not_or, not_and,
      Option.isNone_iff_eq_none]
    exact h id' r.val hrow

theorem insertDebugSession_commits {request : DebugSessionRequest} {c : DebugClocks}
    {s s' : DebugDb} {out : StoredDebugSession}
    (h : (insertDebugSession request.jobId request.id request.jti request.createdBy request.mode
      request.expiresAt c).Commits s out s') :
    out.id = request.id ∧ c.insert < request.expiresAt ∧
      s.conflicts request.id request.jobId request.jti = false ∧
      ∃ hc : (request.row c).Checks,
        s' = { s with sessions := s.sessions.put request.id ⟨request.row c, hc⟩ } := by
  unfold Tx.Commits insertDebugSession at h
  simp only at h
  split at h
  · next hclock =>
      split at h
      · next hc =>
          split at h
          · cases h
          · next hfree =>
              cases h
              exact ⟨rfl, hclock, Bool.eq_false_iff.mpr hfree, hc, rfl⟩
      · cases h
  · cases h

/-! ## Creating -/

/-- The checks of a create, read off the state it finds. -/
structure DebugSessionRequest.Admitted (request : DebugSessionRequest) (s : DebugDb)
    (c : DebugClocks) : Prop where
  jti : isBlank request.jti = false
  creator : isBlank request.createdBy = false
  job : ∃ row, s.db.job? request.jobId = some row ∧ row.state = .debugAvailable
  order : ∀ id row, s.session? id = some row → row.expiredOf request.jobId c.expiry = true →
    row.createdAt ≤ c.ended
  clock : c.insert < request.expiresAt
  checks : (request.row c).Checks
  fresh : s.session? request.id = none
  free : ∀ id row, s.session? id = some row → row.jti ≠ request.jti ∧
    (row.jobId = request.jobId → row.endedAt = none → row.expiresAt ≤ c.expiry)

/-- What a committed create did. -/
structure DebugSessionRequest.Stored (request : DebugSessionRequest) (c : DebugClocks)
    (s s' : DebugDb) : Prop where
  db : s'.db = s.db
  session : ∀ id, s'.session? id = if id = request.id then some (request.row c)
    else (s.session? id).map (·.expire request.jobId c)
  audit : ∃ entry, entry.action = "debug_session.created" ∧ entry.subject = request.id.val ∧
    s'.auditLog = s.auditLog ++ [entry]

/-- What expiring leaves of a row. -/
theorem DebugSessionRow.expire_jobId (j : JobId) (c : DebugClocks) (r : DebugSessionRow) :
    (r.expire j c).jobId = r.jobId ∧ (r.expire j c).jti = r.jti ∧
      (r.expire j c).expiresAt = r.expiresAt := by
  unfold expire
  split <;> exact ⟨rfl, rfl, rfl⟩

/-- A session of `j` that is still unended had not expired. -/
theorem DebugSessionRow.expire_unended {j : JobId} {c : DebugClocks} {r : DebugSessionRow} :
    (r.expire j c).endedAt = none ↔ r.endedAt = none ∧ r.expiredOf j c.expiry = false := by
  unfold expire
  cases hexp : r.expiredOf j c.expiry with
  | true => simp
  | false => simp

/-- The row of another session is found under the same identifier. -/
theorem DebugDb.session?_of_expired {s s₁ : DebugDb} {j : JobId} {c : DebugClocks}
    (h : ∀ id, s₁.session? id = (s.session? id).map (·.expire j c)) {id : DebugSessionId}
    {row : DebugSessionRow} (hrow : s.session? id = some row) :
    s₁.session? id = some (row.expire j c) := by
  rw [h id, hrow]
  rfl

/-- The indexes, after expiring and before. -/
theorem DebugDb.conflicts_expired {s s₁ : DebugDb} {request : DebugSessionRequest}
    {c : DebugClocks}
    (h : ∀ id, s₁.session? id = (s.session? id).map (·.expire request.jobId c)) :
    s₁.conflicts request.id request.jobId request.jti = false ↔
      s.session? request.id = none ∧ ∀ id row, s.session? id = some row →
        row.jti ≠ request.jti ∧
          (row.jobId = request.jobId → row.endedAt = none → row.expiresAt ≤ c.expiry) := by
  rw [DebugDb.conflicts_eq_false, h, Option.map_eq_none_iff]
  refine and_congr_right fun _ => ?_
  constructor
  · intro hfree id row hrow
    obtain ⟨hjob, hjti, _⟩ := row.expire_jobId request.jobId c
    obtain ⟨hne, hended⟩ := hfree id _ (session?_of_expired h hrow)
    rw [hjti] at hne
    refine ⟨hne, fun hj hnone => ?_⟩
    have hsome := hended (hjob.trans hj)
    rw [ne_eq, DebugSessionRow.expire_unended, not_and] at hsome
    have hexp := Bool.eq_true_of_not_eq_false (hsome hnone)
    exact (DebugSessionRow.expiredOf_iff.mp hexp).2.2
  · intro hfree id row hrow
    rw [h id] at hrow
    obtain ⟨old, hold, rfl⟩ := Option.map_eq_some_iff.mp hrow
    obtain ⟨hjob, hjti, _⟩ := old.expire_jobId request.jobId c
    obtain ⟨hne, hexpired⟩ := hfree id old hold
    rw [hjti, hjob]
    refine ⟨hne, fun hj hnone => ?_⟩
    obtain ⟨hunended, hno⟩ := DebugSessionRow.expire_unended.mp hnone
    have hyes := DebugSessionRow.expiredOf_iff.mpr ⟨hj, hunended, hexpired hj hunended⟩
    rw [hyes] at hno
    cases hno

/-- **Create.** A committed create was admitted, and stored its row and its entry. -/
theorem createDebugSessionWithAudit_commits {request : DebugSessionRequest} {c : DebugClocks}
    {s s' : DebugDb} {out : CreatedDebugSession}
    (h : (createDebugSessionWithAudit request c).Commits s out s') :
    request.Admitted s c ∧ request.Stored c s s' := by
  simp only [createDebugSessionWithAudit, validateDebugSession, lockDebugSessionJob,
    Tx.bind_commits, Tx.require_commits, Tx.read_commits, Tx.okOr_commits, Tx.pure_commits] at h
  obtain ⟨_, _, ⟨hvalid, rfl⟩, state, _, ⟨_, _, ⟨rfl, rfl⟩, hstate, rfl⟩, _, _,
    ⟨hdebug, rfl⟩, _, s₁, hexpire, session, s₂, hinsert, entry, s₃, haudit, rfl, rfl⟩ := h
  obtain ⟨hdb, hlog, _, hsessions, horder⟩ := endExpiredDebugSession_commits hexpire
  obtain ⟨hid, hclock, hfree, hc, rfl⟩ := insertDebugSession_commits hinsert
  obtain ⟨haction, hsubject, _, rfl⟩ := insertAudit_commits haudit
  obtain ⟨hjti, hcreator⟩ := Bool.and_eq_true_iff.mp hvalid
  obtain ⟨row, hrow, hrowstate⟩ := Option.map_eq_some_iff.mp hstate
  obtain ⟨hfresh, hindexes⟩ := (DebugDb.conflicts_expired hsessions).mp hfree
  refine ⟨⟨Bool.not_eq_true' _ ▸ hjti, Bool.not_eq_true' _ ▸ hcreator,
    ⟨row, hrow, hrowstate.trans (of_decide_eq_true hdebug)⟩, horder, hclock, hc, hfresh,
    hindexes⟩, ⟨hdb, fun id => ?_, entry, haction, hsubject.trans (congrArg _ hid), ?_⟩⟩
  · show (s₁.sessions.put request.id ⟨request.row c, hc⟩).row? id = _
    rw [Table.row?_put]
    split
    · rfl
    · exact hsessions id
  · show s₁.auditLog ++ [entry] = _
    rw [hlog]

theorem endExpiredDebugSession_ok {j : JobId} {c : DebugClocks} {s : DebugDb}
    (horder : ∀ id row, s.session? id = some row → row.expiredOf j c.expiry = true →
      row.createdAt ≤ c.ended) : ∃ s', (endExpiredDebugSession j c).Commits s () s' := by
  unfold Tx.Commits endExpiredDebugSession
  simp only
  rw [if_pos]
  · exact ⟨_, rfl⟩
  · refine List.all_eq_true.mpr fun ⟨id, r⟩ hmem => ?_
    cases hexp : r.val.expiredOf j c.expiry with
    | false => rfl
    | true =>
        have hrow : s.session? id = some r.val := by
          unfold DebugDb.session? Table.row?
          rw [(Table.mem_rows_iff _ id r).mp hmem]
          rfl
        refine Bool.or_eq_true_iff.mpr (Or.inr (decide_eq_true ?_))
        refine ⟨r.2.jti, r.2.createdBy, r.2.expiryOrder, fun at_ hat => ?_⟩
        obtain rfl := Option.some.inj hat
        exact horder id r.val hrow hexp

/-- The text of an identifier is not blank. -/
theorem DebugSessionId.not_blank (id : DebugSessionId) : btrimEmpty id.val = false := by
  obtain ⟨suffix, heq, _⟩ := id.toList_eq
  unfold btrimEmpty
  rw [heq]
  rfl

/-- An admitted create commits. -/
theorem DebugSessionRequest.Admitted.commits {request : DebugSessionRequest} {s : DebugDb}
    {c : DebugClocks} (h : request.Admitted s c) :
    ∃ out s', (createDebugSessionWithAudit request c).Commits s out s' := by
  obtain ⟨s₁, hexpire⟩ := endExpiredDebugSession_ok h.order
  obtain ⟨row, hrow, hstate⟩ := h.job
  have hfree := (DebugDb.conflicts_expired (endExpiredDebugSession_commits hexpire).2.2.2.1).mpr
    ⟨h.fresh, h.free⟩
  have hinsert : (insertDebugSession request.jobId request.id request.jti request.createdBy
      request.mode request.expiresAt c).Commits s₁ ⟨request.id, request.row c⟩
      { s₁ with sessions := s₁.sessions.put request.id ⟨request.row c, h.checks⟩ } := by
    have hc := h.checks
    unfold DebugSessionRequest.row at hc
    unfold Tx.Commits insertDebugSession
    simp only [h.clock, hfree, hc, if_true, dif_pos, Bool.false_eq_true, if_false]
    rfl
  have haudit : ∀ s₂ : DebugDb, ∃ entry s₃, (insertAudit request.createdBy
      "debug_session.created" request.id.val request.auditPayload c.now).Commits s₂ entry s₃ := by
    intro s₂
    have haction : btrimEmpty "debug_session.created" = false := by decide
    have hcreator : btrimEmpty request.createdBy = false := h.checks.createdBy
    unfold Tx.Commits insertAudit
    rw [hcreator, haction, request.id.not_blank]
    exact ⟨_, _, rfl⟩
  obtain ⟨entry, s₃, haudit⟩ := haudit _
  refine ⟨⟨⟨request.id, request.row c⟩, entry⟩, s₃, ?_⟩
  simp only [createDebugSessionWithAudit, validateDebugSession, lockDebugSessionJob,
    Tx.bind_commits, Tx.require_commits, Tx.read_commits, Tx.okOr_commits, Tx.pure_commits]
  refine ⟨(), s, ⟨?_, rfl⟩, .debugAvailable, s, ⟨_, s, ⟨rfl, rfl⟩, ?_, rfl⟩, (), s, ⟨?_, rfl⟩,
    (), s₁, hexpire, _, _, hinsert, entry, s₃, haudit, rfl, rfl⟩
  · rw [h.jti, h.creator]
    rfl
  · rw [hrow, Option.map_some, hstate]
  · exact decide_eq_true rfl

/-! ## What every run keeps -/

/-- What holds of the sessions and their entries, however sessions are ended. -/
structure DebugDb.Sound (s : DebugDb) : Prop where
  jobs : (repository fun _ => True).Reachable s.db
  oneUnended : s.OneUnended
  created : s.CreatedAudited
  unknown : ∀ id, s.session? id = none → s.auditsOf "debug_session.created" id = [] ∧
    s.auditsOf "debug_session.ended" id = []
  unended : ∀ id row, s.session? id = some row → row.endedAt = none →
    s.auditsOf "debug_session.ended" id = []

theorem DebugDb.auditsOf_append {s s' : DebugDb} {entry : AuditRow}
    (h : s'.auditLog = s.auditLog ++ [entry]) (action : String) (id : DebugSessionId) :
    s'.auditsOf action id = s.auditsOf action id ++
      if entry.action = action ∧ entry.subject = id.val then [entry] else [] := by
  unfold DebugDb.auditsOf
  rw [h, List.filter_append]
  refine congrArg _ ?_
  by_cases hboth : entry.action = action ∧ entry.subject = id.val
  · simp [hboth]
  · rw [if_neg hboth]
    refine List.filter_eq_nil_iff.mpr fun a ha => ?_
    obtain rfl := List.mem_singleton.mp ha
    simpa using hboth

/-- An entry of another action, or about another session, does not count. -/
theorem DebugDb.auditsOf_other {s s' : DebugDb} {entry : AuditRow}
    (h : s'.auditLog = s.auditLog ++ [entry]) {action : String} {id : DebugSessionId}
    (hne : entry.action ≠ action ∨ entry.subject ≠ id.val) :
    s'.auditsOf action id = s.auditsOf action id := by
  rw [auditsOf_append h, if_neg, List.append_nil]
  rintro ⟨haction, hsubject⟩
  rcases hne with hne | hne
  · exact hne haction
  · exact hne hsubject

/-- **Create keeps the log.** -/
theorem DebugDb.Sound.create {s s' : DebugDb} (h : s.Sound) {request : DebugSessionRequest}
    {c : DebugClocks} (ha : request.Admitted s c) (hs : request.Stored c s s') : s'.Sound := by
  obtain ⟨entry, haction, hsubject, hlog⟩ := hs.audit
  have hended : ∀ id, s'.auditsOf "debug_session.ended" id =
      s.auditsOf "debug_session.ended" id := fun id =>
    DebugDb.auditsOf_other hlog (Or.inl (by rw [haction]; decide))
  have hcreated : ∀ id, id ≠ request.id → s'.auditsOf "debug_session.created" id =
      s.auditsOf "debug_session.created" id := fun id hne =>
    DebugDb.auditsOf_other hlog (Or.inr fun heq =>
      hne (Ident.ext (heq.symm.trans hsubject)))
  -- a session found afterwards is the new one, or an old one that may have been expired
  have hfound : ∀ id row, s'.session? id = some row → (id = request.id ∧ row = request.row c) ∨
      (id ≠ request.id ∧ ∃ old, s.session? id = some old ∧ row = old.expire request.jobId c) := by
    intro id row hrow
    rw [hs.session id] at hrow
    split at hrow
    · next heq => exact Or.inl ⟨heq, (Option.some.inj hrow).symm⟩
    · next hne =>
        obtain ⟨old, hold, rfl⟩ := Option.map_eq_some_iff.mp hrow
        exact Or.inr ⟨hne, old, hold, rfl⟩
  -- an old unended session of the job would have expired
  have hnone : ∀ id old, s.session? id = some old → old.jobId = request.jobId →
      (old.expire request.jobId c).endedAt ≠ none := by
    intro id old hold hjob hunended
    obtain ⟨hopen, hlive⟩ := DebugSessionRow.expire_unended.mp hunended
    have hexp := DebugSessionRow.expiredOf_iff.mpr
      ⟨hjob, hopen, (ha.free id old hold).2 hjob hopen⟩
    rw [hexp] at hlive
    cases hlive
  refine ⟨hs.db ▸ h.jobs, ?_, ?_, ?_, ?_⟩
  · intro id id' row row' hrow hrow' hjob hopen hopen'
    rcases hfound id row hrow with ⟨rfl, rfl⟩ | ⟨hne, old, hold, rfl⟩ <;>
      rcases hfound id' row' hrow' with ⟨rfl, rfl⟩ | ⟨hne', old', hold', rfl⟩
    · rfl
    · have hj := (old'.expire_jobId request.jobId c).1.symm.trans hjob.symm
      exact absurd hopen' (hnone id' old' hold' hj)
    · have hj := (old.expire_jobId request.jobId c).1.symm.trans hjob
      exact absurd hopen (hnone id old hold hj)
    · rw [(old.expire_jobId request.jobId c).1, (old'.expire_jobId request.jobId c).1] at hjob
      exact h.oneUnended id id' old old' hold hold' hjob
        (DebugSessionRow.expire_unended.mp hopen).1 (DebugSessionRow.expire_unended.mp hopen').1
  · intro id row hrow
    rcases hfound id row hrow with ⟨rfl, rfl⟩ | ⟨hne, old, hold, rfl⟩
    · rw [DebugDb.auditsOf_append hlog, (h.unknown _ ha.fresh).1, if_pos ⟨haction, hsubject⟩]
      rfl
    · rw [hcreated id hne]
      exact h.created id old hold
  · intro id hno
    rw [hs.session id] at hno
    split at hno
    · cases hno
    · next hne =>
        rw [hcreated id hne, hended id]
        exact h.unknown id (Option.map_eq_none_iff.mp hno)
  · intro id row hrow hopen
    rw [hended id]
    rcases hfound id row hrow with ⟨rfl, rfl⟩ | ⟨_, old, hold, rfl⟩
    · exact (h.unknown _ ha.fresh).2
    · exact h.unended id old hold (DebugSessionRow.expire_unended.mp hopen).1

/-- Without an expired session, a create audits what it should. -/
theorem DebugDb.EndedAudited.create {s s' : DebugDb} (h : s.EndedAudited)
    {request : DebugSessionRequest} {c : DebugClocks} (hs : request.Stored c s s')
    (hlive : ∀ id row, s.session? id = some row → row.expiredOf request.jobId c.expiry = false) :
    s'.EndedAudited := by
  obtain ⟨entry, haction, _, hlog⟩ := hs.audit
  intro id row at_ hrow hat
  rw [hs.session id] at hrow
  split at hrow
  · obtain rfl := Option.some.inj hrow
    cases hat
  · obtain ⟨old, hold, rfl⟩ := Option.map_eq_some_iff.mp hrow
    have hsame : old.expire request.jobId c = old := by
      unfold DebugSessionRow.expire
      rw [hlive id old hold]
      rfl
    rw [hsame] at hat ⊢
    obtain ⟨e, reason, hlist, hpayload, hreason⟩ := h id old at_ hold hat
    refine ⟨e, reason, ?_, hpayload, ?_⟩
    · rw [DebugDb.auditsOf_other hlog (Or.inl (by rw [haction]; decide)), hlist]
    · cases reason with
      | expired => exact hreason
      | jobEnded =>
          show (s'.db.job? old.jobId).any _ = true
          rw [hs.db]
          exact hreason

/-! ## Reconciling -/

/-- Session `id`, unended until now, was ended at `at_` with `entry`. -/
structure DebugDb.Ended (s : DebugDb) (id : DebugSessionId) (row : DebugSessionRow)
    (reason : DebugSessionEndReason) (at_ : Time) (s' : DebugDb) : Prop where
  db : s'.db = s.db
  found : s.session? id = some row
  unended : row.endedAt = none
  session : ∀ id', s'.session? id' =
    if id' = id then some { row with endedAt := some at_ } else s.session? id'
  audit : ∃ entry, entry.action = "debug_session.ended" ∧ entry.subject = id.val ∧
    entry.payload = [("job_id", .jobId row.jobId), ("reason", .reason reason)] ∧
    s'.auditLog = s.auditLog ++ [entry]

theorem DebugDb.Sound.end_ {s s' : DebugDb} (h : s.Sound) {id : DebugSessionId}
    {row : DebugSessionRow} {reason : DebugSessionEndReason} {at_ : Time}
    (he : s.Ended id row reason at_ s') : s'.Sound := by
  obtain ⟨entry, haction, hsubject, _, hlog⟩ := he.audit
  have hcreated : ∀ id', s'.auditsOf "debug_session.created" id' =
      s.auditsOf "debug_session.created" id' := fun id' =>
    DebugDb.auditsOf_other hlog (Or.inl (by rw [haction]; decide))
  have hended : ∀ id', id' ≠ id → s'.auditsOf "debug_session.ended" id' =
      s.auditsOf "debug_session.ended" id' := fun id' hne =>
    DebugDb.auditsOf_other hlog (Or.inr fun heq => hne (Ident.ext (heq.symm.trans hsubject)))
  -- the rows that are still unended were so before
  have hopen : ∀ id' row', s'.session? id' = some row' → row'.endedAt = none →
      id' ≠ id ∧ s.session? id' = some row' := by
    intro id' row' hrow' hnone
    rw [he.session id'] at hrow'
    split at hrow'
    · obtain rfl := Option.some.inj hrow'
      cases hnone
    · next hne => exact ⟨hne, hrow'⟩
  refine ⟨he.db ▸ h.jobs, ?_, ?_, ?_, ?_⟩
  · intro a b ra rb ha hb hjob hna hnb
    exact h.oneUnended a b ra rb (hopen a ra ha hna).2 (hopen b rb hb hnb).2 hjob hna hnb
  · intro id' row' hrow'
    rw [hcreated id']
    rw [he.session id'] at hrow'
    split at hrow'
    · next heq =>
        subst heq
        exact h.created _ row he.found
    · exact h.created id' row' hrow'
  · intro id' hno
    rw [he.session id'] at hno
    split at hno
    · cases hno
    · next hne =>
        rw [hcreated id', hended id' hne]
        exact h.unknown id' hno
  · intro id' row' hrow' hnone
    obtain ⟨hne, hold⟩ := hopen id' row' hrow' hnone
    rw [hended id' hne]
    exact h.unended id' row' hold hnone

/-- **Reconcile.** The entry is the session's only one, and its reason holds. -/
theorem DebugDb.EndedAudited.end_ {s s' : DebugDb} (h : s.EndedAudited) (hsound : s.Sound)
    {id : DebugSessionId} {row : DebugSessionRow} {reason : DebugSessionEndReason} {at_ : Time}
    (he : s.Ended id row reason at_ s') (hreason : reason.Holds s row at_) : s'.EndedAudited := by
  obtain ⟨entry, haction, hsubject, hpayload, hlog⟩ := he.audit
  have hholds : ∀ (reason : DebugSessionEndReason) (r r' : DebugSessionRow) (t : Time),
      r'.jobId = r.jobId → r'.expiresAt = r.expiresAt → reason.Holds s r t →
        reason.Holds s' r' t := by
    intro reason r r' t hjob hexp hr
    cases reason with
    | expired =>
        show r'.expiresAt ≤ t
        rw [hexp]
        exact hr
    | jobEnded =>
        show (s'.db.job? r'.jobId).any _ = true
        rw [he.db, hjob]
        exact hr
  intro id' row' t hrow' ht
  rw [he.session id'] at hrow'
  split at hrow'
  · next heq =>
      subst heq
      obtain rfl := Option.some.inj hrow'
      obtain rfl := Option.some.inj ht
      refine ⟨entry, reason, ?_, hpayload, hholds reason row _ at_ rfl rfl hreason⟩
      rw [DebugDb.auditsOf_append hlog, hsound.unended id' row he.found he.unended,
        if_pos ⟨haction, hsubject⟩]
      rfl
  · next hne =>
      obtain ⟨e, reason', hlist, hpay, hr⟩ := h id' row' t hrow' ht
      refine ⟨e, reason', ?_, hpay, hholds reason' row' row' t rfl rfl hr⟩
      rw [DebugDb.auditsOf_other hlog (Or.inr fun heq =>
        hne (Ident.ext (heq.symm.trans hsubject))), hlist]

/-- The reason a candidate was selected for, at any end not before `expiredBefore`. -/
def DebugDb.Due (s : DebugDb) (expiredBefore : Time)
    (p : DebugSessionId × DebugSessionEndReason) : Prop :=
  ∀ row at_, s.session? p.1 = some row → expiredBefore ≤ at_ → p.2.Holds s row at_

/-- A candidate is due. -/
theorem DebugDb.due_of_candidate {s : DebugDb} {expiredBefore : Time} {limit : Nat}
    {skip : DebugSessionId → Bool} {p : DebugSessionId × DebugSessionEndReason}
    (h : p ∈ s.endCandidates expiredBefore limit skip) : s.Due expiredBefore p := by
  unfold DebugDb.endCandidates at h
  obtain ⟨⟨id, r⟩, hmem, rfl⟩ := List.mem_map.mp h
  have hready := (List.mem_insertionSort _).mp (List.mem_of_mem_take hmem)
  obtain ⟨hrow, hselected⟩ := List.mem_filter.mp hready
  intro row at_ hsession hle
  have hval : row = r.val := by
    unfold DebugDb.session? Table.row? at hsession
    rw [(Table.mem_rows_iff _ id r).mp hrow] at hsession
    exact (Option.some.inj hsession).symm
  subst hval
  simp only [Bool.and_eq_true, Bool.or_eq_true, decide_eq_true_iff] at hselected
  by_cases hexp : r.val.expiresAt ≤ expiredBefore
  · show (if r.val.expiresAt ≤ expiredBefore then _ else _ : DebugSessionEndReason).Holds s _ at_
    rw [if_pos hexp]
    exact Int.le_trans hexp hle
  · show (if r.val.expiresAt ≤ expiredBefore then _ else _ : DebugSessionEndReason).Holds s _ at_
    rw [if_neg hexp]
    rcases hselected.1.2 with hno | hended
    · exact absurd hno hexp
    · exact hended

/-- One candidate, ended. -/
theorem endDebugSession_ended {id : DebugSessionId} {clock : DebugSessionId → Time}
    {actor : String} {now : Time} {reason : DebugSessionEndReason} {s s₁ s₂ : DebugDb}
    {out row : DebugSessionRow} {entry : AuditRow}
    (hupdate : (updateDebugSession id (·.endedAt.isNone)
      fun r => { r with endedAt := some (max r.createdAt (clock id)) }).Commits s (some out) s₁)
    (hout : out = row)
    (haudit : (insertAudit actor "debug_session.ended" id.val
      [("job_id", .jobId row.jobId), ("reason", .reason reason)] now).Commits s₁ entry s₂) :
    ∃ old, s.Ended id old reason (max old.createdAt (clock id)) s₂ := by
  obtain ⟨haction, hsubject, hpayload, rfl⟩ := insertAudit_commits haudit
  rcases updateDebugSession_commits hupdate with ⟨hnone, _⟩ | ⟨old, hc, hold, hguard, hsome, rfl⟩
  · cases hnone
  · obtain rfl := Option.some.inj hsome
    subst hout
    refine ⟨old, rfl, hold, Option.isNone_iff_eq_none.mp hguard, fun id' => ?_,
      entry, haction, hsubject, hpayload, rfl⟩
    exact Table.row?_put s.sessions id _ hc id'

theorem endDebugSessions_kept {actor : String} {clock : DebugSessionId → Time} {now : Time}
    {expiredBefore : Time} (hclock : ∀ id, expiredBefore ≤ clock id)
    {candidates : List (DebugSessionId × DebugSessionEndReason)} {s s' : DebugDb}
    {out : List EndedDebugSession}
    (h : (endDebugSessions actor clock now candidates).Commits s out s') (hs : s.Sound)
    (hdue : ∀ p ∈ candidates, s.Due expiredBefore p) :
    s'.Sound ∧ (s.EndedAudited → s'.EndedAudited) := by
  induction candidates generalizing s out with
  | nil =>
      obtain ⟨_, rfl⟩ := Tx.pure_commits.mp h
      exact ⟨hs, id⟩
  | cons p rest ih =>
      obtain ⟨id, reason⟩ := p
      simp only [endDebugSessions, Tx.bind_commits, Tx.okOr_commits, Tx.pure_commits] at h
      obtain ⟨_, s₁, hupdate, row, _, ⟨rfl, rfl⟩, entry, s₂, haudit, _, s₃, hrest, _, rfl⟩ := h
      obtain ⟨old, hended⟩ := endDebugSession_ended hupdate rfl haudit
      have hdue₂ : ∀ p ∈ rest, s₂.Due expiredBefore p := by
        intro p hp row' at_ hrow' hle
        have hp' := hdue p (List.mem_cons_of_mem _ hp)
        rw [hended.session p.1] at hrow'
        have hholds : ∀ r : DebugSessionRow, p.2.Holds s r at_ → p.2.Holds s₂ r at_ := by
          intro r hr
          cases hreason : p.2 with
          | expired =>
              rw [hreason] at hr
              exact hr
          | jobEnded =>
              rw [hreason] at hr
              show (s₂.db.job? r.jobId).any _ = true
              rw [hended.db]
              exact hr
        split at hrow'
        · next heq =>
            obtain rfl := Option.some.inj hrow'
            have hold := hp' old at_ (by rw [heq]; exact hended.found) hle
            refine hholds _ ?_
            cases hreason : p.2 with
            | expired => rw [hreason] at hold; exact hold
            | jobEnded => rw [hreason] at hold; exact hold
        · exact hholds _ (hp' row' at_ hrow' hle)
      obtain ⟨hsound, hkept⟩ := ih hrest (hs.end_ hended) hdue₂
      refine ⟨hsound, fun haudited => hkept (haudited.end_ hs hended ?_)⟩
      refine hdue (id, reason) List.mem_cons_self old _ hended.found ?_
      exact Int.le_trans (hclock id) (Int.le_max_right _ _)

/-! ## Runs -/

/-- A create that passes its checks and finds an expired session of its job unended. -/
def DebugOp.EndsUnaudited (s : DebugDb) : DebugOp → Prop
  | .create request c => request.Admitted s c ∧
      ∃ id row, s.session? id = some row ∧ row.expiredOf request.jobId c.expiry = true
  | _ => False

/-- A change of a job leaves the sessions and the log, and an ended job ended. -/
theorem DebugDb.Sound.job {s : DebugDb} (h : s.Sound) {call : Call} {db' : Db}
    (hstep : (repository fun _ => True).step s.db call db') :
    ({ s with db := db' } : DebugDb).Sound ∧
      (s.EndedAudited → ({ s with db := db' } : DebugDb).EndedAudited) := by
  refine ⟨⟨.step h.jobs hstep, h.oneUnended, h.created, h.unknown, h.unended⟩, fun ha => ?_⟩
  intro id row at_ hrow hat
  obtain ⟨entry, reason, hlist, hpayload, hreason⟩ := ha id row at_ hrow hat
  refine ⟨entry, reason, hlist, hpayload, ?_⟩
  cases reason with
  | expired => exact hreason
  | jobEnded =>
      have hended : (s.db.job? row.jobId).any (·.state.isTerminal) = true := hreason
      obtain ⟨jobRow, hjob, hterminal⟩ := (Option.any_eq_true _ _).mp hended
      have hlater := terminal_run h.jobs (.single hstep) hjob hterminal
      show (db'.job? row.jobId).any _ = true
      rw [hlater]
      exact hterminal

/-- **Step.** -/
theorem debugSessions_step {cond : DebugDb → DebugOp → Prop} {s s' : DebugDb} {op : DebugOp}
    (h : s.Sound) (hstep : (debugSessions cond).step s op s') :
    s'.Sound ∧ (s.EndedAudited → ¬ op.EndsUnaudited s → s'.EndedAudited) := by
  obtain ⟨_, hop⟩ := hstep
  cases op with
  | job call =>
      obtain ⟨db', hjob, rfl⟩ := hop
      obtain ⟨hsound, hkept⟩ := h.job hjob
      exact ⟨hsound, fun ha _ => hkept ha⟩
  | create request c =>
      have hop' : s' = ((createDebugSessionWithAudit request c).exec s).2 := hop
      rcases Tx.exec_cases (createDebugSessionWithAudit request c) s with
        ⟨out, s₁, hc, hexec⟩ | ⟨e, _, hexec⟩
      · rw [hexec] at hop'
        subst hop'
        obtain ⟨hadmitted, hstored⟩ := createDebugSessionWithAudit_commits hc
        refine ⟨h.create hadmitted hstored, fun ha hno => ha.create hstored fun id row hrow => ?_⟩
        refine Bool.eq_false_iff.mpr fun hexp => hno ⟨hadmitted, id, row, hrow, hexp⟩
      · rw [hexec] at hop'
        subst hop'
        exact ⟨h, fun ha _ => ha⟩
  | reconcile expiredBefore actor limit skip clock now =>
      obtain ⟨hclock, hop'⟩ := hop
      rcases Tx.exec_cases (endExpiredOrTerminalDebugSessionsWithAudit expiredBefore actor limit
        skip clock now) s with ⟨out, s₁, hc, hexec⟩ | ⟨e, _, hexec⟩
      · rw [hexec] at hop'
        subst hop'
        simp only [endExpiredOrTerminalDebugSessionsWithAudit, Tx.bind_commits,
          Tx.require_commits, Tx.read_commits] at hc
        obtain ⟨_, _, ⟨_, rfl⟩, _, _, ⟨_, rfl⟩, _, _, ⟨rfl, rfl⟩, hc⟩ := hc
        obtain ⟨hsound, hkept⟩ := endDebugSessions_kept hclock hc h
          fun p hp => DebugDb.due_of_candidate hp
        exact ⟨hsound, fun ha _ => hkept ha⟩
      · rw [hexec] at hop'
        subst hop'
        exact ⟨h, fun ha _ => ha⟩

theorem debugSessions_sound {cond : DebugDb → DebugOp → Prop} {s : DebugDb}
    (h : (debugSessions cond).Reachable s) : s.Sound := by
  induction h with
  | init hinit =>
      obtain ⟨catalog, rfl⟩ := hinit
      refine ⟨.init ⟨catalog, rfl⟩, ?_, ?_, fun _ _ => ⟨rfl, rfl⟩, fun _ _ _ _ => rfl⟩
      · intro id id' row row' hrow
        cases hrow
      · intro id row hrow
        cases hrow
  | step _ hstep ih => exact (debugSessions_step ih hstep).1

/-- A create that finds an expired session leaves it ended without an entry. -/
theorem create_ends_unaudited {s s' : DebugDb} (h : s.Sound) {request : DebugSessionRequest}
    {c : DebugClocks} (hbad : (DebugOp.create request c).EndsUnaudited s)
    (hstep : (DebugOp.create request c).Steps s s') : ¬ s'.EndedAudited := by
  obtain ⟨hadmitted, id, row, hrow, hexp⟩ := hbad
  obtain ⟨out, s₁, hc⟩ := hadmitted.commits
  have hs' : s' = ((createDebugSessionWithAudit request c).exec s).2 := hstep
  rw [hc.exec_eq] at hs'
  subst hs'
  obtain ⟨_, hstored⟩ := createDebugSessionWithAudit_commits hc
  obtain ⟨entry, haction, _, hlog⟩ := hstored.audit
  have hopen := (DebugSessionRow.expiredOf_iff.mp hexp).2.1
  have hne : id ≠ request.id := by
    rintro rfl
    rw [hadmitted.fresh] at hrow
    cases hrow
  have hrow' : s'.session? id = some { row with endedAt := some c.ended } := by
    rw [hstored.session id, if_neg hne, hrow]
    show some (row.expire request.jobId c) = _
    unfold DebugSessionRow.expire
    rw [if_pos hexp]
  intro hall
  obtain ⟨e, _, hlist, _⟩ := hall id _ c.ended hrow' rfl
  rw [DebugDb.auditsOf_other hlog (Or.inl (by rw [haction]; decide)),
    h.unended id row hrow hopen] at hlist
  cases hlist

/-- **Debug sessions.** In every run a job has at most one unended session and each session
one entry for its creation. In the runs in which no create that passes its checks finds an
expired session of its job unended, each ended session has one entry for its end, with the
reason; and such a create leaves one without. -/
theorem debug_sessions_audited (s : DebugDb) :
    ((debugSessions fun _ _ => True).Reachable s → s.OneUnended ∧ s.CreatedAudited) ∧
    ((debugSessions fun s op => ¬ op.EndsUnaudited s).Reachable s → s.EndedAudited) ∧
    (∀ request c s', (debugSessions fun _ _ => True).Reachable s →
      (DebugOp.create request c).EndsUnaudited s → (DebugOp.create request c).Steps s s' →
      ¬ s'.EndedAudited) := by
  refine ⟨fun h => ?_, fun h => ?_, fun request c s' h hbad hstep => ?_⟩
  · have hsound := debugSessions_sound h
    exact ⟨hsound.oneUnended, hsound.created⟩
  · induction h with
    | init hinit =>
        obtain ⟨catalog, rfl⟩ := hinit
        intro id row at_ hrow
        cases hrow
    | step hr hstep ih =>
        exact (debugSessions_step (debugSessions_sound hr) hstep).2 ih hstep.1
  · exact create_ends_unaudited (debugSessions_sound h) hbad hstep

namespace Sample

/-- The running job, its result recorded, up to its debug phase. -/
def debugging : List (Op × DbTime) :=
  running ++ [(.recordJobResult (result .passed) (event 6), at_ 8),
    (.transitionJobState job .runningTests .debugAvailable ⟨some .passed, false, false⟩
      (some ⟨worker, lease⟩) [] (event 7), at_ 9)]

def session : DebugSessionId := ⟨"dbg_a", by decide⟩

/-- A request for session `id` until second `until_`. -/
def debug (id : DebugSessionId) (jti : String) (until_ : Int) : DebugSessionRequest :=
  ⟨job, id, jti, "user", .viewer, until_ * 1000000, []⟩

/-- All clocks of a create read `s` seconds. -/
def clocks (s : Int) : DebugClocks := ⟨s * 1000000, s * 1000000, s * 1000000, s * 1000000⟩

/-- The job in its debug phase, without a session. -/
def beforeSessions : DebugDb := ⟨after debugging, Table.empty, [], 1⟩

/-- A session until second 40, and after it another one. -/
def twoSessions : DebugDb :=
  ((createDebugSessionWithAudit (debug ⟨"dbg_b", by decide⟩ "jti_b" 90) (clocks 50)).exec
    ((createDebugSessionWithAudit (debug session "jti_a" 40) (clocks 10)).exec
      beforeSessions).2).2

theorem beforeSessions_reachable : (debugSessions fun _ _ => True).Reachable beforeSessions := by
  have hlift : ∀ db, (repository fun _ => True).Reachable db →
      (debugSessions fun _ _ => True).Reachable ⟨db, Table.empty, [], 1⟩ := by
    intro db h
    induction h with
    | init hinit =>
        obtain ⟨catalog, rfl⟩ := hinit
        exact .init ⟨catalog, rfl⟩
    | @step db call db' _ hstep ih =>
        have hjob : (debugSessions fun _ _ => True).step ⟨db, Table.empty, [], 1⟩ (.job call)
            ⟨db', Table.empty, [], 1⟩ := ⟨trivial, db', hstep, rfl⟩
        exact .step ih hjob
  exact hlift _ (after_reachable fun _ _ => trivial)

end Sample

/-- **An expired session is ended without an entry.** The second create ends it. -/
theorem second_session_ends_unaudited :
    ∃ s, (debugSessions fun _ _ => True).Reachable s ∧ ¬ s.EndedAudited := by
  refine ⟨Sample.twoSessions, ?_, fun h => ?_⟩
  · have hcreate : ∀ s request c, (debugSessions fun _ _ => True).step s (.create request c)
        ((createDebugSessionWithAudit request c).exec s).2 := fun _ _ _ => ⟨trivial, rfl⟩
    exact .step (.step Sample.beforeSessions_reachable (hcreate _ _ _)) (hcreate _ _ _)
  · have hended : (Sample.twoSessions.session? Sample.session).any (·.endedAt.isSome) = true ∧
        Sample.twoSessions.auditsOf "debug_session.ended" Sample.session = [] := by
      decide +kernel
    obtain ⟨row, hrow, hsome⟩ := (Option.any_eq_true _ _).mp hended.1
    obtain ⟨at_, hat⟩ := Option.isSome_iff_exists.mp hsome
    obtain ⟨entry, reason, hlist, _⟩ := h Sample.session row at_ hrow hat
    rw [hended.2] at hlist
    cases hlist

end RunAnywhere
