import RunAnywhere.Repository.Error
import RunAnywhere.Repository.Rows

/-!
# The database and its statements

`Db` is the part of the PostgreSQL schema the job lifecycle reads and writes. A
repository call is one transaction (`RepoTx`): locks make calls on the same rows
exclude each other, so a call is modelled as one step that commits or leaves the
database as it was. The statements below (`updateJob`, `insertJob`,
`updateWorker`, `insertOutbox`) fail when the row they would store violates a
constraint; each has one lemma that says what it did when it succeeded.
-/

namespace RunAnywhere

open Logic

/-- The tables no lifecycle operation writes: they change only by administration
and uploads (`Repository.setCatalog`). Artifacts are listed with their job. -/
structure Catalog where
  projects : Table ProjectId ProjectRow
  uploads : Table UploadId UploadRow
  runtimeProfiles : Table RuntimeProfileId RuntimeProfileRow
  webhooks : Table WebhookId Webhook
  artifacts : Table ArtifactId JobId
  deriving DecidableEq

structure Db where
  catalog : Catalog
  workers : Table.Checked WorkerId WorkerRow.Checks
  jobs : Table.Checked JobId JobRow.Checks
  events : List JobEvent
  nextEventSequence : Nat
  outbox : Table.Checked String OutboxRow.Checks
  nextOutboxId : Nat

namespace Db

/-- The row of job `j`. -/
def job? (db : Db) (j : JobId) : Option JobRow := db.jobs.row? j

/-- The row of worker `w`. -/
def worker? (db : Db) (w : WorkerId) : Option WorkerRow := db.workers.row? w

/-- The outbox row with event key `key`. -/
def message? (db : Db) (key : String) : Option OutboxRow := db.outbox.row? key

/-- The event log of job `j`, oldest first. -/
def eventsOf (db : Db) (j : JobId) : List JobEvent := db.events.filter (·.jobId = j)

/-- The migrated database before any operation. -/
def empty (catalog : Catalog) : Db where
  catalog := catalog
  workers := Table.empty
  jobs := Table.empty
  events := []
  nextEventSequence := 1
  outbox := Table.empty
  nextOutboxId := 1

end Db

/-- The clock readings of one transaction: `now()`, fixed at its start, and the
`statement_timestamp()` and `clock_timestamp()` its statements read. -/
structure DbTime where
  now : Time
  statement : Time
  clock : Time
  deriving DecidableEq

/-- One repository transaction. -/
abbrev RepoTx := Tx RepositoryError Db

/-! ## Statements -/

/-- `UPDATE jobs SET … WHERE id = j AND guard RETURNING …`. -/
def updateJob (j : JobId) (guard : JobRow → Bool) (set : JobRow → JobRow) :
    RepoTx (Option JobRow) := fun db =>
  match db.job? j with
  | none => .ok (none, db)
  | some row =>
      if guard row then
        if h : (set row).Checks then
          .ok (some (set row), { db with jobs := db.jobs.put j ⟨set row, h⟩ })
        else .error (.sqlx (.checkViolation "jobs"))
      else .ok (none, db)

/-- `INSERT INTO jobs` with a fresh primary key. -/
def insertJob (j : JobId) (row : JobRow) : RepoTx Unit := fun db =>
  match db.job? j with
  | some _ => .error (.sqlx (.uniqueViolation "jobs_pkey"))
  | none =>
      if h : row.Checks then .ok ((), { db with jobs := db.jobs.put j ⟨row, h⟩ })
      else .error (.sqlx (.checkViolation "jobs"))

/-- `UPDATE workers SET … WHERE id = w AND guard`; whether a row was changed. -/
def updateWorker (w : WorkerId) (guard : WorkerRow → Bool) (set : WorkerRow → WorkerRow) :
    RepoTx (Option WorkerRow) := fun db =>
  match db.worker? w with
  | none => .ok (none, db)
  | some row =>
      if guard row then
        if h : (set row).Checks then
          .ok (some (set row), { db with workers := db.workers.put w ⟨set row, h⟩ })
        else .error (.sqlx (.checkViolation "workers"))
      else .ok (none, db)

/-- `INSERT INTO workers` for a worker that has no row. -/
def insertWorker (w : WorkerId) (row : WorkerRow) : RepoTx Unit := fun db =>
  if h : row.Checks then .ok ((), { db with workers := db.workers.put w ⟨row, h⟩ })
  else .error (.sqlx (.checkViolation "workers"))

/-- `INSERT INTO outbox_messages … ON CONFLICT (event_key) DO NOTHING RETURNING …`:
the inserted row, or nothing when the key is taken. -/
def insertOutbox (key subject : String) (payload : OutboxPayload)
    (traceHeaders : List (String × String)) (t : DbTime) : RepoTx (Option OutboxRow) := fun db =>
  match db.message? key with
  | some _ => .ok (none, db)
  | none =>
      let row : OutboxRow :=
        { id := db.nextOutboxId, subject := subject, payload := payload,
          traceHeaders := traceHeaders, availableAt := t.now, attempts := 0, lockedBy := none,
          lockedAt := none, publishedAt := none, lastError := none, createdAt := t.now }
      if h : row.Checks then
        .ok (some row, { db with
          outbox := db.outbox.put key ⟨row, h⟩, nextOutboxId := db.nextOutboxId + 1 })
      else .error (.sqlx (.checkViolation "outbox_messages"))

/-! ## What a statement did -/

/-- **Update.** No row matched, or the matching row was replaced by one that
satisfies the constraints. -/
theorem updateJob_commits {j : JobId} {guard : JobRow → Bool} {set : JobRow → JobRow}
    {db db' : Db} {out : Option JobRow} (h : (updateJob j guard set).Commits db out db') :
    (out = none ∧ db = db' ∧ (db.job? j).any guard = false) ∨
    ∃ row, ∃ hc : (set row).Checks, db.job? j = some row ∧ guard row = true ∧
      out = some (set row) ∧ db' = { db with jobs := db.jobs.put j ⟨set row, hc⟩ } := by
  unfold Tx.Commits updateJob at h
  cases hj : db.job? j with
  | none =>
      rw [hj] at h
      cases h
      exact Or.inl ⟨rfl, rfl, rfl⟩
  | some row =>
      rw [hj] at h
      simp only at h
      split at h
      · next hg =>
          split at h
          · next hc => cases h; exact Or.inr ⟨row, hc, rfl, hg, rfl, rfl⟩
          · cases h
      · next hg => cases h; exact Or.inl ⟨rfl, rfl, by simpa using hg⟩

theorem insertJob_commits {j : JobId} {row : JobRow} {db db' : Db} {u : Unit}
    (h : (insertJob j row).Commits db u db') :
    ∃ hc : row.Checks, db.job? j = none ∧ db' = { db with jobs := db.jobs.put j ⟨row, hc⟩ } := by
  unfold Tx.Commits insertJob at h
  cases hj : db.job? j with
  | some row' => rw [hj] at h; cases h
  | none =>
      rw [hj] at h
      simp only at h
      split at h
      · next hc => cases h; exact ⟨hc, rfl, rfl⟩
      · cases h

theorem updateWorker_commits {w : WorkerId} {guard : WorkerRow → Bool}
    {set : WorkerRow → WorkerRow} {db db' : Db} {out : Option WorkerRow}
    (h : (updateWorker w guard set).Commits db out db') :
    (out = none ∧ db = db' ∧ (db.worker? w).any guard = false) ∨
    ∃ row, ∃ hc : (set row).Checks, db.worker? w = some row ∧ guard row = true ∧
      out = some (set row) ∧ db' = { db with workers := db.workers.put w ⟨set row, hc⟩ } := by
  unfold Tx.Commits updateWorker at h
  cases hw : db.worker? w with
  | none =>
      rw [hw] at h
      cases h
      exact Or.inl ⟨rfl, rfl, rfl⟩
  | some row =>
      rw [hw] at h
      simp only at h
      split at h
      · next hg =>
          split at h
          · next hc => cases h; exact Or.inr ⟨row, hc, rfl, hg, rfl, rfl⟩
          · cases h
      · next hg => cases h; exact Or.inl ⟨rfl, rfl, by simpa using hg⟩

theorem insertWorker_commits {w : WorkerId} {row : WorkerRow} {db db' : Db} {u : Unit}
    (h : (insertWorker w row).Commits db u db') :
    ∃ hc : row.Checks, db' = { db with workers := db.workers.put w ⟨row, hc⟩ } := by
  unfold Tx.Commits insertWorker at h
  split at h
  · next hc => cases h; exact ⟨hc, rfl⟩
  · cases h

/-- **Outbox insert.** Only the outbox grows, by one unpublished row under a
fresh key, or nothing changes because the key is taken. -/
theorem insertOutbox_commits {key subject : String} {payload : OutboxPayload}
    {traceHeaders : List (String × String)} {t : DbTime} {db db' : Db} {out : Option OutboxRow}
    (h : (insertOutbox key subject payload traceHeaders t).Commits db out db') :
    (out = none ∧ db = db' ∧ (db.message? key).isSome) ∨
    ∃ row, ∃ hc : row.Checks, out = some row ∧ db.message? key = none ∧
      row.subject = subject ∧ row.payload = payload ∧ row.publishedAt = none ∧
      row.lockedBy = none ∧ row.attempts = 0 ∧ row.id = db.nextOutboxId ∧
      db' = { db with
        outbox := db.outbox.put key ⟨row, hc⟩, nextOutboxId := db.nextOutboxId + 1 } := by
  unfold Tx.Commits insertOutbox at h
  cases hk : db.message? key with
  | some row =>
      rw [hk] at h
      cases h
      exact Or.inl ⟨rfl, rfl, rfl⟩
  | none =>
      rw [hk] at h
      simp only at h
      split at h
      · next hc =>
          cases h
          exact Or.inr ⟨_, hc, rfl, rfl, rfl, rfl, rfl, rfl, rfl, rfl, rfl⟩
      · cases h

/-! ## Reading after a write -/

@[simp] theorem Db.job?_putJob (db : Db) (j : JobId) (row : JobRow) (h : row.Checks) (j' : JobId) :
    Db.job? { db with jobs := db.jobs.put j ⟨row, h⟩ } j' =
      if j' = j then some row else db.job? j' :=
  Table.row?_put db.jobs j row h j'

@[simp] theorem Db.worker?_putWorker (db : Db) (w : WorkerId) (row : WorkerRow) (h : row.Checks)
    (w' : WorkerId) :
    Db.worker? { db with workers := db.workers.put w ⟨row, h⟩ } w' =
      if w' = w then some row else db.worker? w' :=
  Table.row?_put db.workers w row h w'

@[simp] theorem Db.message?_putMessage (db : Db) (key : String) (row : OutboxRow) (h : row.Checks)
    (n : Nat) (key' : String) :
    Db.message? { db with outbox := db.outbox.put key ⟨row, h⟩, nextOutboxId := n } key' =
      if key' = key then some row else db.message? key' :=
  Table.row?_put db.outbox key row h key'

/-- A stored job row satisfies the constraints of its table. -/
theorem Db.job?_checks {db : Db} {j : JobId} {row : JobRow} (h : db.job? j = some row) :
    row.Checks :=
  Table.row?_holds h

/-- A stored worker row satisfies the constraints of its table. -/
theorem Db.worker?_checks {db : Db} {w : WorkerId} {row : WorkerRow}
    (h : db.worker? w = some row) : row.Checks :=
  Table.row?_holds h

end RunAnywhere
