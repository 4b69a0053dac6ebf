import RunAnywhere.Repository.Run

/-!
# Artifacts

`add_artifact` (`repository/src/jobs.rs`) and table `artifacts`. The lifecycle reads of an
artifact only whose it is, and the catalog keeps that; an `Archive` has the rows themselves
beside the database. Calls of the repository and records of artifacts interleave in any order
(`archive`), and no call changes an artifact that was recorded (`archive_artifact`).
-/

namespace RunAnywhere

open Logic

/-- Table `artifacts`. -/
structure ArtifactRow where
  jobId : JobId
  kind : ArtifactKind
  s3Key : String
  fileName : Option String
  sizeBytes : Nat
  sha256 : Sha256
  createdAt : Time
  deriving DecidableEq

/-- The CHECK constraints of table `artifacts`, and the range of its BIGINT. -/
structure ArtifactRow.Checks (r : ArtifactRow) : Prop where
  s3Key : btrimEmpty r.s3Key = false
  fileName : ∀ name ∈ r.fileName, btrimEmpty name = false
  sizeRange : r.sizeBytes < 9223372036854775808

instance : DecidablePred ArtifactRow.Checks := fun r =>
  decidable_of_iff
    (btrimEmpty r.s3Key = false ∧ (∀ name ∈ r.fileName, btrimEmpty name = false) ∧
      r.sizeBytes < 9223372036854775808)
    ⟨fun ⟨h1, h2, h3⟩ => ⟨h1, h2, h3⟩, fun ⟨h1, h2, h3⟩ => ⟨h1, h2, h3⟩⟩

structure StoredArtifact where
  artifact : Artifact
  s3Key : String
  deriving DecidableEq

/-- `TryFrom<ArtifactRow>`. -/
def ArtifactRow.intoStored (id : ArtifactId) (r : ArtifactRow) : StoredArtifact where
  artifact :=
    { id := id, jobId := r.jobId, kind := r.kind, fileName := r.fileName, sizeBytes := r.sizeBytes,
      sha256 := r.sha256, createdAt := r.createdAt, downloadUrl := none, downloadExpiresAt := none }
  s3Key := r.s3Key

/-- The database with its artifacts. -/
structure Archive where
  db : Db
  artifacts : Table.Checked ArtifactId ArtifactRow.Checks

namespace Archive

/-- The row of artifact `id`. -/
def artifact? (a : Archive) (id : ArtifactId) : Option ArtifactRow := a.artifacts.row? id

/-- The artifact of job `j` under an object key, unique by `artifacts_job_s3_key_key`. -/
def artifactByKey? (a : Archive) (j : JobId) (s3Key : String) :
    Option (ArtifactId × ArtifactRow) :=
  (a.artifacts.rows.find? fun x =>
    decide (x.2.val.jobId = j) && decide (x.2.val.s3Key = s3Key)).map fun x => (x.1, x.2.val)

/-- The migrated database before any operation. -/
def empty (catalog : Catalog) : Archive where
  db := Db.empty { catalog with artifacts := Table.empty }
  artifacts := Table.empty

end Archive

abbrev ArchiveTx := Tx RepositoryError Archive

/-- `INSERT INTO artifacts … ON CONFLICT (job_id, s3_key) DO NOTHING RETURNING …`. -/
def insertArtifact (id : ArtifactId) (row : ArtifactRow) : ArchiveTx (Option ArtifactRow) :=
  fun a =>
    if h : row.Checks then
      match a.artifactByKey? row.jobId row.s3Key, a.artifact? id, a.db.job? row.jobId with
      | some _, _, _ => .ok (none, a)
      | none, some _, _ => .error (.sqlx (.uniqueViolation "artifacts_pkey"))
      | none, none, none => .error (.sqlx (.foreignKeyViolation "artifacts_job_id_fkey"))
      | none, none, some _ =>
          let catalog := { a.db.catalog with artifacts := a.db.catalog.artifacts.put id row.jobId }
          .ok (some row, ⟨{ a.db with catalog := catalog }, a.artifacts.put id ⟨row, h⟩⟩)
    else .error (.sqlx (.checkViolation "artifacts"))

/-- The inserted row, or the one the object key already has. -/
def storedArtifact (id : ArtifactId) (j : JobId) (s3Key : String) :
    Option ArtifactRow → ArchiveTx StoredArtifact
  | some row => pure (row.intoStored id)
  | none => do
      let found ← .read fun a => a.artifactByKey? j s3Key
      .okOr (found.map fun x => x.2.intoStored x.1) (.sqlx .rowNotFound)

/-- `add_artifact`; `id` is the random identifier `new_id("art_")` draws. -/
def addArtifact (id : ArtifactId) (j : JobId) (kind : ArtifactKind) (s3Key : String)
    (fileName : Option String) (sizeBytes : Nat) (sha256 : Sha256) (t : DbTime) :
    ArchiveTx StoredArtifact := do
  .require (!isBlank s3Key) (.validation "artifact object key must not be blank")
  .require (!fileName.any isBlank) (.validation "artifact file name must not be blank")
  let size ← .ofExcept (checkedI64 "size_bytes" sizeBytes)
  let inserted ← insertArtifact id
    { jobId := j, kind := kind, s3Key := s3Key, fileName := fileName, sizeBytes := size,
      sha256 := sha256, createdAt := t.now }
  let stored ← storedArtifact id j s3Key inserted
  .require (decide (stored.artifact.kind = kind) && decide (stored.artifact.fileName = fileName) &&
      decide (stored.artifact.sizeBytes = sizeBytes) && decide (stored.artifact.sha256 = sha256))
    (.conflict "artifact object key was already recorded with different metadata")
  pure stored

/-! ## Runs -/

/-- One call on the archive as it happened. -/
inductive ArchiveCall
  | repository (call : Call)
  | addArtifact (id : ArtifactId) (j : JobId) (kind : ArtifactKind) (s3Key : String)
      (fileName : Option String) (sizeBytes : Nat) (sha256 : Sha256) (t : DbTime)
      (answer : Except RepositoryError StoredArtifact)

/-- Any interleaving of repository calls and records of artifacts; administration leaves the
artifacts alone. -/
def archive : TSys Archive ArchiveCall where
  init a := ∃ catalog, a = Archive.empty catalog
  step a call a' := match call with
    | .repository call => (repository fun _ => True).step a.db call a'.db ∧
        a'.artifacts = a.artifacts ∧ a'.db.catalog.artifacts = a.db.catalog.artifacts
    | .addArtifact id j kind s3Key fileName sizeBytes sha256 t answer =>
        (RunAnywhere.addArtifact id j kind s3Key fileName sizeBytes sha256 t).exec a = (answer, a')

/-- **Recording.** A committed `addArtifact` stores one artifact under a fresh identifier, or
changes nothing because the object key is taken. -/
theorem addArtifact_commits {id : ArtifactId} {j : JobId} {kind : ArtifactKind} {s3Key : String}
    {fileName : Option String} {sizeBytes : Nat} {sha256 : Sha256} {t : DbTime} {a a' : Archive}
    {stored : StoredArtifact}
    (h : (addArtifact id j kind s3Key fileName sizeBytes sha256 t).Commits a stored a') :
    a' = a ∨ ∃ row, ∃ hc : row.Checks, a.artifact? id = none ∧ a' =
      ⟨{ a.db with catalog :=
          { a.db.catalog with artifacts := a.db.catalog.artifacts.put id row.jobId } },
        a.artifacts.put id ⟨row, hc⟩⟩ := by
  simp only [addArtifact, Tx.bind_commits, Tx.require_commits, Tx.ofExcept_commits,
    Tx.pure_commits] at h
  obtain ⟨_, _, ⟨_, rfl⟩, _, _, ⟨_, rfl⟩, size, _, ⟨_, rfl⟩, inserted, a₁, hins, _, a₂, hstored,
    _, _, ⟨_, rfl⟩, _, rfl⟩ := h
  have hkept : a₁ = a₂ := by
    cases inserted with
    | none =>
        simp only [storedArtifact, Tx.bind_commits, Tx.read_commits, Tx.okOr_commits] at hstored
        obtain ⟨_, _, ⟨_, rfl⟩, _, rfl⟩ := hstored
        rfl
    | some row => exact (Tx.pure_commits.mp hstored).2
  subst hkept
  unfold Tx.Commits insertArtifact at hins
  split at hins
  · next hc =>
      split at hins
      · cases hins
        exact Or.inl rfl
      · cases hins
      · cases hins
      · next hnone _ =>
          cases hins
          exact Or.inr ⟨_, hc, hnone, rfl⟩
  · cases hins

/-- The database of the archive runs as the repository does: recording an artifact is, to it,
administration. -/
theorem archive_repository : TSys.Proj archive (repository fun _ => True) Archive.db := by
  constructor
  · rintro a ⟨catalog, rfl⟩
    exact ⟨_, rfl⟩
  · intro a call a' _ hstep
    cases call with
    | repository call => exact ⟨[call], .single hstep.1⟩
    | addArtifact id j kind s3Key fileName sizeBytes sha256 t answer =>
        rcases Tx.exec_cases (addArtifact id j kind s3Key fileName sizeBytes sha256 t) a with
          ⟨stored, a₁, hc, hexec⟩ | ⟨e, _, hexec⟩
        · rw [hstep] at hexec
          obtain ⟨_, rfl⟩ := Prod.mk.inj hexec
          rcases addArtifact_commits hc with rfl | ⟨row, _, _, rfl⟩
          · exact ⟨[], .nil _⟩
          · generalize { a.db.catalog with
                artifacts := a.db.catalog.artifacts.put id row.jobId } = catalog
            refine ⟨[⟨.setCatalog catalog, t, .ok ()⟩], .single ?_⟩
            exact repository_step_of_commits trivial (Tx.write_commits.mpr rfl)
        · rw [hstep] at hexec
          obtain ⟨_, rfl⟩ := Prod.mk.inj hexec
          exact ⟨[], .nil _⟩

/-- **Artifacts stay.** A step keeps every artifact as it was recorded. -/
theorem archive_artifact {a a' : Archive} {call : ArchiveCall} (hstep : archive.step a call a')
    {id : ArtifactId} {row : ArtifactRow} (hrow : a.artifact? id = some row) :
    a'.artifact? id = some row := by
  cases call with
  | repository call =>
      obtain ⟨_, hsame, _⟩ := hstep
      rw [Archive.artifact?, hsame]
      exact hrow
  | addArtifact id' j kind s3Key fileName sizeBytes sha256 t answer =>
      rcases Tx.exec_cases (addArtifact id' j kind s3Key fileName sizeBytes sha256 t) a with
        ⟨stored, a₁, hc, hexec⟩ | ⟨e, _, hexec⟩
      · have heq : a' = a₁ := congrArg Prod.snd ((Eq.symm hstep).trans hexec)
        subst heq
        rcases addArtifact_commits hc with rfl | ⟨new, hnew, hnone, rfl⟩
        · exact hrow
        · have hne : id ≠ id' := by
            rintro rfl
            rw [hnone] at hrow
            cases hrow
          exact (Table.row?_put_of_ne _ _ hnew hne).trans hrow
      · have heq : a' = a := congrArg Prod.snd ((Eq.symm hstep).trans hexec)
        rw [heq]
        exact hrow

end RunAnywhere
