import Mathlib.Data.Prod.Lex
import Mathlib.Data.String.Basic
import RunAnywhere.Logic.Listing
import RunAnywhere.Repository.Artifacts
import RunAnywhere.Repository.Cursors

/-!
# Paged listings

`list_jobs` and `list_artifacts_page` (`repository/src/jobs.rs`), `list_workers_page`
(`workers.rs`) and `list_runtime_profiles_page` (`uploads.rs`). Each compares the key columns
as a row value, `(created_at, id) < ($1, $2)` or with `>`, orders by them, fetches one row too
many and takes the next cursor from the last row it keeps: `Keyset.page` over the key columns,
in the dual order where the listing is descending. Text columns compare as strings.
-/

namespace RunAnywhere

open Logic

instance {pre : String} : LinearOrder (Ident pre) :=
  LinearOrder.lift' Ident.val fun _ _ h => Ident.ext h

/-- `JobListQuery`. -/
structure JobListQuery where
  projectId : ProjectId
  state : Option JobState
  cursor : Option String
  limit : Nat
  deriving DecidableEq

/-- `JobListQuery::DEFAULT_LIMIT`. -/
def JobListQuery.defaultLimit : Nat := 50

/-- `CONTROL_PLANE_PAGE_SIZE`. -/
def controlPlanePageSize : Nat := 50

/-- `ORDER BY created_at DESC, id DESC` for jobs. -/
abbrev JobKey := (Time ×ₗ JobId)ᵒᵈ

/-- `ORDER BY created_at DESC, id DESC` for artifacts, whose cursor has a bare text. -/
abbrev ArtifactKey := (Time ×ₗ String)ᵒᵈ

/-- `ORDER BY registered_at, id`. -/
abbrev WorkerKey := Time ×ₗ String

def JobCursor.key (c : JobCursor) : JobKey := .toDual (toLex (c.createdAt, c.jobId))

def ArtifactCursor.key (c : ArtifactCursor) : ArtifactKey :=
  .toDual (toLex (c.createdAt, c.artifactId))

def WorkerCursor.key (c : WorkerCursor) : WorkerKey := toLex (c.registeredAt, c.workerId)

/-- The cursor behind the last row of a page that has a next one. -/
def nextCursor {R : Type} (page : List R × Bool) (encode : R → Except RepositoryError String) :
    Except RepositoryError (Option String) :=
  if page.2 then page.1.getLast?.mapM encode else .ok none

/-- `list_jobs`. -/
def listJobs (codec : CursorCodec) (query : JobListQuery) : RepoTx (Page JobSummary String) := do
  checkedLimit query.limit
  let cursor ← .ofExcept (query.cursor.mapM (JobCursor.decode codec))
  let page ← .read fun db =>
    let rows := (db.jobs.rows.map fun x => (x.1, x.2.val)).filter fun x =>
      decide (x.2.projectId = query.projectId) && query.state.all fun s => decide (x.2.state = s)
    Keyset.page (fun x => JobCursor.key ⟨x.2.createdAt, x.1⟩) query.limit
      (cursor.map JobCursor.key) rows
  let next ← .ofExcept (nextCursor page fun x => JobCursor.encode codec ⟨x.2.createdAt, x.1⟩)
  pure ⟨page.1.map fun x => x.2.toSummary x.1, next⟩

/-- `list_artifacts_page`. -/
def listArtifactsPage (codec : CursorCodec) (j : JobId) (cursor : Option String) :
    ArchiveTx (Page StoredArtifact String) := do
  let cursor ← .ofExcept
    (cursor.mapM (decodeRouteCursor codec (ArtifactCursor.serde codec) "job_artifacts"))
  .require (cursor.all fun c => decide (c.jobId = j.val))
    (.validation "artifact cursor belongs to a different job")
  let page ← .read fun a =>
    let rows := (a.artifacts.rows.map fun x => (x.1, x.2.val)).filter fun x =>
      decide (x.2.jobId = j)
    Keyset.page (fun x => ArtifactCursor.key ⟨j.val, x.2.createdAt, x.1.val⟩)
      controlPlanePageSize (cursor.map ArtifactCursor.key) rows
  let next ← .ofExcept (nextCursor page fun x =>
    encodeRouteCursor codec (ArtifactCursor.serde codec) "job_artifacts"
      ⟨j.val, x.2.createdAt, x.1.val⟩)
  pure ⟨page.1.map fun x => x.2.intoStored x.1, next⟩

/-- `list_workers_page`. -/
def listWorkersPage (codec : CursorCodec) (cursor : Option String) :
    RepoTx (Page WorkerStatus String) := do
  let cursor ← .ofExcept
    (cursor.mapM (decodeRouteCursor codec (WorkerCursor.serde codec) "workers"))
  let page ← .read fun db =>
    Keyset.page (fun x => WorkerCursor.key ⟨x.2.registeredAt, x.1.val⟩) controlPlanePageSize
      (cursor.map WorkerCursor.key) (db.workers.rows.map fun x => (x.1, x.2.val))
  let next ← .ofExcept (nextCursor page fun x =>
    encodeRouteCursor codec (WorkerCursor.serde codec) "workers" ⟨x.2.registeredAt, x.1.val⟩)
  pure ⟨page.1.map fun x => x.2.intoStatus x.1, next⟩

/-- `list_runtime_profiles_page`: each row is validated as it is decoded. -/
def listRuntimeProfilesPage (codec : CursorCodec) (cursor : Option String) :
    RepoTx (Page RuntimeProfile String) := do
  let cursor ← .ofExcept
    (cursor.mapM (decodeRouteCursor codec RuntimeProfileCursor.serde "runtime_profiles"))
  let page ← .read fun db =>
    Keyset.page (fun x => x.1.val) controlPlanePageSize
      (cursor.map RuntimeProfileCursor.profileId) db.catalog.runtimeProfiles.rows
  let next ← .ofExcept (nextCursor page fun x =>
    encodeRouteCursor codec RuntimeProfileCursor.serde "runtime_profiles" ⟨x.1.val⟩)
  let items := page.1.map fun x => x.2.intoProfile x.1
  .require (items.all (·.isValid)) (.decode "runtime_profiles"
    "runtime kind BrowserNativeWasm is reserved and is not valid in Part 01 profiles")
  pure ⟨items, next⟩

end RunAnywhere
