import RunAnywhere.Contracts.Api
import RunAnywhere.Logic.Table
import RunAnywhere.Repository.Error
import RunAnywhere.Repository.Rows

/-!
# Uploads and their objects

`repository/src/uploads.rs` over `uploads` of `0002_uploads_runtime_profiles.up.sql`, and the
bucket the objects are in. A row is written once; it names the object and says what it holds.
-/

namespace RunAnywhere

open Logic

/-- `uploads`, without its key. -/
structure UploadObject extends UploadRow where
  s3Key : String
  sha256 : Sha256
  sizeBytes : Nat
  createdAt : Time
  deriving DecidableEq

/-- The CHECK constraints of `uploads`, and the range of `size_bytes`. -/
structure UploadObject.Checks (r : UploadObject) : Prop where
  s3Key : btrimEmpty r.s3Key = false
  sizeBytes : r.sizeBytes < 9223372036854775808

instance : DecidablePred UploadObject.Checks := fun r =>
  decidable_of_iff (btrimEmpty r.s3Key = false ∧ r.sizeBytes < 9223372036854775808)
    ⟨fun ⟨a, b⟩ => ⟨a, b⟩, fun h => ⟨h.s3Key, h.sizeBytes⟩⟩

structure StoredUpload extends UploadObject where
  id : UploadId
  deriving DecidableEq

/-- What a presigned URL lets its holder put, once or again: an object of this key, type, length
and checksum. -/
structure SignedPut where
  key : String
  contentType : String
  contentLength : Nat
  checksum : String
  deriving DecidableEq

/-- The database, the bucket, and the URLs that were given to a caller. -/
structure Depot where
  projects : List ProjectId
  uploads : Table.Checked UploadId UploadObject.Checks
  objects : Table String (List UInt8)
  handed : List SignedPut

abbrev DepotTx := Tx RepositoryError Depot

namespace Depot

def upload? (s : Depot) (id : UploadId) : Option UploadObject := s.uploads.row? id

end Depot

/-- `INSERT INTO uploads`. -/
def insertUpload (id : UploadId) (row : UploadObject) : DepotTx StoredUpload := fun s =>
  if h : row.Checks then
    if (s.upload? id).isSome then .error (.sqlx (.uniqueViolation "uploads_pkey"))
    else if s.uploads.rows.any fun x => decide (x.2.val.s3Key = row.s3Key) then
      .error (.sqlx (.uniqueViolation "uploads_s3_key_key"))
    else if row.projectId ∉ s.projects then
      .error (.sqlx (.foreignKeyViolation "uploads_project_id_fkey"))
    else .ok (⟨row, id⟩, { s with uploads := s.uploads.put id ⟨row, h⟩ })
  else .error (.sqlx (.checkViolation "uploads"))

/-- `create_upload`, under the identifier it draws. -/
def createUpload (id : UploadId) (projectId : ProjectId) (kind : UploadKind) (s3Key : String)
    (sha256 : Sha256) (sizeBytes : Nat) (now : Time) : DepotTx StoredUpload := do
  if isBlank s3Key then
    .fail (.validation "upload object key must not be blank")
  else
    let sizeBytes ← .ofExcept (checkedI64 "size_bytes" sizeBytes)
    classifyWrite (insertUpload id ⟨⟨projectId, kind⟩, s3Key, sha256, sizeBytes, now⟩)
      "upload object already exists"

/-- `get_upload`. -/
def getUpload (id : UploadId) : DepotTx (Option StoredUpload) :=
  .read fun s => (s.upload? id).map fun row => ⟨row, id⟩

/-! ## What the calls did -/

/-- An insert that commits adds one row, under an identifier and a key that were free. -/
theorem insertUpload_commits {id : UploadId} {row : UploadObject} {stored : StoredUpload}
    {s s' : Depot} (h : (insertUpload id row).Commits s stored s') :
    ∃ hchecks : row.Checks, stored = ⟨row, id⟩ ∧ s.upload? id = none ∧
      (∀ id' row', s.upload? id' = some row' → row'.s3Key ≠ row.s3Key) ∧
      row.projectId ∈ s.projects ∧ s' = { s with uploads := s.uploads.put id ⟨row, hchecks⟩ } := by
  unfold Tx.Commits insertUpload at h
  split at h
  · next hchecks =>
      split at h
      · cases h
      · next hfree =>
          split at h
          · cases h
          · next hkey =>
              split at h
              · cases h
              · next hproject =>
                  cases h
                  refine ⟨hchecks, rfl, Option.not_isSome_iff_eq_none.mp hfree, ?_,
                    not_not.mp hproject, rfl⟩
                  intro id' row' hrow' heq
                  refine hkey (List.any_eq_true.mpr ?_)
                  obtain ⟨x, hx, rfl⟩ := Option.map_eq_some_iff.mp hrow'
                  exact ⟨(id', x), (Table.mem_rows_iff _ _ _).mpr hx, decide_eq_true heq⟩
  · cases h

theorem createUpload_commits {id : UploadId} {projectId : ProjectId} {kind : UploadKind}
    {s3Key : String} {sha256 : Sha256} {sizeBytes : Nat} {now : Time} {stored : StoredUpload}
    {s s' : Depot}
    (h : (createUpload id projectId kind s3Key sha256 sizeBytes now).Commits s stored s') :
    stored = ⟨⟨⟨projectId, kind⟩, s3Key, sha256, sizeBytes, now⟩, id⟩ ∧
      (insertUpload id stored.toUploadObject).Commits s stored s' := by
  unfold createUpload at h
  split at h
  · cases h
  · obtain ⟨size, _, hsize, hinsert⟩ := Tx.bind_commits.mp h
    obtain ⟨hfits, rfl⟩ := Tx.ofExcept_commits.mp hsize
    have hsame : size = sizeBytes := by
      unfold checkedI64 at hfits
      split at hfits
      · cases hfits
        rfl
      · cases hfits
    subst hsame
    have hcommits := classifyWrite_commits.mp hinsert
    obtain ⟨_, rfl, _⟩ := insertUpload_commits hcommits
    exact ⟨rfl, hcommits⟩

end RunAnywhere
