import RunAnywhere.Api.Handlers
import RunAnywhere.Logic.Base64
import RunAnywhere.Logic.Json
import RunAnywhere.Logic.Rely
import RunAnywhere.Repository.Uploads

/-!
# Uploads

`api/src/uploads.rs`, `api/src/object_store.rs`, and the checks of `create_job` on the uploads it
refers to. A presigned URL lets a client put one object; what it signs is all that the bucket
compares.

* **checksums** — a digest in the encoding of S3 (`checksumBase64`);
* **requests** — programs of calls: signing, the repository, HEAD requests, and the answer, with
  which a URL is given away;
* **world** — clients put objects with the URLs they were given, and objects may be removed.
-/

namespace RunAnywhere

open Logic

/-! ## Checksums -/

/-- `hex_nibble`. -/
def hexNibble (c : Char) : Nat :=
  if c.isDigit then c.toNat - 48
  else if 'a' ≤ c && c ≤ 'f' then c.toNat - 97 + 10
  else 0

/-- The bytes of pairs of hexadecimal digits. -/
def hexBytes : List Char → List UInt8
  | high :: low :: rest => UInt8.ofNat (hexNibble high * 16 + hexNibble low) :: hexBytes rest
  | _ => []

/-- `checksum_base64`. -/
def checksumBase64 (sha256 : Sha256) : String :=
  String.ofList (Base64.encodeStandard (hexBytes sha256.val.toList))

/-- The value of a digit of a digest. -/
theorem hexNibble_cases {c : Char} (h : isLowerHex c = true) :
    (48 ≤ c.toNat ∧ c.toNat ≤ 57 ∧ hexNibble c = c.toNat - 48) ∨
      (97 ≤ c.toNat ∧ c.toNat ≤ 102 ∧ hexNibble c = c.toNat - 97 + 10) := by
  unfold hexNibble
  rcases isLowerHex_cases h with ⟨hdigit, hlow, hhigh⟩ | ⟨hdigit, hletter, hlow, hhigh⟩
  · rw [if_pos hdigit]
    exact Or.inl ⟨hlow, hhigh, rfl⟩
  · rw [hdigit, if_neg Bool.false_ne_true, if_pos hletter]
    exact Or.inr ⟨hlow, hhigh, rfl⟩

theorem hexNibble_inj {c d : Char} (hc : isLowerHex c = true) (hd : isLowerHex d = true)
    (h : hexNibble c = hexNibble d) : c = d := by
  refine Char.toNat_inj.mp ?_
  rcases hexNibble_cases hc with ⟨_, _, h₁⟩ | ⟨_, _, h₁⟩
  · rcases hexNibble_cases hd with ⟨_, _, h₂⟩ | ⟨_, _, h₂⟩
    · omega
    · omega
  · rcases hexNibble_cases hd with ⟨_, _, h₂⟩ | ⟨_, _, h₂⟩
    · omega
    · omega

theorem hexNibble_lt {c : Char} (h : isLowerHex c = true) : hexNibble c < 16 := by
  rcases hexNibble_cases h with ⟨_, _, hc⟩ | ⟨_, _, hc⟩
  · omega
  · omega

/-- Pairs of digits are determined by their bytes. -/
theorem hexBytes_inj {a b : List Char} (ha : ∀ c ∈ a, isLowerHex c = true)
    (hb : ∀ c ∈ b, isLowerHex c = true) (heven : a.length % 2 = 0) (hlength : a.length = b.length)
    (h : hexBytes a = hexBytes b) : a = b := by
  induction a using hexBytes.induct generalizing b with
  | case1 high low rest ih =>
      cases b with
      | nil => cases hlength
      | cons high' tail =>
          cases tail with
          | nil => simp at hlength
          | cons low' rest' =>
              simp only [List.mem_cons, forall_eq_or_imp] at ha hb
              obtain ⟨hhigh, hlow, hrest⟩ := ha
              obtain ⟨hhigh', hlow', hrest'⟩ := hb
              simp only [hexBytes, List.cons.injEq] at h
              have hbyte := congrArg UInt8.toNat h.1
              have h₁ := hexNibble_lt hhigh
              have h₂ := hexNibble_lt hlow
              have h₃ := hexNibble_lt hhigh'
              have h₄ := hexNibble_lt hlow'
              rw [UInt8.toNat_ofNat', UInt8.toNat_ofNat'] at hbyte
              simp only [List.length_cons] at heven hlength
              rw [hexNibble_inj hhigh hhigh' (by omega), hexNibble_inj hlow hlow' (by omega),
                ih hrest hrest' (by omega) (by omega) h.2]
  | case2 a hshort =>
      cases a with
      | nil => exact (List.length_eq_zero_iff.mp hlength.symm).symm
      | cons c tail =>
          cases tail with
          | nil => simp at heven
          | cons d rest => exact absurd rfl (hshort c d rest)

theorem Sha256.digits (sha256 : Sha256) :
    sha256.val.toList.length = 64 ∧ ∀ c ∈ sha256.val.toList, isLowerHex c = true := by
  obtain ⟨hsize, hall⟩ := Bool.and_eq_true_iff.mp sha256.valid
  have hdigits : ∀ c ∈ sha256.val.toList, isLowerHex c = true := by
    intro c hc
    have hdigit := List.all_eq_true.mp hall c hc
    exact hdigit
  refine ⟨?_, hdigits⟩
  have hascii : ∀ c ∈ sha256.val.toList, c.toNat < 128 := by
    intro c hc
    rcases hexNibble_cases (hdigits c hc) with ⟨_, _, _⟩ | ⟨_, _, _⟩
    · omega
    · omega
  have hlength := Json.utf8ByteSize_ascii hascii
  rw [String.ofList_toList, of_decide_eq_true hsize] at hlength
  exact hlength.symm

/-- **Checksums.** A digest is determined by the text S3 compares. -/
theorem checksumBase64_inj {a b : Sha256} (h : checksumBase64 a = checksumBase64 b) : a = b := by
  obtain ⟨hlength, hdigits⟩ := a.digits
  obtain ⟨hlength', hdigits'⟩ := b.digits
  have hbytes := Base64.encodeStandard_inj (String.ofList_injective h)
  have htext := hexBytes_inj hdigits hdigits' (by omega) (by omega) hbytes
  cases a
  cases b
  cases String.toList_injective htext
  rfl

/-! ## Keys -/

/-- `new_upload_object_key`, with the text of the UUID it draws. -/
def newUploadObjectKey (projectId : ProjectId) (kind : UploadKind) (uuid : String) : String :=
  "projects/" ++ projectId.val ++ "/uploads/" ++ Api.uploadKindName kind ++ "/" ++ uuid

/-- `validate_key`. -/
def validateKey (key : String) : Except ObjectStoreError Unit :=
  if isBlank key ∨ key.toList.any isAsciiControl then .error .invalidObjectKey else .ok ()

/-- `validate_content_type`. -/
def validateContentType (contentType : String) : Except ObjectStoreError Unit :=
  if isBlank contentType ∨ contentType.toList.any isAsciiControl then .error .invalidContentType
  else .ok ()

/-! ## The calls -/

/-- `CreateUploadRequest`. -/
structure CreateUploadRequest where
  projectId : ProjectId
  kind : UploadKind
  fileName : String
  contentType : String
  sizeBytes : Nat
  sha256 : Sha256
  deriving DecidableEq

/-- `PresignedUpload`: the URL stands for what it signs. -/
structure PresignedUpload where
  url : SignedPut
  requiredHeaders : List (String × String)
  expiresAt : Time
  deriving DecidableEq

/-- `CreateUploadResponse`. -/
structure CreateUploadResponse where
  uploadId : UploadId
  uploadUrl : SignedPut
  requiredHeaders : List (String × String)
  expiresAt : Time
  deriving DecidableEq

/-- What a HEAD request says about an object. -/
structure HeadOutput where
  contentLength : Option Int
  checksumSha256 : Option String

/-- A call of a request. `sign` is answered with the end of the URL's life, and `respond` gives the
answer of a request to the client. -/
inductive UploadCall
  | sign (put : SignedPut)
  | createUpload (id : UploadId) (projectId : ProjectId) (kind : UploadKind) (s3Key : String)
      (sha256 : Sha256) (sizeBytes : Nat)
  | getUpload (id : UploadId)
  | headObject (key : String)
  | respond (response : CreateUploadResponse)

abbrev UploadCall.Out : UploadCall → Type
  | .sign _ => Except ObjectStoreError Time
  | .createUpload _ _ _ _ _ _ => Except RepositoryError StoredUpload
  | .getUpload _ => Except RepositoryError (Option StoredUpload)
  | .headObject _ => Except ObjectStoreError HeadOutput
  | .respond _ => Unit

abbrev Uploading (ε α : Type) := Routine UploadCall UploadCall.Out ε α

def sign (put : SignedPut) : Uploading ObjectStoreError Time := Prog.perform (UploadCall.sign put)

def headObject (key : String) : Uploading ObjectStoreError HeadOutput :=
  Prog.perform (UploadCall.headObject key)

def findUpload (id : UploadId) : Uploading RepositoryError (Option StoredUpload) :=
  Prog.perform (UploadCall.getUpload id)

def storeUpload (id : UploadId) (projectId : ProjectId) (kind : UploadKind) (s3Key : String)
    (sha256 : Sha256) (sizeBytes : Nat) : Uploading RepositoryError StoredUpload :=
  Prog.perform (UploadCall.createUpload id projectId kind s3Key sha256 sizeBytes)

/-- `S3ObjectStore::presign_upload`. -/
def presignUpload (key contentType : String) (sizeBytes : Nat) (sha256 : Sha256) :
    Uploading ObjectStoreError PresignedUpload := do
  .ofExcept (validateKey key)
  .ofExcept (validateContentType contentType)
  if 9223372036854775807 < sizeBytes then
    .fail .objectTooLarge
  else
    let checksum := checksumBase64 sha256
    let put : SignedPut := ⟨key, contentType, sizeBytes, checksum⟩
    let expiresAt ← .try_ (sign put) id
    pure ⟨put, [("Content-Type", contentType), ("x-amz-checksum-sha256", checksum)], expiresAt⟩

/-- What `verify_upload` makes of a HEAD request. -/
def compareObject (expectedSize : Nat) (expectedSha256 : Sha256) (output : HeadOutput) :
    Except ObjectStoreError Unit := do
  let actualSize ← match output.contentLength with
    | some value => if 0 ≤ value then .ok value.toNat else .error .missingContentLength
    | none => .error .missingContentLength
  if actualSize ≠ expectedSize then .error (.sizeMismatch expectedSize actualSize)
  else match output.checksumSha256 with
    | none => .error .missingChecksum
    | some actualChecksum =>
        if actualChecksum ≠ checksumBase64 expectedSha256 then .error .checksumMismatch
        else .ok ()

/-- `S3ObjectStore::verify_upload`. -/
def verifyUpload (key : String) (expectedSize : Nat) (expectedSha256 : Sha256) :
    Uploading ObjectStoreError Unit := do
  .ofExcept (validateKey key)
  let output ← .try_ (headObject key) id
  .ofExcept (compareObject expectedSize expectedSha256 output)

namespace Api

/-- `HeaderValue::from_str` accepts the text. -/
def isHeaderValue (text : String) : Bool :=
  text.toList.all fun c => c = '\t' || (32 ≤ c.toNat && c.toNat ≠ 127)

/-- `validate_request`. -/
def validateUploadRequest (request : CreateUploadRequest) : Except ApiError Unit :=
  if isBlank request.fileName then .error (.validation "file_name must not be blank")
  else if request.fileName.toList.any isAsciiControl then
    .error (.validation "file_name must not contain control characters")
  else if isBlank request.contentType ∨ isHeaderValue request.contentType = false then
    .error (.validation "content_type must be a valid HTTP header value")
  else if 9223372036854775807 < request.sizeBytes then
    .error (.validation "size_bytes is too large")
  else .ok ()

/-- `create_upload`; the identifier and the UUID are drawn. -/
def createUpload (auth : AuthContext) (request : CreateUploadRequest) (id : UploadId)
    (uuid : String) : Uploading ApiError CreateUploadResponse := do
  .ofExcept (requireScope auth .projectWrite)
  .ofExcept (requireProject auth request.projectId)
  .ofExcept (validateUploadRequest request)
  let objectKey := newUploadObjectKey request.projectId request.kind uuid
  let signed ← .try_ (presignUpload objectKey request.contentType request.sizeBytes request.sha256)
    ApiError.ofObjectStore
  let stored ← .try_ (storeUpload id request.projectId request.kind objectKey request.sha256
    request.sizeBytes) ApiError.ofRepository
  let response : CreateUploadResponse :=
    ⟨stored.id, signed.url, signed.requiredHeaders, signed.expiresAt⟩
  .lift (Prog.perform (UploadCall.respond response))
  pure response

/-- `load_owned_upload`, `require_upload_kind` and `verify_upload`, for one upload of a job. -/
def checkUpload (auth : AuthContext) (id : UploadId) (kind : UploadKind) :
    Uploading ApiError Unit := do
  match ← .try_ (findUpload id) ApiError.ofRepository with
  | none => .fail (.notFound "upload")
  | some upload => do
      .ofExcept (requireOwnedResource auth upload.projectId "upload")
      .ofExcept (requireUploadKind upload.id upload.toUploadRow kind)
      .try_ (verifyUpload upload.s3Key upload.sizeBytes upload.sha256) ApiError.ofObjectStore

/-- What `create_job` checks of the uploads of a new job. -/
def checkUploads (auth : AuthContext) (apk : UploadId) (test : Option UploadId) :
    Uploading ApiError Unit := do
  if test = some apk then
    .fail (.validation "APK and test uploads must be different")
  else
    checkUpload auth apk .apk
    match test with
    | none => pure ()
    | some id => checkUpload auth id .test

end Api

/-! ## The world -/

/-- How a call went: answered; a call of the repository lost before or after it committed; refused
by the client or the bucket; or a HEAD answer without some of its fields. -/
inductive UploadFate
  | answered (now : Time)
  | lost (now : Time) (committed : Bool)
  | refused (error : ObjectStoreError)
  | omitted (contentLength checksum : Bool)

/-- The errors of signing and of HEAD requests. -/
def signFails : ObjectStoreError → Bool
  | .presign _ | .invalidPresignedUrl | .invalidPresignTtl => true
  | _ => false

def headFails : ObjectStoreError → Bool
  | .head _ => true
  | _ => false

section World

variable (digest : List UInt8 → Sha256)

/-- The bucket's answer to a HEAD request. -/
def Depot.head (s : Depot) (key : String) : Except ObjectStoreError HeadOutput :=
  match s.objects.get? key with
  | some content => .ok ⟨some content.length, some (checksumBase64 (digest content))⟩
  | none => .error .notFound

/-- A call under its fate, `none` when it cannot go so. -/
def UploadCall.perform (s : Depot) : (x : UploadCall) → UploadFate → Option (x.Out × Depot)
  | .sign _, .answered now => some (.ok now, s)
  | .sign _, .refused e => if signFails e then some (.error e, s) else none
  | .createUpload id projectId kind s3Key sha256 sizeBytes, .answered now =>
      some ((RunAnywhere.createUpload id projectId kind s3Key sha256 sizeBytes now).exec s)
  | .createUpload id projectId kind s3Key sha256 sizeBytes, .lost now committed =>
      some (.error (.sqlx .connection), if committed then
        ((RunAnywhere.createUpload id projectId kind s3Key sha256 sizeBytes now).exec s).2 else s)
  | .getUpload id, .answered _ => some ((RunAnywhere.getUpload id).exec s)
  | .getUpload _, .lost _ _ => some (.error (.sqlx .connection), s)
  | .headObject key, .answered _ => some (s.head digest key, s)
  | .headObject _, .refused e => if headFails e then some (.error e, s) else none
  | .headObject key, .omitted contentLength checksum =>
      some ((s.head digest key).map fun output =>
        ⟨if contentLength then none else output.contentLength,
          if checksum then none else output.checksumSha256⟩, s)
  | .respond response, .answered _ => some ((), { s with handed := response.uploadUrl :: s.handed })
  | .respond _, .lost _ _ => some ((), s)
  | _, _ => none

/-- Moves of others: projects are made, clients put objects with URLs they were given, objects are
removed. -/
inductive DepotMove
  | createProject (id : ProjectId)
  | put (url : SignedPut) (content : List UInt8)
  | removeObject (key : String)

def Depot.move (s : Depot) : DepotMove → Option Depot
  | .createProject id => some { s with projects := id :: s.projects }
  | .put url content =>
      if url ∈ s.handed ∧ content.length = url.contentLength ∧
          checksumBase64 (digest content) = url.checksum then
        some { s with objects := s.objects.put url.key content }
      else none
  | .removeObject key => some { s with objects := s.objects.erase key }

/-- A request that makes an upload, or the checks of one that makes a job. -/
inductive UploadTask
  | createUpload (auth : AuthContext) (request : CreateUploadRequest) (id : UploadId)
      (uuid : String)
  | checkUploads (auth : AuthContext) (apk : UploadId) (test : Option UploadId)

/-- What a request comes to. -/
inductive UploadAnswer
  | created (response : CreateUploadResponse)
  | checked
  deriving DecidableEq

def UploadTask.prog : UploadTask → Uploading ApiError UploadAnswer
  | .createUpload auth request id uuid => do
      let response ← Api.createUpload auth request id uuid
      pure (.created response)
  | .checkUploads auth apk test => do
      Api.checkUploads auth apk test
      pure .checked

/-- Any number of requests over one database and one bucket. -/
def uploadMachine : Machine Depot UploadCall UploadCall.Out UploadTask
    (Except ApiError UploadAnswer) UploadFate DepotMove where
  perform := UploadCall.perform digest
  prog := UploadTask.prog
  enabled _ _ := true
  survives _ := false
  env := Depot.move digest
  crash s := s

end World

end RunAnywhere
