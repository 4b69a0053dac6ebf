import RunAnywhere.Contracts.Api
import RunAnywhere.Repository.Error

/-!
# Error responses

`api/src/error.rs` and `api/src/service_error.rs`: what a client is told. The code decides the
status of the response; code, message and details are its body, with the identifier of the request,
which is left out.
-/

namespace RunAnywhere

/-- A value of `details`. -/
inductive ErrorDetail
  | text (s : String)
  | number (n : Nat)
  deriving DecidableEq

/-- What a client is told. -/
structure ApiError where
  code : ErrorCode
  message : String
  details : Option (List (String × ErrorDetail))
  deriving DecidableEq

namespace ApiError

def new (code : ErrorCode) (message : String) : ApiError := ⟨code, message, none⟩

def validation (message : String) : ApiError := new .validation message

def unauthorized : ApiError := new .unauthorized "authentication is required"

def forbidden (message : String) : ApiError := new .forbidden message

/-- `not_found`: the identifier asked for is not repeated. -/
def notFound (entity : String) : ApiError := new .notFound (entity ++ " was not found")

def conflict (message : String) : ApiError := new .conflict message

def infraFailed : ApiError :=
  new .infraFailed "a required infrastructure service is unavailable"

def internal : ApiError := new .internalError "an internal error occurred"

end ApiError

/-- `field_name`. -/
def ProjectQuota.fieldName : ProjectQuota → String
  | .outstandingJobs => "max_outstanding_jobs"
  | .concurrentJobs => "max_concurrent_jobs"

/-- `From<RepositoryError>`. -/
def ApiError.ofRepository : RepositoryError → ApiError
  | .validation message => .validation message
  | .notFound entity _ => .notFound entity
  | .conflict message => .conflict message
  | .quotaExceeded projectId quota current limit =>
      { code := .quotaExceeded
        message := "project \x60" ++ projectId ++ "\x60 reached its " ++ quota.fieldName ++ " quota"
        details := some [("current", .number current), ("limit", .number limit),
          ("project_id", .text projectId), ("quota", .text quota.fieldName)] }
  | .invalidTransition error => .conflict error.message
  | .compareAndSwapLost _ _ =>
      .conflict "the resource changed while the request was being processed"
  | .sqlx _ => .infraFailed
  | .decode _ _ => .internal

/-- `ObjectStoreError`. -/
inductive ObjectStoreError
  | invalidBucket
  | invalidObjectKey
  | invalidContentType
  | invalidPresignTtl
  | objectTooLarge
  | presign (text : String)
  | invalidPresignedUrl
  | notFound
  | head (text : String)
  | missingContentLength
  | sizeMismatch (expected actual : Nat)
  | missingChecksum
  | checksumMismatch
  deriving DecidableEq

def ObjectStoreError.message : ObjectStoreError → String
  | .invalidBucket => "object-store bucket must not be blank"
  | .invalidObjectKey => "object key must not be blank or contain control characters"
  | .invalidContentType => "content type must not be blank or contain control characters"
  | .invalidPresignTtl => "presigned URL TTL must be between one second and seven days"
  | .objectTooLarge => "object size exceeds S3's signed content-length representation"
  | .presign text => "failed to create an S3 presigned request: " ++ text
  | .invalidPresignedUrl => "S3 returned a malformed presigned URL"
  | .notFound => "object does not exist"
  | .head text => "failed to inspect the object: " ++ text
  | .missingContentLength => "object HEAD response omitted content length"
  | .sizeMismatch expected actual =>
      "object size mismatch: expected " ++ toString expected ++ " bytes, received " ++
        toString actual ++ " bytes"
  | .missingChecksum => "object HEAD response omitted the SHA-256 checksum"
  | .checksumMismatch => "object SHA-256 checksum does not match the registered upload"

/-- `service_error::object_store`. -/
def ApiError.ofObjectStore (error : ObjectStoreError) : ApiError :=
  match error with
  | .notFound | .missingContentLength | .sizeMismatch _ _ | .missingChecksum | .checksumMismatch
  | .invalidContentType | .objectTooLarge => .validation error.message
  | .presign _ | .head _ => .infraFailed
  | _ => .internal

end RunAnywhere
