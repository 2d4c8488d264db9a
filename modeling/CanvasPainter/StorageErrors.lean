import CanvasPainter.UploadFetcher

namespace CanvasPainter

inductive FIRStorageErrorCode where
  | unknown
  | objectNotFound
  | bucketNotFound
  | projectNotFound
  | quotaExceeded
  | unauthenticated
  | unauthorized
  | retryLimitExceeded
  | nonMatchingChecksum
  | downloadSizeExceeded
  | cancelled
  | invalidArgument
  deriving DecidableEq, Repr

-- The keys of an error's dictionary that some message or reader of it needs.
structure ErrorDictionary where
  bucket : Option String
  object : Option String
  project : Option String
  totalSize : Option Int
  maxAllowedSize : Option Int
  failureReason : Option String
  responseErrorDomain : Option NSErrorDomain
  responseErrorCode : Option Int
  responseBody : Option String
  deriving DecidableEq, Repr

structure FIRStorageError where
  code : FIRStorageErrorCode
  localizedDescription : String
  userInfo : ErrorDictionary
  deriving DecidableEq, Repr

namespace FIRStorageErrors

def noInfo : ErrorDictionary := ⟨none,none,none,none,none,none,none,none,none⟩

-- What %@ prints.
def printed (value : Option String) : String := value.getD "(null)"

-- A total of 0, as a missing one reads, hides both sizes.
def printedSize (total size : Int) : String := if total ≠ 0 then toString size else "unknown"

def errorMessage (info : ErrorDictionary) : FIRStorageErrorCode → String
  | .objectNotFound => "Object " ++ printed info.object ++ " does not exist."
  | .bucketNotFound => "Bucket " ++ printed info.bucket ++ " does not exist."
  | .projectNotFound => "Project " ++ printed info.project ++ " does not exist."
  | .quotaExceeded => "Quota for bucket " ++ printed info.bucket ++ " exceeded, please view quota on firebase.google.com."
  | .downloadSizeExceeded =>
    let total := info.totalSize.getD 0
    let size := info.maxAllowedSize.getD 0
    "Attempted to download object with size of " ++ printedSize total total ++
      " bytes, which exceeds the maximum size of " ++ printedSize total size ++
      " bytes. Consider raising the maximum download size, or using [FIRStorageReference writeToFile:]"
  | .unauthenticated => "User is not authenticated, please authenticate using Firebase Authentication and try again."
  | .unauthorized =>
    "User does not have permission to access gs://" ++ printed info.bucket ++ "/" ++ printed info.object ++ "."
  | .retryLimitExceeded => "Max retry time for operation exceeded, please try again."
  | .nonMatchingChecksum =>
    "Uploaded/downloaded object object has checksum: client checksum which does not match server checksum: " ++
      "server checksum. Please retry the upload/download."
  | .cancelled => "User cancelled the upload/download."
  | _ => "An unknown error occurred, please check the server response."

def errorWithCode (code : FIRStorageErrorCode) (info : ErrorDictionary) : FIRStorageError :=
  ⟨code,errorMessage info code,info⟩

def serverErrorCode (code : Int) : FIRStorageErrorCode :=
  if code = 400 then .unknown
  else if code = 401 then .unauthenticated
  else if code = 402 then .quotaExceeded
  else if code = 403 then .unauthorized
  else if code = 404 then .objectNotFound
  else .unknown

-- The response data is kept under the key of the status errors.
def responseBody : UserInfo → Option String
  | .statusData data => some ((String.fromUTF8? ⟨data.toArray⟩).getD "No Response from Server.")
  | _ => none

def errorWithServerError (error : NSError) (bucket : String) (object : Option String) : FIRStorageError :=
  errorWithCode (serverErrorCode error.code) {noInfo with
    bucket := some bucket
    object := object
    responseErrorDomain := some error.domain
    responseErrorCode := some error.code
    responseBody := responseBody error.userInfo}

def errorWithInvalidRequest (request : Option NSData) : FIRStorageError :=
  let requestString := String.fromUTF8? ⟨(request.getD []).toArray⟩
  errorWithCode .unknown {noInfo with
    failureReason := some ("Invalid data returned from the server: " ++ printed requestString)}

end FIRStorageErrors
end CanvasPainter
