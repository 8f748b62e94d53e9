import PathAcl.Store.Error

/-! # Failures of requests
Why the engine refuses a request. What the store says about the request itself is passed on as a
fault of the request; every other failure of the store stays one. -/

namespace PathAcl

/-- Why a **request** was not carried out (`DomainError`). -/
inductive RequestError
  /-- The path has no normal form. -/
  | invalidPath (path reason : String)
  | invalidInput (message : String)
  /-- The catalog does not know the storage. -/
  | storageNotFound (id : StorageId)
  /-- The request takes the storage for one of another family. -/
  | kindMismatch (id : StorageId) (actual requested : StorageKind)
  /-- Rows would be moved to where rows already are. -/
  | moveConflict (id : StorageId) (destination : String)
  | emptyBatch
  | batchTooLarge (size limit : Nat)
  /-- The store failed. -/
  | storage (error : StoreError)
  /-- A prolongation needs a user who asks for it. -/
  | missingUser
  deriving DecidableEq

namespace RequestError

/-- The wording of a failure. -/
def message : RequestError → String
  | invalidPath path reason => s!"invalid path '{path}': {reason}"
  | invalidInput message => s!"invalid input: {message}"
  | storageNotFound id => s!"storage not found: {id.toInt}"
  | kindMismatch id actual requested =>
    s!"storage {id.toInt} is {actual.name}, request names {requested.name}"
  | moveConflict id destination =>
    s!"move conflict in storage {id.toInt}: '{destination}' already has permissions"
  | emptyBatch => "batch must contain at least one item"
  | batchTooLarge size limit => s!"batch of {size} items exceeds the maximum of {limit}"
  | storage error => s!"storage error: {error.message}"
  | missingUser => "principal has no user identity"

/-- A failure of the store, as the caller of the engine sees it. -/
def ofStore : StoreError → RequestError
  | .storageNotFound id => storageNotFound id
  | .kindMismatch id registered requested => kindMismatch id registered requested
  | .destinationOccupied id path => moveConflict id path
  | .invalidInput message => invalidInput message
  | error => storage error

/-- A path that has no normal form. -/
def ofMalformed (path : String) (why : Path.Malformed) : RequestError :=
  invalidPath path why.message

end RequestError

end PathAcl
