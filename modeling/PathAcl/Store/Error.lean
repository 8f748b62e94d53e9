import PathAcl.Time.Span
import PathAcl.Validity

/-! # Failures of a store -/

namespace PathAcl

/-- Why a store did not do what it was asked (`StorageError`). -/
inductive StoreError
  | storageNotFound (id : StorageId)
  /-- The storage is known under another family. -/
  | kindMismatch (id : StorageId) (registered requested : StorageKind)
  /-- Rows would be moved to where rows already are. -/
  | destinationOccupied (id : StorageId) (path : String)
  | connection (message : String)
  | query (message : String)
  | transaction (message : String)
  /-- The database did not answer in time. -/
  | timeout (operation : String) (limit : Span)
  | invalidInput (message : String)
  | healthCheck (message : String)
  /-- The store contradicts itself. -/
  | internal (message : String)
  deriving DecidableEq

namespace StoreError

/-- The wording of a failure. -/
def message : StoreError → String
  | storageNotFound id => s!"storage not found: {id.toInt}"
  | kindMismatch id registered requested =>
    s!"storage {id.toInt} is registered as {registered.name}, not {requested.name}"
  | destinationOccupied id path =>
    s!"destination already has permissions in storage {id.toInt}: {path}"
  | connection message => s!"database connection error: {message}"
  | query message => s!"database query error: {message}"
  | transaction message => s!"transaction error: {message}"
  | timeout operation limit => s!"query timeout: {operation} exceeded {limit.text}"
  | invalidInput message => s!"invalid input: {message}"
  | healthCheck message => s!"health check failed: {message}"
  | internal message => s!"internal storage error: {message}"

/-- A fault of an argument as a failure of the store. -/
def ofFault (fault : Fault) : StoreError := .invalidInput fault.message

end StoreError

end PathAcl
