import PathAcl.Storage

/-! # Log events
What the engine reports about its work: every write with its storage and row count, and the details
of reads at the finer level. An event has a level, the component it comes from, a message and
fields. -/

namespace PathAcl

/-- How important an event is, the most important first. -/
inductive Level
  | error
  | warn
  | info
  | debug
  | trace
  deriving Repr, DecidableEq, Inhabited

namespace Level

/-- The name of a level in a log line. -/
def name : Level → String
  | error => "ERROR"
  | warn => "WARN"
  | info => "INFO"
  | debug => "DEBUG"
  | trace => "TRACE"

/-- The place of a level, from one for errors to five for traces. -/
def rank : Level → Nat
  | error => 1
  | warn => 2
  | info => 3
  | debug => 4
  | trace => 5

end Level

/-- A field of an event. -/
inductive FieldValue
  | number (n : Int)
  | text (s : String)
  | flag (b : Bool)
  deriving Repr, DecidableEq

/-- Where rows are kept. -/
inductive BackendKind
  | memory
  | database
  deriving Repr, DecidableEq

/-- A **log event**. -/
inductive Event
  /-- The table in memory took rows; `rows` counts all rows of the storage. -/
  | rowsUpserted (rows : Nat)
  | treesRemoved (kept : BackendKind) (removed : Nat)
  | treeMoved (kept : BackendKind) (moved : Nat)
  | schemaStarted
  | schemaReady
  | rowsFound (reachedFrom rows : Nat)
  | inserted (id : StorageId) (rows : Nat)
  | deleted (id : StorageId) (rows : Nat)
  | loaded (id : StorageId) (rows : Nat)
  | deletedTrees (id : StorageId) (roots rows : Nat)
  | movedNowhere (path : String)
  | moved (id : StorageId) (source destination : String) (rows : Nat)
  | prolonged (id : StorageId) (paths : Nat) (days : UInt32)
  | staleResult
  | prolongedInstead (id : StorageId) (user : String) (days : UInt32)
  | resolvedMasks (id : StorageId) (paths : Nat)
  | listed (total kept : Nat)
  | engineReady (backend : String) (indexCache : Bool) (maxBatchSize : Nat)
  deriving Repr, DecidableEq

namespace Event

/-- How important the event is. -/
def level : Event → Level
  | inserted .. | deleted .. | deletedTrees .. | moved .. | prolonged .. | prolongedInstead ..
  | engineReady .. => .info
  | _ => .debug

/-- The component that reports the event. -/
def target : Event → String
  | rowsUpserted _ | treesRemoved .memory _ | treeMoved .memory _ => "pathgrant_storage::memory"
  | treesRemoved .database _ | treeMoved .database _ | schemaStarted | schemaReady =>
    "pathgrant_storage::postgres"
  | rowsFound .. => "pathgrant_domain::resolver"
  | inserted .. | deleted .. | loaded .. => "pathgrant_domain::batch"
  | deletedTrees .. | movedNowhere _ | moved .. | prolonged .. => "pathgrant_domain::migrator"
  | staleResult => "pathgrant_domain::index"
  | prolongedInstead .. | resolvedMasks .. => "pathgrant_server::handlers::permissions"
  | listed .. => "pathgrant_server::handlers::listing"
  | engineReady .. => "pathgrant_server::engine"

/-- The wording of the event. -/
def message : Event → String
  | rowsUpserted _ => "upserted permission rows"
  | treesRemoved .. | deletedTrees .. => "deleted permission trees"
  | treeMoved .. => "moved permission tree"
  | schemaStarted => "Running database migrations"
  | schemaReady => "Database migrations completed successfully"
  | rowsFound .. => "loaded applicable rows"
  | inserted .. => "inserted permissions"
  | deleted .. => "deleted permissions"
  | loaded .. => "loaded permissions"
  | movedNowhere _ => "move to same path, nothing to do"
  | moved .. => "moved permissions"
  | prolonged .. => "prolonged paths"
  | staleResult => "discarded index result computed before a concurrent write"
  | prolongedInstead .. => "prolonged instead of deleting"
  | resolvedMasks .. => "resolved masks"
  | listed .. => "applied listing overlay"
  | engineReady .. => "permission engine initialized"

/-- A storage id as a field. -/
def storageField (id : StorageId) : String × FieldValue := ("storage_id", .number id.toInt)

/-- The fields of the event besides its message. -/
def fields : Event → List (String × FieldValue)
  | rowsUpserted rows => [("rows", .number rows)]
  | treesRemoved _ rows => [("removed", .number rows)]
  | treeMoved _ rows => [("moved", .number rows)]
  | schemaStarted | schemaReady | staleResult => []
  | rowsFound reachedFrom rows => [("candidates", .number reachedFrom), ("rows", .number rows)]
  | inserted id rows | deleted id rows | loaded id rows => [storageField id, ("rows", .number rows)]
  | deletedTrees id roots rows =>
    [storageField id, ("roots", .number roots), ("rows", .number rows)]
  | movedNowhere path => [("path", .text path)]
  | moved id source destination rows =>
    [storageField id, ("source", .text source), ("destination", .text destination),
      ("rows", .number rows)]
  | prolonged id paths days =>
    [storageField id, ("paths", .number paths), ("days", .number days.toNat)]
  | prolongedInstead id user days =>
    [storageField id, ("user", .text user), ("days", .number days.toNat)]
  | resolvedMasks id paths => [storageField id, ("paths", .number paths)]
  | listed total kept => [("total", .number total), ("listed", .number kept)]
  | engineReady backend indexCache maxBatchSize =>
    [("backend", .text backend), ("index_cache", .flag indexCache),
      ("max_batch_size", .number maxBatchSize)]

end Event

end PathAcl
