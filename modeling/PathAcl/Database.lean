import PathAcl.Database.Operations
import PathAcl.Store

/-! # The database
A store whose rows a database keeps. Its state is the connection: who answers at the other end, and
what was sent so far. Arguments are checked before anything is sent, requests that can only be empty
send nothing, and every query is timed. -/

namespace PathAcl

/-- A **connection** to a database, with the time limits of its operations
(`PostgresPermissionStore`). -/
structure Connection where
  readLimit : Span
  writeLimit : Span
  healthLimit : Span
  /-- The size of the connection pool. -/
  maxConnections : UInt32
  peer : Database.Peer
  /-- The statements sent so far. -/
  sent : List Database.Exchange

/-! ## Settings -/

/-- How to connect to a database (`PostgresConfig`). -/
structure DatabaseSettings where
  url : String
  maxConnections : UInt32
  minConnections : UInt32
  connectSeconds : UInt64
  /-- The limit of reads and writes that have none of their own. -/
  querySeconds : UInt64
  readSeconds : Option UInt64
  writeSeconds : Option UInt64
  healthSeconds : UInt64
  deriving Repr, DecidableEq

namespace DatabaseSettings

/-- The settings of a local database. -/
def default : DatabaseSettings :=
  ⟨"postgres://localhost/pathgrant", 10, 1, 30, 30, none, none, 5⟩

instance : Inhabited DatabaseSettings := ⟨default⟩

/-- A limit that may be absent. -/
def limitText : Option UInt64 → String
  | none => "None"
  | some n => s!"Some({n.toNat})"

/-- The settings for a log; the address stays hidden. -/
def text (s : DatabaseSettings) : String :=
  "PostgresConfig \x7b database_url: \"[REDACTED]\", " ++
  s!"max_connections: {s.maxConnections.toNat}, min_connections: {s.minConnections.toNat}, " ++
  s!"connect_timeout_secs: {s.connectSeconds.toNat}, " ++
  s!"query_timeout_secs: {s.querySeconds.toNat}, " ++
  s!"read_timeout_secs: {limitText s.readSeconds}, " ++
  s!"write_timeout_secs: {limitText s.writeSeconds}, " ++
  s!"health_check_timeout_secs: {s.healthSeconds.toNat} \x7d"

/-- A connection with these settings (`from_config`). -/
def connect (s : DatabaseSettings) (peer : Database.Peer) : Connection :=
  let limit (own : Option UInt64) := Span.ofSeconds (own.getD s.querySeconds).toNat
  ⟨limit s.readSeconds, limit s.writeSeconds, .ofSeconds s.healthSeconds.toNat, s.maxConnections,
    peer, []⟩

end DatabaseSettings

namespace Connection

open Database

/-- A connection of a pool of one with the usual limits. -/
def plain (peer : Peer) : Connection :=
  { DatabaseSettings.default.connect peer with maxConnections := 1 }

/-- The connection for a log. -/
def text (c : Connection) : String :=
  "PostgresPermissionStore \x7b pool: \"PgPool\", " ++
  s!"read_timeout: {c.readLimit.text}, write_timeout: {c.writeLimit.text} \x7d"

/-! ## Timed dialogues -/

/-- Holds a dialogue; it has no result if the peer never answers. -/
def hold {α : Type} (d : Dialogue α) :
    Action Connection StoreError (Option (Except StoreError α)) := fun c =>
  let spoken := d.hold c.peer
  ⟨.ok spoken.result, { c with peer := spoken.peer, sent := c.sent ++ spoken.sent }, []⟩

/-- Reports measures. -/
def measure (measures : List Measure) : Action Connection StoreError Unit := fun c =>
  ⟨.ok (), c, measures.map Note.measure⟩

/-- Holds a dialogue and reports how it ended; a peer that never answers runs into the limit
(`execute_with_timeout_and_metrics`). -/
def timed {α : Type} (operation : Operation) (limit : Connection → Span)
    (measures : QueryStatus → List Measure) (d : Dialogue α) : Action Connection StoreError α := do
  match ← hold d with
  | some (.ok x) =>
    measure (measures .success)
    pure x
  | some (.error e) =>
    measure (measures .error)
    .fail e
  | none =>
    measure (measures .timeout ++ [.queryTimeout operation])
    .fail (.timeout operation.name (limit (← Action.get)))

/-- Holds the dialogue of a read (`execute_read`). -/
def reading {α : Type} (operation : Operation) (d : Dialogue α) : Action Connection StoreError α :=
  timed operation readLimit (fun s => [.queryTime operation s]) d

/-- Holds the dialogue of a write (`execute_write`). -/
def writing {α : Type} (operation : Operation) (d : Dialogue α) : Action Connection StoreError α :=
  timed operation writeLimit (fun s => [.queryTime operation s]) d

/-- A fault of an argument refuses the operation. -/
def require (check : Except Fault Unit) : Action Connection StoreError Unit :=
  .ofExcept (check.mapError .ofFault)

/-! ## Operations -/

/-- Makes a storage known, or checks its kind (`register_storage`). -/
def register (storage : StorageRef) : Action Connection StoreError Unit := do
  require (Validity.checkStorageId storage.id)
  writing .registerStorage (Database.register storage)

/-- The kind of a storage; a name that is none is refused as input (`storage_kind`). -/
def kindOf (id : StorageId) : Action Connection StoreError (Option StorageKind) := do
  match ← reading .storageKind (Database.kindOf id) with
  | none => pure none
  | some text => some <$> Action.ofExcept (named StorageKind.ofName text)

/-- Writes rows, the last of each key (`upsert_permissions`). Answers them without asking for them
back. -/
def upsert (storage : StorageRef) (rows : List Permission) :
    Action Connection StoreError (List Permission) := do
  require (Validity.checkStorageId storage.id)
  require (Validity.checkAll Validity.checkPermission rows)
  let kept := Permission.keepLast rows
  writing .upsertPermissions (Database.upsert storage kept)
  pure kept

/-- Drops rows (`delete_permissions`). The answer is what the database returns, read after the
transaction has ended. -/
def delete (id : StorageId) (keys : List PermissionKey) :
    Action Connection StoreError (List PermissionKey) := do
  require (Validity.checkStorageId id)
  require (Validity.checkAll Validity.checkKey keys)
  if keys.isEmpty then pure []
  else
    let rows ← writing .deletePermissions (Database.delete id keys)
    .ofExcept (readAll keyOfRow rows)

/-- The rows held at the places (`load_permissions`). -/
def load (id : StorageId) (places : List PathRef) :
    Action Connection StoreError (List Permission) := do
  require (Validity.checkStorageId id)
  if places.isEmpty then pure []
  else
    let rows ← reading .loadPermissions (Database.load id places)
    .ofExcept (readAll permissionOfRow rows)

/-- The rows that the sids hold at the places (`find_applicable`). -/
def loadHeld (id : StorageId) (places : List PathRef) (sids : List Sid) :
    Action Connection StoreError (List Permission) := do
  require (Validity.checkStorageId id)
  if places.isEmpty || sids.isEmpty then pure []
  else
    let rows ← reading .loadHeld (Database.loadHeld id places sids)
    .ofExcept (readAll permissionOfRow rows)

/-- Drops the rows that the roots govern (`delete_trees`). The answer is read after the transaction has
ended. -/
def deleteUnder (id : StorageId) (roots : List PathRef) :
    Action Connection StoreError (List PermissionKey) := do
  require (Validity.checkStorageId id)
  require (Validity.checkAll (fun r => Validity.checkPath r.path) roots)
  if roots.isEmpty then pure []
  else
    let rows ← writing .deleteUnder (Database.deleteUnder id roots)
    .log (.treesRemoved .database rows.length)
    .ofExcept (readAll keyOfRow rows)

/-- Moves the rows that the source governs to a free destination (`move_tree`). The affected count of the
database has 64 bits and the answer has as many, so the check that it fits one cannot fail and is left
out. -/
def relocate (id : StorageId) (source destination : PathRef) :
    Action Connection StoreError Nat := do
  require (Validity.checkStorageId id)
  require (Validity.checkPath source.path)
  require (Validity.checkPath destination.path)
  let moved ← writing .relocate (Database.relocate id source destination)
  .log (.treeMoved .database moved)
  pure moved

/-- The storages in which one of the sids holds a row (`storages_with_grants`). -/
def storagesHolding (sids : List Sid) : Action Connection StoreError (List StorageRef) := do
  if sids.isEmpty then pure []
  else
    let rows ← reading .storagesHolding (Database.storagesHolding sids)
    .ofExcept (readAll storageOfRow rows)

/-- Writes prolongations, the last of each path (`upsert_prolongations`). -/
def prolong (id : StorageId) (records : List Prolongation) :
    Action Connection StoreError (List Prolongation) := do
  require (Validity.checkStorageId id)
  require (Validity.checkAll (Validity.checkProlongation id) records)
  let kept := Prolongation.keepLast records
  if kept.isEmpty then pure []
  else
    let days ← .ofExcept ((daysColumn kept).mapError .ofFault)
    writing .upsertProlongations (Database.prolong id kept days)
    pure kept

/-- The prolongations of the given paths (`find_prolongations`). -/
def prolongationsAt (id : StorageId) (paths : List String) :
    Action Connection StoreError (List Prolongation) := do
  require (Validity.checkStorageId id)
  if paths.isEmpty then pure []
  else
    let rows ← reading .findProlongations (Database.prolongationsAt id paths)
    .ofExcept (readAll prolongationOfRow rows)

/-- The prolongations of a storage (`list_prolongations`). -/
def prolongations (id : StorageId) : Action Connection StoreError (List Prolongation) := do
  require (Validity.checkStorageId id)
  let rows ← reading .listProlongations (Database.prolongations id)
  .ofExcept (readAll prolongationOfRow rows)

/-- Asks whether the database answers (`health_check`). -/
def health : Action Connection StoreError Health := do
  timed .healthCheck healthLimit (fun s => [.healthTime s]) ping
  pure ⟨"postgresql", some (← Action.get).maxConnections⟩

/-- Creates the schema as far as it is missing (`run_migrations`). This is not timed. -/
def createSchema : Action Connection StoreError Unit := do
  .log .schemaStarted
  match ← hold (Database.createSchema Sql.schema) with
  | some result => .ofExcept result
  | none => .fail (.connection "no answer")
  .log .schemaReady

/-- The database as a **store**. -/
def store : Store Connection where
  register := register
  kindOf := kindOf
  upsert := upsert
  delete := delete
  load := load
  loadHeld := loadHeld
  deleteUnder := deleteUnder
  relocate := relocate
  storagesHolding := storagesHolding
  prolong := prolong
  prolongationsAt := prolongationsAt
  prolongations := prolongations
  health := health

end Connection

end PathAcl
