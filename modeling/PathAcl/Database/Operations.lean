import PathAcl.Database.Row
import PathAcl.Database.Sql

/-! # What the operations say
The dialogue of each operation of the store. A write is one transaction that first takes the lock of
its storage, and nothing is read or written before the lock. -/

namespace PathAcl.Database

/-! ## Bound values -/

/-- The column of paths and the column of path types of a list of places (`path_arrays`). -/
def placeColumns (places : List PathRef) : List Param :=
  [.texts (places.map PathRef.path), .texts (places.map fun p => p.type.name)]

/-- The column of names and the column of types of a list of sids (`sid_arrays`). -/
def sidColumns (sids : List Sid) : List Param :=
  [.texts (sids.map Sid.name), .texts (sids.map fun s => s.type.name)]

/-- The columns of a list of keys. -/
def keyColumns (keys : List PermissionKey) : List Param :=
  placeColumns (keys.map PermissionKey.place) ++ sidColumns (keys.map PermissionKey.sid)

/-- The columns of a list of rows. Instants are bound in whole microseconds. -/
def permissionColumns (rows : List Permission) : List Param :=
  keyColumns (rows.map Permission.key) ++
    [.bigints (rows.map fun r => Int64.ofNat r.mask.bits.toNat),
      .instants (rows.map fun r => r.created.toMicros)]

/-- The days of prolongations in 31 bits. -/
def daysColumn : List Prolongation → Except Fault (List Int32)
  | [] => .ok []
  | p :: ps => do
    let d ← if p.days.toNat ≤ Int32.maxValue.toInt then .ok (Int32.ofNat p.days.toNat)
      else .error (.daysOutOfRange p.days)
    pure (d :: (← daysColumn ps))

/-- The columns of a list of prolongations, whose days are given apart. -/
def prolongationColumns (records : List Prolongation) (days : List Int32) : List Param :=
  [.texts (records.map Prolongation.path), .texts (records.map Prolongation.userId),
    .instants (records.map fun p => p.prolongedUntil.toMicros), .ints days,
    .instants (records.map fun p => p.updated.toMicros)]

/-- The distinct members of a list, in order. -/
def distinct {κ : Type} [Ord κ] [Std.TransOrd κ] [Std.LawfulEqOrd κ] (xs : List κ) : List κ :=
  (SortedSet.ofList xs).members

/-! ## Statements -/

/-- A statement about one storage. -/
def about (sql : String) (id : StorageId) (params : List Param) : Statement :=
  ⟨sql, .bigint id :: params⟩

/-- Sends a statement that belongs to a query; a refusal fails the query. -/
def queryRequest (statement : Statement) (context : String) : Dialogue (List Row × Nat) :=
  .request statement (queryFailure context)

/-- Sends a statement for its rows. -/
def queryRows (statement : Statement) (context : String) : Dialogue (List Row) := do
  pure (← queryRequest statement context).1

/-! ## Transactions -/

/-- A **locked transaction** on one storage: it begins, takes the lock, does its work and commits;
if anything after the beginning fails it is taken back. -/
def transaction {α : Type} (id : StorageId) (work : Dialogue α) : Dialogue α := do
  let _ ← Dialogue.request ⟨Sql.begin, []⟩
    fun cause => .transaction s!"failed to begin transaction: {cause}"
  Dialogue.orRollback do
    let _ ← Dialogue.request (about Sql.lock id [])
      fun cause => .transaction s!"failed to lock storage {id.toInt}: {cause}"
    let x ← work
    let _ ← Dialogue.request ⟨Sql.commit, []⟩
      fun cause => .transaction s!"failed to commit transaction: {cause}"
    pure x

/-- What reading the kind of a storage is for. -/
def kindContext : String := "failed to read storage kind"

/-- Makes a storage known, or checks the kind it is known under (`ensure_storage`). -/
def makeKnown (storage : StorageRef) : Dialogue Unit := do
  let _ ← queryRequest (about Sql.addStorage storage.id [.text storage.kind.name])
    "failed to register storage"
  let rows ← queryRows (about Sql.kindOf storage.id []) kindContext
  let text ← Dialogue.ofExcept (onlyValue .text kindContext rows)
  let registered ← Dialogue.ofExcept (named StorageKind.ofName text)
  if registered = storage.kind then pure ()
  else .fail (.kindMismatch storage.id registered storage.kind)

/-! ## Writes -/

/-- Makes a storage known, or checks its kind (`register_storage`). -/
def register (storage : StorageRef) : Dialogue Unit := transaction storage.id (makeKnown storage)

/-- Writes rows of distinct keys (`upsert_permissions`). -/
def upsert (storage : StorageRef) (rows : List Permission) : Dialogue Unit :=
  transaction storage.id do
    makeKnown storage
    if rows.isEmpty then pure ()
    else
      let _ ← queryRequest (about Sql.writeRows storage.id (permissionColumns rows))
        "failed to upsert permissions"
      pure ()

/-- Drops rows; answers the rows the database returns for them (`delete_permissions`). -/
def delete (id : StorageId) (keys : List PermissionKey) : Dialogue (List Row) :=
  transaction id (queryRows (about Sql.dropRows id (keyColumns keys))
    "failed to delete permissions")

/-- Drops the rows that the roots govern; answers the rows the database returns for them
(`delete_trees`). -/
def deleteUnder (id : StorageId) (roots : List PathRef) : Dialogue (List Row) :=
  transaction id (queryRows (about Sql.dropUnder id (placeColumns roots))
    "failed to delete permission trees")

/-- Moves the rows that the source governs, if the destination is free; answers their number
(`move_tree`). -/
def relocate (id : StorageId) (source destination : PathRef) : Dialogue Nat :=
  let occupied := match destination.type with
    | .folder => Sql.folderOccupied
    | .file => Sql.fileOccupied
  let move := match source.type with
    | .folder => Sql.moveFolder
    | .file => Sql.moveFile
  let context := "failed to check move destination"
  transaction id do
    let rows ← queryRows (about occupied id [.text destination.path]) context
    if ← Dialogue.ofExcept (onlyValue .bool context rows) then
      .fail (.destinationOccupied id destination.path)
    else
      let reply ← queryRequest (about move id [.text source.path, .text destination.path])
        "failed to move permission tree"
      pure reply.2

/-- Writes prolongations of distinct paths (`upsert_prolongations`). -/
def prolong (id : StorageId) (records : List Prolongation) (days : List Int32) : Dialogue Unit :=
  transaction id do
    let _ ← queryRequest (about Sql.writeProlongations id (prolongationColumns records days))
      "failed to upsert prolongations"
    pure ()

/-! ## Reads -/

/-- The name of the kind of a storage, if it is known (`storage_kind`). -/
def kindOf (id : StorageId) : Dialogue (Option String) := do
  match ← queryRows (about Sql.kindOf id []) kindContext with
  | [] => pure none
  | row :: _ => some <$> Dialogue.ofExcept (onlyColumn .text kindContext row)

/-- The rows held at the places, each asked for once (`load_permissions`). -/
def load (id : StorageId) (places : List PathRef) : Dialogue (List Row) :=
  queryRows (about Sql.rowsAt id (placeColumns (distinct places)))
    "failed to load permissions"

/-- The rows that the sids hold at the places, each place and sid asked for once (`find_applicable`). -/
def loadHeld (id : StorageId) (places : List PathRef) (sids : List Sid) :
    Dialogue (List Row) :=
  queryRows
    (about Sql.rowsHeld id (placeColumns (distinct places) ++ sidColumns (distinct sids)))
    "failed to find applicable permissions"

/-- The storages in which one of the sids holds a row (`storages_with_grants`). -/
def storagesHolding (sids : List Sid) : Dialogue (List Row) :=
  queryRows ⟨Sql.storagesHolding, sidColumns (distinct sids)⟩
    "failed to list storages with grants"

/-- The prolongations of the given paths (`find_prolongations`). -/
def prolongationsAt (id : StorageId) (paths : List String) : Dialogue (List Row) :=
  queryRows (about Sql.prolongationsAt id [.texts paths]) "failed to find prolongations"

/-- The prolongations of a storage (`list_prolongations`). -/
def prolongations (id : StorageId) : Dialogue (List Row) :=
  queryRows (about Sql.prolongations id []) "failed to list prolongations"

/-! ## Health and schema -/

/-- Asks whether the database answers (`health_check`). -/
def ping : Dialogue Unit := do
  let _ ← Dialogue.request ⟨Sql.ping, []⟩
    fun cause => .healthCheck s!"database ping failed: {cause}"
  pure ()

/-- Creates the parts of the schema one after the other (`run_migrations`). -/
def createSchema : List (String × String) → Dialogue Unit
  | [] => pure ()
  | (name, sql) :: parts => do
    let _ ← Dialogue.request ⟨sql, []⟩ fun cause => .query s!"Failed to create {name}: {cause}"
    createSchema parts

end PathAcl.Database
