import PathAcl.Action
import PathAcl.Store.Error

/-! # Stores
What a store of permission rows can be asked. The engine is written against this interface alone; a
table in memory and a database stand behind it. -/

namespace PathAcl

/-- What a healthy store says about itself (`HealthStatus`). -/
structure Health where
  message : String
  /-- The size of the connection pool, for a store that has one. -/
  maxConnections : Option UInt32
  deriving Repr, DecidableEq

/-- A **store** whose state is a `σ` (`PermissionStore`). Each operation concerns one storage, save for
the look-up of storages by sid. -/
structure Store (σ : Type) where
  /-- Makes a storage known with its kind, or checks the kind of a known one (`register_storage`). -/
  register : StorageRef → Action σ StoreError Unit
  /-- The kind of a storage, if it is known (`storage_kind`). -/
  kindOf : StorageId → Action σ StoreError (Option StorageKind)
  /-- Writes rows, the last of each key; makes the storage known (`upsert_permissions`). Answers the
  rows written. -/
  upsert : StorageRef → List Permission → Action σ StoreError (List Permission)
  /-- Drops rows (`delete_permissions`). Answers the keys of those that were there. -/
  delete : StorageId → List PermissionKey → Action σ StoreError (List PermissionKey)
  /-- The rows held at the places (`load_permissions`). -/
  load : StorageId → List PathRef → Action σ StoreError (List Permission)
  /-- The rows that the sids hold at the places (`find_applicable`). -/
  loadHeld : StorageId → List PathRef → List Sid → Action σ StoreError (List Permission)
  /-- Drops the rows that the roots govern (`delete_trees`). Answers their keys. -/
  deleteUnder : StorageId → List PathRef → Action σ StoreError (List PermissionKey)
  /-- Moves the rows that the source governs to a free destination (`move_tree`). Answers their
  number. -/
  relocate : StorageId → PathRef → PathRef → Action σ StoreError Nat
  /-- The storages in which one of the sids holds a row (`storages_with_grants`). -/
  storagesHolding : List Sid → Action σ StoreError (List StorageRef)
  /-- Writes prolongations, the last of each path (`upsert_prolongations`). Answers those written. -/
  prolong : StorageId → List Prolongation → Action σ StoreError (List Prolongation)
  /-- The prolongations of exactly the given paths (`find_prolongations`). -/
  prolongationsAt : StorageId → List String → Action σ StoreError (List Prolongation)
  /-- All prolongations of a storage, by path (`list_prolongations`). -/
  prolongations : StorageId → Action σ StoreError (List Prolongation)
  /-- Whether the store can be reached (`health_check`). -/
  health : Action σ StoreError Health

namespace Store

variable {σ : Type} (S : Store σ)

/-- Writes one row (`upsert_permission`). -/
def upsertOne (storage : StorageRef) (row : Permission) : Action σ StoreError Permission := do
  match (← S.upsert storage [row]).getLast? with
  | some stored => pure stored
  | none => .fail (.internal "upsert returned no row")

/-- Drops the rows that one root governs (`delete_tree`). -/
def deleteUnderRoot (id : StorageId) (root : PathRef) : Action σ StoreError (List PermissionKey) :=
  S.deleteUnder id [root]

/-- Writes one prolongation (`upsert_prolongation`). -/
def prolongOne (p : Prolongation) : Action σ StoreError Prolongation := do
  match (← S.prolong p.storageId [p]).getLast? with
  | some stored => pure stored
  | none => .fail (.internal "upsert returned no prolongation")

/-- The prolongation of a path or else of the nearest folder above it that has one
(`find_prolongation`). -/
def nearestProlongation (id : StorageId) (path : String) :
    Action σ StoreError (Option Prolongation) := do
  let found ← S.prolongationsAt id (path :: Path.ancestors path)
  pure (Path.longest Prolongation.path found)

end Store

end PathAcl
