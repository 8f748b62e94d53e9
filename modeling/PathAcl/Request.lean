import PathAcl.Permission
import PathAcl.Storage

/-! # Requests and their answers
What callers send and what they get. A request names a storage together with the family the caller
takes it for. -/

namespace PathAcl

/-- Asks for the rows held at some places (`LoadBatchRequest`). -/
structure LoadRequest where
  storage : StorageRef
  items : List PathRef
  deriving Repr, DecidableEq

/-- Asks for rows to be written (`InsertBatchRequest`). -/
structure InsertRequest where
  storage : StorageRef
  items : List GrantRequest
  deriving Repr, DecidableEq

/-- Asks for rows to be dropped (`DeleteBatchRequest`). -/
structure DeleteRequest where
  storage : StorageRef
  items : List PermissionKey
  deriving Repr, DecidableEq

/-- Asks for everything under some paths to be dropped, or for the paths to be prolonged instead
(`DeleteAllBatchRequest`). -/
structure DeleteAllRequest where
  storage : StorageRef
  items : List PathRef
  daysToProlong : Option UInt32
  deriving Repr, DecidableEq

/-- The keys of the rows dropped, or else the paths prolonged (`DeleteAllBatchResponse`). -/
structure DeleteAllAnswer where
  removed : List PermissionKey
  prolonged : List PathRef
  deriving Repr, DecidableEq

/-- Asks for the rows of one object to follow it to another place. -/
structure MoveRequest where
  storage : StorageRef
  source : PathRef
  destination : PathRef
  deriving Repr, DecidableEq

/-- The number of rows that were moved (`MoveResponse`). -/
structure MoveAnswer where
  migrated : UInt64
  deriving Repr, DecidableEq

/-- Asks for the effective masks of the caller (`ResolveBatchRequest`). -/
structure ResolveRequest where
  storageId : StorageId
  items : List PathRef
  deriving Repr, DecidableEq

/-- The effective mask of one item (`ResolvedPermission`). -/
structure ResolvedMask where
  path : String
  type : PathType
  mask : Mask
  deriving Repr, DecidableEq

end PathAcl
