import PathAcl.KeepLast
import PathAcl.Storage
import PathAcl.Time.Instant

/-! # Prolongations
A prolongation is an exception that shifts the lifecycle of a path by some days. It sits beside the
permission rows and never touches them. -/

namespace PathAcl

/-- A **prolongation** of one path of a storage (`StoredProlongation`). -/
structure Prolongation where
  storageId : StorageId
  path : String
  /-- Who asked for it. -/
  userId : String
  prolongedUntil : Instant
  days : UInt32
  /-- When it was asked for. -/
  updated : Instant
  deriving DecidableEq, Inhabited

/-- Of prolongations of one path the last is kept, in the place of the first (`dedup_prolongations`). -/
def Prolongation.keepLast (records : List Prolongation) : List Prolongation :=
  PathAcl.keepLast Prolongation.path records

end PathAcl
