import PathAcl.KeepLast
import PathAcl.Mask
import PathAcl.PathRef
import PathAcl.Sid
import PathAcl.SortedMap
import PathAcl.Time.Instant

/-! # Permission rows
A permission row says which mask a sid holds at a file or folder, and since when. Inside one storage
a row is named by its path, path type and sid. -/

namespace PathAcl

open Std

/-- The name of a row inside one storage. -/
structure PermissionKey where
  path : String
  type : PathType
  sid : Sid
  deriving Repr, DecidableEq, Inhabited

namespace PermissionKey

instance : Ord PermissionKey := ⟨Order.byThree path type sid⟩

instance : TransOrd PermissionKey := inferInstanceAs (TransCmp (Order.byThree path type sid))

instance : LawfulEqOrd PermissionKey :=
  Order.lawfulEq_byThree fun a b h₁ h₂ h₃ => by cases a; cases b; cases h₁; cases h₂; cases h₃; rfl

/-- The file or folder the row is held at. -/
def place (k : PermissionKey) : PathRef := ⟨k.path, k.type⟩

end PermissionKey

/-- A **permission row** (`StoredPermission`). -/
structure Permission where
  path : String
  type : PathType
  sid : Sid
  mask : Mask
  /-- When the row was first written. -/
  created : Instant
  deriving DecidableEq, Inhabited

namespace Permission

/-- The name of the row. -/
def key (p : Permission) : PermissionKey := ⟨p.path, p.type, p.sid⟩

/-- The file or folder the row is held at. -/
def place (p : Permission) : PathRef := ⟨p.path, p.type⟩

end Permission

/-- A permission a caller asks for; its path is as the caller spells it. -/
structure GrantRequest where
  path : String
  type : PathType
  sid : Sid
  mask : Mask
  deriving Repr, DecidableEq, Inhabited

/-- What a caller is shown of a row. -/
abbrev PermissionEntry : Type := GrantRequest

/-- The row without its date. -/
def Permission.entry (p : Permission) : PermissionEntry := ⟨p.path, p.type, p.sid, p.mask⟩

/-- Of rows with one key the last is kept, in the place of the first (`dedup_last_wins`). -/
def Permission.keepLast (rows : List Permission) : List Permission :=
  PathAcl.keepLast Permission.key rows

/-- The distinct sids of a list, in order (`touched_sids`). -/
def distinctSids (sids : List Sid) : List Sid := (SortedSet.ofList sids).members

end PathAcl
