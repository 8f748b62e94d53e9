import PathAcl.Permission
import PathAcl.Prolongation

/-! # What a store accepts
The checks on the arguments of a store. Of several faults the first found counts, in the order in
which each check goes through its argument. -/

namespace PathAcl

/-- What is wrong with an argument of a store. -/
inductive Fault
  /-- Storage ids are positive. -/
  | storageId (id : StorageId)
  | badPath (fault : Path.Fault)
  | blankSid
  | longSid
  /-- A row that grants nothing is not stored. -/
  | emptyMask (row : Permission)
  /-- A prolongation of one storage is offered to another. -/
  | foreignProlongation (found expected : StorageId)
  | blankUser
  | zeroDays (path : String)
  /-- The database keeps days in 31 bits. -/
  | daysOutOfRange (days : UInt32)
  | unknownPathType (text : String)
  | unknownSidType (text : String)
  | unknownStorageKind (text : String)
  deriving DecidableEq

/-- The most bytes the name of a sid may take in UTF-8. -/
def maxSidBytes : Nat := 255

/-- The wording of a fault. -/
def Fault.message : Fault → String
  | storageId id => s!"storage id must be positive, got {id.toInt}"
  | badPath fault => fault.message
  | blankSid => "sid name cannot be empty"
  | longSid => s!"sid name exceeds maximum length of {maxSidBytes} bytes"
  | emptyMask row => s!"mask cannot be zero for {row.type.name} {row.path} ({row.sid.text})"
  | foreignProlongation found expected =>
    s!"prolongation for storage {found.toInt} in a batch for storage {expected.toInt}"
  | blankUser => "prolongation user id cannot be empty"
  | zeroDays path => s!"prolongation days must be positive for '{path}'"
  | daysOutOfRange days => s!"prolongation days out of range: {days.toNat}"
  | unknownPathType text => s!"unknown path type: {text}"
  | unknownSidType text => s!"unknown sid type: {text}"
  | unknownStorageKind text => s!"unknown storage kind: {text}"

namespace Validity

/-- Accepts the positive storage ids (`validate_storage_id`). -/
def checkStorageId (id : StorageId) : Except Fault Unit :=
  if id ≤ 0 then .error (.storageId id) else .ok ()

/-- Accepts the stored paths (`validate_path`). -/
def checkPath (path : String) : Except Fault Unit := (Path.check path).mapError .badPath

/-- Accepts the sids whose name is neither blank nor too long (`validate_sid`). -/
def checkSid (sid : Sid) : Except Fault Unit :=
  if Text.blank sid.name then .error .blankSid
  else if maxSidBytes < sid.name.utf8ByteSize then .error .longSid
  else .ok ()

/-- Accepts the keys a row can have: the path is looked at first (`validate_key`). -/
def checkKey (key : PermissionKey) : Except Fault Unit := do
  checkPath key.path
  checkSid key.sid

/-- Accepts the rows that may be stored (`validate_permission`). -/
def checkPermission (row : Permission) : Except Fault Unit := do
  checkKey row.key
  if row.mask.isEmpty then .error (.emptyMask row) else .ok ()

/-- Accepts the prolongations that may be stored for a storage (`validate_prolongation`). -/
def checkProlongation (id : StorageId) (p : Prolongation) : Except Fault Unit := do
  if p.storageId ≠ id then .error (.foreignProlongation p.storageId id) else .ok ()
  checkPath p.path
  if Text.blank p.userId then .error .blankUser else .ok ()
  if p.days = 0 then .error (.zeroDays p.path) else .ok ()

/-- Accepts a list all of whose elements are accepted; else gives the first fault. -/
def checkAll {α : Type} (check : α → Except Fault Unit) : List α → Except Fault Unit
  | [] => .ok ()
  | x :: xs => do
    check x
    checkAll check xs

end Validity

/-! ## Names in the database -/

/-- The path type of a name. -/
def PathType.ofName (text : String) : Except Fault PathType :=
  match ofName? text with
  | some t => .ok t
  | none => .error (.unknownPathType text)

/-- The sid type of a name. -/
def SidType.ofName (text : String) : Except Fault SidType :=
  match ofName? text with
  | some t => .ok t
  | none => .error (.unknownSidType text)

/-- The storage kind of a name. -/
def StorageKind.ofName (text : String) : Except Fault StorageKind :=
  match ofName? text with
  | some k => .ok k
  | none => .error (.unknownStorageKind text)

end PathAcl
