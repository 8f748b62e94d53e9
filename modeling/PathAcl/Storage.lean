import PathAcl.Order

/-! # Storages
A storage is named by a number and belongs to one of four provider families. The family is fixed
when the storage first becomes known; a reference that names another family does not mean that
storage. -/

namespace PathAcl

open Std

/-- The number that names a storage. -/
abbrev StorageId : Type := Int64

/-- A provider family. -/
inductive StorageKind
  | s3
  | azure
  | gcs
  /-- The family of file systems. -/
  | nfs
  deriving Repr, DecidableEq, Inhabited

namespace StorageKind

/-- The name on the wire and in the database. -/
def name : StorageKind → String
  | s3 => "S3"
  | azure => "AZ"
  | gcs => "GS"
  | nfs => "NFS"

/-- The family of a name. -/
def ofName? : String → Option StorageKind
  | "S3" => some s3
  | "AZ" => some azure
  | "GS" => some gcs
  | "NFS" => some nfs
  | _ => none

@[simp] theorem ofName?_name (k : StorageKind) : ofName? k.name = some k := by cases k <;> rfl

/-- Whether storages of the family are file systems. -/
def isFileSystem : StorageKind → Bool
  | nfs => true
  | _ => false

/-- The place of a family in the order. -/
def rank : StorageKind → Nat
  | s3 => 0
  | azure => 1
  | gcs => 2
  | nfs => 3

instance : Ord StorageKind := ⟨compareOn rank⟩

instance : TransOrd StorageKind := inferInstanceAs (TransCmp (compareOn rank))

instance : LawfulEqOrd StorageKind :=
  Order.lawfulEq_on fun a b h => by cases a <;> cases b <;> first | rfl | cases h

end StorageKind

/-- A storage named together with the family it is taken to belong to. -/
structure StorageRef where
  id : StorageId
  kind : StorageKind
  deriving Repr, DecidableEq, Inhabited

namespace StorageRef

instance : Ord StorageRef := ⟨Order.byTwo id kind⟩

instance : TransOrd StorageRef := inferInstanceAs (TransCmp (Order.byTwo id kind))

instance : LawfulEqOrd StorageRef :=
  Order.lawfulEq_byTwo fun a b h₁ h₂ => by cases a; cases b; cases h₁; cases h₂; rfl

end StorageRef

end PathAcl
