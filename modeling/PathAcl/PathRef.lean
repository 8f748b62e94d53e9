import PathAcl.Order
import PathAcl.Path

/-! # Files and folders at a path
A grant is held at a path and is meant for the file or for the folder there. A folder grant reaches
everything beneath the folder; a file grant reaches that file alone. -/

namespace PathAcl

open Std

/-- Whether a path is taken as a file or as a folder. -/
inductive PathType
  | file
  | folder
  deriving Repr, DecidableEq, Inhabited

namespace PathType

/-- The name on the wire and in the database. -/
def name : PathType → String
  | file => "FILE"
  | folder => "FOLDER"

/-- The path type of a name. -/
def ofName? : String → Option PathType
  | "FILE" => some file
  | "FOLDER" => some folder
  | _ => none

@[simp] theorem ofName?_name (t : PathType) : ofName? t.name = some t := by cases t <;> rfl

/-- The place of a path type in the order. -/
def rank : PathType → Nat
  | file => 0
  | folder => 1

instance : Ord PathType := ⟨compareOn rank⟩

instance : TransOrd PathType := inferInstanceAs (TransCmp (compareOn rank))

instance : LawfulEqOrd PathType :=
  Order.lawfulEq_on fun a b h => by cases a <;> cases b <;> first | rfl | cases h

end PathType

/-- A path inside one storage, taken as a file or as a folder. -/
structure PathRef where
  path : String
  type : PathType
  deriving Repr, DecidableEq, Inhabited

namespace PathRef

instance : Ord PathRef := ⟨Order.byTwo path type⟩

instance : TransOrd PathRef := inferInstanceAs (TransCmp (Order.byTwo path type))

instance : LawfulEqOrd PathRef :=
  Order.lawfulEq_byTwo fun a b h₁ h₂ => by cases a; cases b; cases h₁; cases h₂; rfl

/-- The file at a path. -/
def file (path : String) : PathRef := ⟨path, .file⟩

/-- The folder at a path. -/
def folder (path : String) : PathRef := ⟨path, .folder⟩

/-- The same file or folder with its path in normal form (`normalize_ref`). -/
def normalize (r : PathRef) : Except Path.Malformed PathRef :=
  (Path.normalize r.path).map fun path => ⟨path, r.type⟩

/-- The places whose grants reach `r`: `r` itself, then every folder above it, nearest first
(`candidates`). -/
def reachedFrom (r : PathRef) : List PathRef := r :: (Path.ancestors r.path).map folder

/-- Whether a grant held at `r` reaches `target` (`applies_to`). -/
def reaches (r target : PathRef) : Bool :=
  r == target || (r.type == .folder && Path.isBeneath target.path r.path)

/-- Whether a grant held at `place` is governed by `root`: a folder governs all grants at and
beneath it, a file the file grants at its own path. -/
def governs (root place : PathRef) : Bool :=
  match root.type with
  | .folder => Path.isAtOrBeneath place.path root.path
  | .file => place == root

end PathRef

end PathAcl
