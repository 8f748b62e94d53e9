import PathAcl.Permission
import PathAcl.Prolongation
import PathAcl.Time.Rfc3339

/-! # Values on the wire
What crosses the boundary of the engine is a JSON value. Every type that crosses it says how it is
written and what it is read from; reading takes all that writing makes, and a record also from the
list of its fields. -/

namespace PathAcl

/-- A **JSON value**. -/
inductive Json
  | null
  | bool (b : Bool)
  | int (n : Int)
  /-- A number spelled with a point or an exponent: `mantissa / 10 ^ places`. -/
  | real (mantissa : Int) (places : Nat)
  | text (s : String)
  | list (xs : List Json)
  | object (fields : List (String × Json))
  deriving Repr, BEq, Inhabited

/-- A type of values that cross the boundary. -/
class Wire (α : Type) where
  /-- Writes a value. -/
  encode : α → Json
  /-- Reads a value. -/
  decode? : Json → Option α

namespace Wire

variable {α β : Type}

/-! ## Scalars -/

/-- Reads a whole number between two bounds. -/
def intBetween? (least most : Int) : Json → Option Int
  | .int n => if least ≤ n ∧ n ≤ most then some n else none
  | _ => none

instance : Wire Bool where
  encode := .bool
  decode? | .bool b => some b | _ => none

instance : Wire String where
  encode := .text
  decode? | .text s => some s | _ => none

instance : Wire UInt32 where
  encode n := .int n.toNat
  decode? j := (intBetween? 0 (UInt32.size - 1) j).map fun n => .ofNat n.toNat

instance : Wire UInt64 where
  encode n := .int n.toNat
  decode? j := (intBetween? 0 (UInt64.size - 1) j).map fun n => .ofNat n.toNat

instance : Wire Int64 where
  encode n := .int n.toInt
  decode? j := (intBetween? Int64.minValue.toInt Int64.maxValue.toInt j).map .ofInt

instance : Wire Mask where
  encode m := encode m.bits
  decode? j := (decode? j).map .mk

instance : Wire Instant where
  encode t := .text (Rfc3339.render t)
  decode? | .text s => Rfc3339.parse? s | _ => none

/-- A null stands for nothing. -/
instance [Wire α] : Wire (Option α) where
  encode | none => .null | some x => encode x
  decode? | .null => some none | j => (decode? j).map some

instance [Wire α] : Wire (List α) where
  encode xs := .list (xs.map encode)
  decode? | .list xs => xs.mapM decode? | _ => none

/-- Reads one of a family of names; it may also be the one field, with a null, of an object. -/
def named? (ofName? : String → Option α) : Json → Option α
  | .text name => ofName? name
  | .object [(name, .null)] => ofName? name
  | _ => none

instance : Wire PathType := ⟨fun t => .text t.name, named? PathType.ofName?⟩

instance : Wire SidType := ⟨fun t => .text t.name, named? SidType.ofName?⟩

instance : Wire StorageKind := ⟨fun k => .text k.name, named? StorageKind.ofName?⟩

/-! ## Records -/

/-- The fields of a record, as far as they are given: by name from an object, or in order from a
list, of which at least `least` have to be there. -/
def fields? (names : List String) (least : Nat) : Json → Option (List (Option Json))
  | .object fs => some (names.map fun name => fs.lookup name)
  | .list xs =>
    if least ≤ xs.length ∧ xs.length ≤ names.length then
      some (xs.map some ++ List.replicate (names.length - xs.length) none)
    else none
  | _ => none

/-- Reads a field that has to be given. -/
def required [Wire α] (field : Option Json) : Option α := field.bind decode?

/-- Reads a field that may be left out. -/
def optional [Wire α] (usual : α) : Option Json → Option α
  | none => some usual
  | some j => decode? j

instance : Wire StorageRef where
  encode s := .object [("id", encode s.id), ("kind", encode s.kind)]
  decode? j := do
    match ← fields? ["id", "kind"] 2 j with
    | [id, kind] => some ⟨← required id, ← required kind⟩
    | _ => none

instance : Wire Sid where
  encode s := .object [("name", encode s.name), ("type", encode s.type)]
  decode? j := do
    match ← fields? ["name", "type"] 2 j with
    | [name, type] => some ⟨← required name, ← required type⟩
    | _ => none

instance : Wire PathRef where
  encode r := .object [("path", encode r.path), ("pathType", encode r.type)]
  decode? j := do
    match ← fields? ["path", "pathType"] 2 j with
    | [path, type] => some ⟨← required path, ← required type⟩
    | _ => none

instance : Wire PermissionKey where
  encode k := .object [("path", encode k.path), ("pathType", encode k.type), ("sid", encode k.sid)]
  decode? j := do
    match ← fields? ["path", "pathType", "sid"] 3 j with
    | [path, type, sid] => some ⟨← required path, ← required type, ← required sid⟩
    | _ => none

instance : Wire GrantRequest where
  encode g := .object
    [("path", encode g.path), ("pathType", encode g.type), ("sid", encode g.sid),
      ("mask", encode g.mask)]
  decode? j := do
    match ← fields? ["path", "pathType", "sid", "mask"] 4 j with
    | [path, type, sid, mask] =>
      some ⟨← required path, ← required type, ← required sid, ← required mask⟩
    | _ => none

instance : Wire Permission where
  encode p := .object
    [("path", encode p.path), ("pathType", encode p.type), ("sid", encode p.sid),
      ("mask", encode p.mask), ("created", encode p.created)]
  decode? j := do
    match ← fields? ["path", "pathType", "sid", "mask", "created"] 5 j with
    | [path, type, sid, mask, created] =>
      some ⟨← required path, ← required type, ← required sid, ← required mask, ← required created⟩
    | _ => none

instance : Wire Prolongation where
  encode p := .object
    [("storageId", encode p.storageId), ("path", encode p.path), ("userId", encode p.userId),
      ("prolongedUntil", encode p.prolongedUntil), ("days", encode p.days),
      ("updated", encode p.updated)]
  decode? j := do
    match ← fields? ["storageId", "path", "userId", "prolongedUntil", "days", "updated"] 6 j with
    | [id, path, user, till, days, updated] =>
      some ⟨← required id, ← required path, ← required user, ← required till, ← required days,
        ← required updated⟩
    | _ => none

end Wire

end PathAcl
