import PathAcl.Request
import PathAcl.ListedStorage
import PathAcl.Wire.Json

/-! # Requests on the wire
A request names its storage by two fields, the id and the type. -/

namespace PathAcl.Wire

instance : Wire ListedStorage where
  encode s := .object
    [("storage", encode s.storage), ("mask", encode s.mask),
      ("mountDisabled", encode s.mountDisabled)]
  decode? j := do
    match ← fields? ["storage", "mask", "mountDisabled"] 3 j with
    | [storage, mask, mountDisabled] =>
      some ⟨← required storage, ← required mask, ← required mountDisabled⟩
    | _ => none

/-- The two fields that name the storage of a request. -/
def storageFields (s : StorageRef) : List (String × Json) :=
  [("storageId", encode s.id), ("type", encode s.kind)]

/-- Reads the storage of a request from two fields. -/
def storage? (id kind : Option Json) : Option StorageRef := do some ⟨← required id, ← required kind⟩

instance : Wire LoadRequest where
  encode r := .object (storageFields r.storage ++ [("requests", encode r.items)])
  decode? j := do
    match ← fields? ["storageId", "type", "requests"] 3 j with
    | [id, kind, items] => some ⟨← storage? id kind, ← required items⟩
    | _ => none

instance : Wire InsertRequest where
  encode r := .object (storageFields r.storage ++ [("requests", encode r.items)])
  decode? j := do
    match ← fields? ["storageId", "type", "requests"] 3 j with
    | [id, kind, items] => some ⟨← storage? id kind, ← required items⟩
    | _ => none

instance : Wire DeleteRequest where
  encode r := .object (storageFields r.storage ++ [("requests", encode r.items)])
  decode? j := do
    match ← fields? ["storageId", "type", "requests"] 3 j with
    | [id, kind, items] => some ⟨← storage? id kind, ← required items⟩
    | _ => none

/-- The days are left out if there are none. -/
instance : Wire DeleteAllRequest where
  encode r := .object (storageFields r.storage ++ [("requests", encode r.items)] ++
    r.daysToProlong.toList.map fun days => ("daysToProlong", encode days))
  decode? j := do
    match ← fields? ["storageId", "type", "requests", "daysToProlong"] 3 j with
    | [id, kind, items, days] =>
      some ⟨← storage? id kind, ← required items, ← optional none days⟩
    | _ => none

instance : Wire DeleteAllAnswer where
  encode a := .object [("removed", encode a.removed), ("prolonged", encode a.prolonged)]
  decode? j := do
    match ← fields? ["removed", "prolonged"] 2 j with
    | [removed, prolonged] => some ⟨← required removed, ← required prolonged⟩
    | _ => none

instance : Wire MoveRequest where
  encode r := .object (storageFields r.storage ++
    [("source", encode r.source), ("destination", encode r.destination)])
  decode? j := do
    match ← fields? ["storageId", "type", "source", "destination"] 4 j with
    | [id, kind, source, destination] =>
      some ⟨← storage? id kind, ← required source, ← required destination⟩
    | _ => none

instance : Wire MoveAnswer where
  encode a := .object [("migrated", encode a.migrated)]
  decode? j := do
    match ← fields? ["migrated"] 1 j with
    | [migrated] => some ⟨← required migrated⟩
    | _ => none

instance : Wire ResolveRequest where
  encode r := .object [("storageId", encode r.storageId), ("requests", encode r.items)]
  decode? j := do
    match ← fields? ["storageId", "requests"] 2 j with
    | [id, items] => some ⟨← required id, ← required items⟩
    | _ => none

instance : Wire ResolvedMask where
  encode m := .object
    [("path", encode m.path), ("pathType", encode m.type), ("mask", encode m.mask)]
  decode? j := do
    match ← fields? ["path", "pathType", "mask"] 3 j with
    | [path, type, mask] => some ⟨← required path, ← required type, ← required mask⟩
    | _ => none

end PathAcl.Wire
