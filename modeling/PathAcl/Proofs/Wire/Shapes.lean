import PathAcl.Proofs.Wire.Faithful
import PathAcl.Wire.Requests
import PathAcl.Wire.Settings

/-! # What crosses the boundary
Every record that crosses the boundary of the engine is read back in every spelling. -/

namespace PathAcl.Wire

/-! ## Rows and their parts -/

instance : Shaped StorageRef :=
  .record [("id", Shaped.layout Int64), ("kind", Shaped.layout StorageKind)]

instance : Faithful StorageRef := .ofFields rfl (fun _ => rfl) (by decide) (by decide) fun x _ =>
  ⟨[encode x.id, encode x.kind], rfl, rfl, fun found keep => by
    obtain _ | ⟨id, _ | ⟨kind, _ | _⟩⟩ := keep
    exact required_bind id trivial <| required_bind kind trivial rfl⟩

instance : Shaped Sid :=
  .record [("name", Shaped.layout String), ("type", Shaped.layout SidType)]

instance : Faithful Sid := .ofFields rfl (fun _ => rfl) (by decide) (by decide) fun x _ =>
  ⟨[encode x.name, encode x.type], rfl, rfl, fun found keep => by
    obtain _ | ⟨name, _ | ⟨type, _ | _⟩⟩ := keep
    exact required_bind name trivial <| required_bind type trivial rfl⟩

/-- A sid may be spelled as the list of its name and its type. -/
example : Spells (Shaped.layout Sid) (encode (Sid.user "ada")) (.list [.text "ada", .text "USER"]) :=
  .single (.listed (.given rfl (.given rfl .nil)))

instance : Shaped PathRef :=
  .record [("path", Shaped.layout String), ("pathType", Shaped.layout PathType)]

instance : Faithful PathRef := .ofFields rfl (fun _ => rfl) (by decide) (by decide) fun x _ =>
  ⟨[encode x.path, encode x.type], rfl, rfl, fun found keep => by
    obtain _ | ⟨path, _ | ⟨type, _ | _⟩⟩ := keep
    exact required_bind path trivial <| required_bind type trivial rfl⟩

instance : Shaped PermissionKey :=
  .record [("path", Shaped.layout String), ("pathType", Shaped.layout PathType),
    ("sid", Shaped.layout Sid)]

instance : Faithful PermissionKey := .ofFields rfl (fun _ => rfl) (by decide) (by decide) fun x _ =>
  ⟨[encode x.path, encode x.type, encode x.sid], rfl, rfl, fun found keep => by
    obtain _ | ⟨path, _ | ⟨type, _ | ⟨sid, _ | _⟩⟩⟩ := keep
    exact required_bind path trivial <| required_bind type trivial <|
      required_bind sid trivial rfl⟩

instance : Shaped GrantRequest :=
  .record [("path", Shaped.layout String), ("pathType", Shaped.layout PathType),
    ("sid", Shaped.layout Sid), ("mask", Shaped.layout Mask)]

instance : Faithful GrantRequest := .ofFields rfl (fun _ => rfl) (by decide) (by decide) fun x _ =>
  ⟨[encode x.path, encode x.type, encode x.sid, encode x.mask], rfl, rfl, fun found keep => by
    obtain _ | ⟨path, _ | ⟨type, _ | ⟨sid, _ | ⟨mask, _ | _⟩⟩⟩⟩ := keep
    exact required_bind path trivial <| required_bind type trivial <| required_bind sid trivial <|
      required_bind mask trivial rfl⟩

instance : Shaped Permission :=
  ⟨.record [("path", Shaped.layout String), ("pathType", Shaped.layout PathType),
    ("sid", Shaped.layout Sid), ("mask", Shaped.layout Mask), ("created", Shaped.layout Instant)],
    fun p => p.created.Ordinary⟩

instance : Faithful Permission :=
  .ofFields rfl (fun _ => rfl) (by decide) (by decide) fun x ordinary =>
  ⟨[encode x.path, encode x.type, encode x.sid, encode x.mask,
    encode x.created], rfl, rfl, fun found keep => by
    obtain _ | ⟨path, _ | ⟨type, _ | ⟨sid, _ | ⟨mask, _ | ⟨created, _ | _⟩⟩⟩⟩⟩ := keep
    exact required_bind path trivial <| required_bind type trivial <| required_bind sid trivial <|
      required_bind mask trivial <| required_bind (x := x.created) created ordinary rfl⟩

instance : Shaped Prolongation :=
  ⟨.record [("storageId", Shaped.layout Int64), ("path", Shaped.layout String),
    ("userId", Shaped.layout String), ("prolongedUntil", Shaped.layout Instant),
    ("days", Shaped.layout UInt32), ("updated", Shaped.layout Instant)],
    fun p => p.prolongedUntil.Ordinary ∧ p.updated.Ordinary⟩

instance : Faithful Prolongation :=
  .ofFields rfl (fun _ => rfl) (by decide) (by decide) fun x ordinary =>
  ⟨[encode x.storageId, encode x.path, encode x.userId, encode x.prolongedUntil, encode x.days,
    encode x.updated], rfl, rfl, fun found keep => by
    obtain _ | ⟨id, _ | ⟨path, _ | ⟨user, _ | ⟨ends, _ | ⟨days, _ | ⟨updated, _ | _⟩⟩⟩⟩⟩⟩ := keep
    exact required_bind id trivial <| required_bind path trivial <| required_bind user trivial <|
      required_bind (x := x.prolongedUntil) ends ordinary.1 <| required_bind days trivial <|
      required_bind (x := x.updated) updated ordinary.2 rfl⟩

/-! ## Requests and answers -/

instance : Shaped ListedStorage :=
  .record [("storage", Shaped.layout StorageRef), ("mask", Shaped.layout Mask),
    ("mountDisabled", Shaped.layout Bool)]

instance : Faithful ListedStorage := .ofFields rfl (fun _ => rfl) (by decide) (by decide) fun x _ =>
  ⟨[encode x.storage, encode x.mask, encode x.mountDisabled], rfl, rfl, fun found keep => by
    obtain _ | ⟨storage, _ | ⟨mask, _ | ⟨mount, _ | _⟩⟩⟩ := keep
    exact required_bind storage trivial <| required_bind mask trivial <|
      required_bind mount trivial rfl⟩

/-- The two fields that name a storage are read back, and then the rest. -/
theorem storage?_bind {β : Type} {s : StorageRef} {id kind : Option Json}
    (hid : Keeps (Shaped.layout Int64) (some (encode s.id)) id)
    (hkind : Keeps (Shaped.layout StorageKind) (some (encode s.kind)) kind)
    {f : StorageRef → Option β} {y : β} (rest : f s = some y) : (storage? id kind >>= f) = some y :=
  Option.bind_eq_some_iff.2 ⟨s, required_bind hid trivial <| required_bind hkind trivial rfl, rest⟩

section Batches

variable {α ρ : Type}

/-- The fields of a request for a batch of items in one storage. -/
def batchFields (α : Type) [Shaped α] : List (String × Layout) :=
  [("storageId", Shaped.layout Int64), ("type", Shaped.layout StorageKind),
    ("requests", Shaped.layout (List α))]

/-- What is written of such a request. -/
def batch [Wire α] (storage : StorageRef) (items : List α) : Json :=
  .object (storageFields storage ++ [("requests", encode items)])

/-- Reads such a request from its fields. -/
def readBatch [Wire α] (make : StorageRef → List α → ρ) : List (Option Json) → Option ρ
  | [id, kind, items] => do some (make (← storage? id kind) (← required items))
  | _ => none

/-- **A request for a batch** is faithful. -/
theorem Faithful.ofBatch [Wire α] [Shaped α] [Faithful α] [Wire ρ] [Shaped ρ]
    (make : StorageRef → List α → ρ) (storage : ρ → StorageRef) (items : ρ → List α)
    (layout : Shaped.layout ρ = .record (batchFields α))
    (decode : ∀ j, decode? j = (fields? (names (batchFields α)) 3 j).bind (readBatch make))
    (encode : ∀ r, encode r = batch (storage r) (items r))
    (back : ∀ r, make (storage r) (items r) = r)
    (ordinary : ∀ r : ρ, ∀ x ∈ items r, Shaped.Ordinary x) : Faithful ρ :=
  .ofFields layout decode (of_decide_eq_true rfl) (Nat.le_refl 3) fun r _ =>
    ⟨[Wire.encode (storage r).id, Wire.encode (storage r).kind, Wire.encode (items r)], encode r, rfl,
      fun found keep => by
        obtain _ | ⟨hid, _ | ⟨hkind, _ | ⟨hitems, _ | _⟩⟩⟩ := keep
        exact storage?_bind hid hkind <| required_bind hitems (ordinary r) (congrArg some (back r))⟩

end Batches

instance : Shaped LoadRequest := .record (batchFields PathRef)

instance : Faithful LoadRequest := .ofBatch .mk LoadRequest.storage LoadRequest.items rfl
  (fun _ => rfl) (fun _ => rfl) (fun _ => rfl) fun _ _ _ => trivial

instance : Shaped InsertRequest := .record (batchFields GrantRequest)

instance : Faithful InsertRequest := .ofBatch .mk InsertRequest.storage InsertRequest.items rfl
  (fun _ => rfl) (fun _ => rfl) (fun _ => rfl) fun _ _ _ => trivial

instance : Shaped DeleteRequest := .record (batchFields PermissionKey)

instance : Faithful DeleteRequest := .ofBatch .mk DeleteRequest.storage DeleteRequest.items rfl
  (fun _ => rfl) (fun _ => rfl) (fun _ => rfl) fun _ _ _ => trivial

instance : Shaped DeleteAllRequest := .record (batchFields PathRef ++ [("daysToProlong", .spare)])

/-- A spare field of days is read back. -/
theorem optional_days {days : Option UInt32} {found : Option Json}
    (h : Keeps .spare (days.map encode) found) : optional none found = some days := by
  cases days with
  | none =>
      obtain rfl | rfl := h.eq_none_or_null
      · rfl
      · rfl
  | some n =>
      obtain ⟨v, rfl, spelt⟩ := h.spells
      rw [eq_of_spells_spare spelt]
      exact congrArg (Option.map some) (Faithful.decode_encode (x := n) trivial)

/-- The days are found if they are written. -/
theorem fields?_deleteAll (r : DeleteAllRequest) :
    fields? (names (batchFields PathRef ++ [("daysToProlong", .spare)])) 3 (encode r) =
      some [some (encode r.storage.id), some (encode r.storage.kind), some (encode r.items),
        r.daysToProlong.map encode] := by
  obtain ⟨storage, items, days⟩ := r
  cases days with
  | none => rfl
  | some n => rfl

instance : Faithful DeleteAllRequest :=
  .ofRecord rfl (fun _ => rfl) (by decide) (by decide) fun x _ =>
    ⟨_, fields?_deleteAll x, rfl, fun found keep => by
      obtain _ | ⟨id, _ | ⟨kind, _ | ⟨items, _ | ⟨days, _ | _⟩⟩⟩⟩ := keep
      exact storage?_bind id kind <| required_bind items (fun _ _ => trivial) <|
        Option.bind_eq_some_iff.2 ⟨x.daysToProlong, optional_days days, rfl⟩⟩

instance : Shaped DeleteAllAnswer :=
  .record [("removed", Shaped.layout (List PermissionKey)),
    ("prolonged", Shaped.layout (List PathRef))]

instance : Faithful DeleteAllAnswer :=
  .ofFields rfl (fun _ => rfl) (by decide) (by decide) fun x _ =>
  ⟨[encode x.removed, encode x.prolonged], rfl, rfl, fun found keep => by
    obtain _ | ⟨removed, _ | ⟨prolonged, _ | _⟩⟩ := keep
    exact required_bind removed (fun _ _ => trivial) <|
      required_bind prolonged (fun _ _ => trivial) rfl⟩

instance : Shaped MoveRequest :=
  .record [("storageId", Shaped.layout Int64), ("type", Shaped.layout StorageKind),
    ("source", Shaped.layout PathRef), ("destination", Shaped.layout PathRef)]

instance : Faithful MoveRequest := .ofFields rfl (fun _ => rfl) (by decide) (by decide) fun x _ =>
  ⟨[encode x.storage.id, encode x.storage.kind, encode x.source,
    encode x.destination], rfl, rfl, fun found keep => by
    obtain _ | ⟨id, _ | ⟨kind, _ | ⟨source, _ | ⟨destination, _ | _⟩⟩⟩⟩ := keep
    exact storage?_bind id kind <| required_bind source trivial <|
      required_bind destination trivial rfl⟩

instance : Shaped MoveAnswer :=
  .record [("migrated", Shaped.layout UInt64)]

instance : Faithful MoveAnswer := .ofFields rfl (fun _ => rfl) (by decide) (by decide) fun x _ =>
  ⟨[encode x.migrated], rfl, rfl, fun found keep => by
    obtain _ | ⟨migrated, _ | _⟩ := keep
    exact required_bind migrated trivial rfl⟩

instance : Shaped ResolveRequest :=
  .record [("storageId", Shaped.layout Int64), ("requests", Shaped.layout (List PathRef))]

instance : Faithful ResolveRequest :=
  .ofFields rfl (fun _ => rfl) (by decide) (by decide) fun x _ =>
  ⟨[encode x.storageId, encode x.items], rfl, rfl, fun found keep => by
    obtain _ | ⟨id, _ | ⟨items, _ | _⟩⟩ := keep
    exact required_bind id trivial <| required_bind items (fun _ _ => trivial) rfl⟩

instance : Shaped ResolvedMask :=
  .record [("path", Shaped.layout String), ("pathType", Shaped.layout PathType),
    ("mask", Shaped.layout Mask)]

instance : Faithful ResolvedMask := .ofFields rfl (fun _ => rfl) (by decide) (by decide) fun x _ =>
  ⟨[encode x.path, encode x.type, encode x.mask], rfl, rfl, fun found keep => by
    obtain _ | ⟨path, _ | ⟨type, _ | ⟨mask, _ | _⟩⟩⟩ := keep
    exact required_bind path trivial <| required_bind type trivial <|
      required_bind mask trivial rfl⟩

/-! ## Settings -/

instance : Shaped StoreSettings :=
  .record [("backend", Shaped.layout String), ("database_url", Shaped.layout (Option String)),
    ("pool_size", Shaped.layout UInt32), ("connection_timeout_secs", Shaped.layout UInt64),
    ("query_timeout_secs", Shaped.layout UInt64)]

instance : Faithful StoreSettings := .ofFields rfl (fun _ => rfl) (by decide) (by decide) fun x _ =>
  ⟨[encode x.backend, encode x.databaseUrl, encode x.poolSize, encode x.connectSeconds,
    encode x.querySeconds], rfl, rfl, fun found keep => by
    obtain _ | ⟨backend, _ | ⟨url, _ | ⟨pool, _ | ⟨connect, _ | ⟨query, _ | _⟩⟩⟩⟩⟩ := keep
    exact optional_bind backend trivial <| optional_bind url trivial <|
      optional_bind pool trivial <| optional_bind connect trivial <| optional_bind query trivial rfl⟩

instance : Shaped LimitSettings :=
  .record [("max_batch_size", Shaped.layout UInt64)]

instance : Faithful LimitSettings := .ofFields rfl (fun _ => rfl) (by decide) (by decide) fun x _ =>
  ⟨[encode x.maxBatch], rfl, rfl, fun found keep => by
    obtain _ | ⟨most, _ | _⟩ := keep
    exact optional_bind most trivial rfl⟩

instance : Shaped IndexSettings :=
  .record [("enabled", Shaped.layout Bool), ("max_capacity", Shaped.layout UInt64),
    ("ttl_secs", Shaped.layout UInt64)]

instance : Faithful IndexSettings := .ofFields rfl (fun _ => rfl) (by decide) (by decide) fun x _ =>
  ⟨[encode x.enabled, encode x.capacity, encode x.seconds], rfl, rfl, fun found keep => by
    obtain _ | ⟨enabled, _ | ⟨capacity, _ | ⟨seconds, _ | _⟩⟩⟩ := keep
    exact optional_bind enabled trivial <| optional_bind capacity trivial <|
      optional_bind seconds trivial rfl⟩

instance : Shaped LogSettings :=
  .record [("level", Shaped.layout String), ("json", Shaped.layout Bool)]

instance : Faithful LogSettings := .ofFields rfl (fun _ => rfl) (by decide) (by decide) fun x _ =>
  ⟨[encode x.level, encode x.json], rfl, rfl, fun found keep => by
    obtain _ | ⟨level, _ | ⟨json, _ | _⟩⟩ := keep
    exact optional_bind level trivial <| optional_bind json trivial rfl⟩

instance : Shaped Settings :=
  .record [("storage", Shaped.layout StoreSettings), ("limits", Shaped.layout LimitSettings),
    ("index_cache", Shaped.layout IndexSettings), ("logging", Shaped.layout LogSettings)]

instance : Faithful Settings := .ofFields rfl (fun _ => rfl) (by decide) (by decide) fun x _ =>
  ⟨[encode x.storage, encode x.limits, encode x.index,
    encode x.logging], rfl, rfl, fun found keep => by
    obtain _ | ⟨storage, _ | ⟨limits, _ | ⟨index, _ | ⟨logging, _ | _⟩⟩⟩⟩ := keep
    exact optional_bind storage trivial <| optional_bind limits trivial <|
      optional_bind index trivial <| optional_bind logging trivial rfl⟩

/-! ## Everything that crosses -/

/-- **Everything that crosses the boundary survives**: names, rows and their parts, requests and answers,
and settings. A value that has only instants in years of four digits and outside leap seconds is read
back from what is written of it, with as many digits of a second as there are; and so it is when unknown
fields are added, fields are put into another order, or records become lists of their fields, anywhere
in it. -/
theorem wire_values_survive :
    (Faithful PathType ∧ Faithful SidType ∧ Faithful StorageKind ∧ Faithful Instant) ∧
    (∀ nanos, (Rfc3339.writeFraction nanos).length ∈ [0, 4, 7, 10]) ∧
    (Faithful StorageRef ∧ Faithful Sid ∧ Faithful PathRef ∧ Faithful PermissionKey ∧
      Faithful GrantRequest ∧ Faithful PermissionEntry ∧ Faithful Permission ∧
      Faithful Prolongation ∧ Faithful ListedStorage) ∧
    (Faithful LoadRequest ∧ Faithful (List PermissionEntry)) ∧
    (Faithful InsertRequest ∧ Faithful DeleteRequest ∧ Faithful (List PermissionKey)) ∧
    (Faithful DeleteAllRequest ∧ Faithful DeleteAllAnswer) ∧
    (Faithful MoveRequest ∧ Faithful MoveAnswer) ∧
    (Faithful ResolveRequest ∧ Faithful ResolvedMask ∧ Faithful (List ResolvedMask)) ∧
    Faithful (List ListedStorage) ∧ Faithful Settings := by
  refine ⟨?names, Rfc3339.length_writeFraction, ?rows, ?load, ?write, ?deleteAll, ?move, ?resolve,
    inferInstance, inferInstance⟩
  case names => exact ⟨inferInstance, inferInstance, inferInstance, inferInstance⟩
  case rows =>
    exact ⟨inferInstance, inferInstance, inferInstance, inferInstance, inferInstance, inferInstance,
      inferInstance, inferInstance, inferInstance⟩
  case load => exact ⟨inferInstance, inferInstance⟩
  case write => exact ⟨inferInstance, inferInstance, inferInstance⟩
  case deleteAll => exact ⟨inferInstance, inferInstance⟩
  case move => exact ⟨inferInstance, inferInstance⟩
  case resolve => exact ⟨inferInstance, inferInstance, inferInstance⟩

end PathAcl.Wire
