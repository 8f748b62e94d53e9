import PathAcl.Store
import PathAcl.Tree

/-! # The table in memory
A store whose state is a value: a path tree and a kind for each known storage, and the prolongations
of each storage by path. An operation goes through its arguments first, then works on the table in
place. -/

namespace PathAcl

/-- A known storage (`StorageBucket`). -/
structure Bucket where
  kind : StorageKind
  tree : PathTree
  deriving Inhabited

/-- The **table**: the known storages, and the prolongations (`MemoryPermissionStore`). -/
structure Memory where
  storages : SortedMap StorageId Bucket
  prolonged : SortedMap StorageId (SortedMap String Prolongation)
  deriving Inhabited

namespace Memory

/-- The table that knows nothing. -/
def empty : Memory := ⟨∅, ∅⟩

instance : EmptyCollection Memory := ⟨empty⟩

/-! ## Views -/

/-- The rows of a storage (`dump`). -/
def rows (m : Memory) (id : StorageId) : List Permission :=
  match m.storages.find? id with
  | none => []
  | some b => b.tree.rows

/-- The number of rows of a storage, as the table counts them (`row_count`). -/
def rowCount (m : Memory) (id : StorageId) : Nat :=
  match m.storages.find? id with
  | none => 0
  | some b => b.tree.rowCount

/-- The kind of a storage, if it is known (`storage_kind`). -/
def kindOf (m : Memory) (id : StorageId) : Option StorageKind :=
  (m.storages.find? id).map Bucket.kind

/-! ## Operations -/

/-- A fault of an argument refuses the operation. -/
def require (check : Except Fault Unit) : Except StoreError Unit := check.mapError .ofFault

/-- A storage that is known under another kind refuses the operation (`check_kind`). -/
def requireKind (storage : StorageRef) (registered : StorageKind) : Except StoreError Unit :=
  if registered = storage.kind then .ok ()
  else .error (.kindMismatch storage.id registered storage.kind)

/-- Replaces the tree of a known storage. -/
def setTree (m : Memory) (id : StorageId) (tree : PathTree) : Memory :=
  { m with storages := m.storages.modify id fun b => { b with tree } }

/-- Drops rows from a tree one after the other, and collects the keys of those that were there
(`delete_permissions`). -/
def dropKeys : List PermissionKey → PathTree → List PermissionKey × PathTree
  | [], t => ([], t)
  | key :: keys, t =>
    match t.remove? key with
    | none => dropKeys keys t
    | some left =>
      let (dropped, rest) := dropKeys keys left
      (key :: dropped, rest)

/-- The rows held at the places, place by place (`load_permissions`). -/
def load (m : Memory) (id : StorageId) (places : List PathRef) :
    Except StoreError (List Permission) := do
  require (Validity.checkStorageId id)
  match m.storages.find? id with
  | none => pure []
  | some b => pure (places.flatMap b.tree.rowsAt)

/-- The rows that the sids hold at the places (`find_applicable`). -/
def loadHeld (m : Memory) (id : StorageId) (places : List PathRef) (sids : List Sid) :
    Except StoreError (List Permission) := do
  require (Validity.checkStorageId id)
  match m.storages.find? id with
  | none => pure []
  | some b => pure (b.tree.rowsFor places sids)

/-- Takes the rows that the roots govern out of a tree, root after root (`delete_trees`). -/
def dropTrees : List PathRef → PathTree → List Permission × PathTree
  | [], t => ([], t)
  | root :: roots, t =>
    let (dropped, left) := t.takeUnder root
    let (more, rest) := dropTrees roots left
    (dropped ++ more, rest)

/-- The storages in which one of the sids holds a row (`storages_with_grants`). -/
def storagesHolding (m : Memory) (sids : List Sid) : List StorageRef :=
  (m.storages.toList.filter fun s => s.2.tree.holdsAny sids).map fun s => ⟨s.1, s.2.kind⟩

/-- The prolongations of exactly the given paths (`find_prolongations`). -/
def prolongationsAt (m : Memory) (id : StorageId) (paths : List String) :
    Except StoreError (List Prolongation) := do
  require (Validity.checkStorageId id)
  pure (paths.filterMap ((m.prolonged.find? id).getD ∅).find?)

/-- All prolongations of a storage, by path (`list_prolongations`). -/
def prolongations (m : Memory) (id : StorageId) : Except StoreError (List Prolongation) := do
  require (Validity.checkStorageId id)
  pure ((m.prolonged.find? id).getD ∅).values

/-! ## The store -/

/-- A question to the table. -/
def query {α : Type} (op : Memory → Except StoreError α) : Action Memory StoreError α :=
  fun m => ⟨op m, m, []⟩

/-- The bucket of a storage, if it is known. -/
def bucket? (id : StorageId) : Action Memory StoreError (Option Bucket) :=
  query fun m => .ok (m.storages.find? id)

/-- The bucket of a storage. One that was not known is known from here on, and has no rows. -/
def enter (storage : StorageRef) : Action Memory StoreError Bucket := fun m =>
  match m.storages.find? storage.id with
  | some b => ⟨.ok b, m, []⟩
  | none =>
    let fresh : Bucket := ⟨storage.kind, ∅⟩
    ⟨.ok fresh, { m with storages := m.storages.insert storage.id fresh }, []⟩

/-- Puts a tree in the place of that of a known storage. -/
def putTree (id : StorageId) (tree : PathTree) : Action Memory StoreError Unit :=
  fun m => ⟨.ok (), m.setTree id tree, []⟩

/-- Writes prolongations one after the other (`upsert_prolongations`). -/
def record (id : StorageId) (records : List Prolongation) : Action Memory StoreError Unit :=
  fun m =>
    let byPath := records.foldl (fun known p => known.insert p.path p)
      ((m.prolonged.find? id).getD ∅)
    ⟨.ok (), { m with prolonged := m.prolonged.insert id byPath }, []⟩

/-- The table as a **store**. -/
def store : Store Memory where
  register storage := do
    .ofExcept (require (Validity.checkStorageId storage.id))
    match ← bucket? storage.id with
    | some b => .ofExcept (requireKind storage b.kind)
    | none =>
      let _ ← enter storage
      pure ()
  kindOf id := query fun m => .ok (m.kindOf id)
  upsert storage rows := do
    .ofExcept (require (Validity.checkStorageId storage.id))
    .ofExcept (require (Validity.checkAll Validity.checkPermission rows))
    let kept := Permission.keepLast rows
    -- the storage becomes known before kinds are compared; a new one has the kind at hand
    let b ← enter storage
    .ofExcept (requireKind storage b.kind)
    let tree := kept.foldl PathTree.upsert b.tree
    putTree storage.id tree
    .log (.rowsUpserted tree.rowCount)
    pure kept
  delete id keys := do
    .ofExcept (require (Validity.checkStorageId id))
    .ofExcept (require (Validity.checkAll Validity.checkKey keys))
    match ← bucket? id with
    | none => pure []
    | some b =>
      let (dropped, tree) := dropKeys keys b.tree
      putTree id tree
      pure dropped
  load id places := query fun m => m.load id places
  loadHeld id places sids := query fun m => m.loadHeld id places sids
  deleteUnder id roots := do
    .ofExcept (require (Validity.checkStorageId id))
    .ofExcept (require (Validity.checkAll (fun r => Validity.checkPath r.path) roots))
    match ← bucket? id with
    | none => pure []
    | some b =>
      let (dropped, tree) := dropTrees roots b.tree
      putTree id tree
      .log (.treesRemoved .memory dropped.length)
      pure (dropped.map Permission.key)
  relocate id source destination := do
    .ofExcept (require (Validity.checkStorageId id))
    .ofExcept (require (Validity.checkPath source.path))
    .ofExcept (require (Validity.checkPath destination.path))
    match ← bucket? id with
    | none => pure 0
    | some b =>
      if b.tree.isTaken destination then .fail (.destinationOccupied id destination.path)
      else
        let (moved, tree) := b.tree.relocate source destination
        putTree id tree
        .log (.treeMoved .memory moved)
        pure moved
  storagesHolding sids := query fun m => .ok (m.storagesHolding sids)
  prolong id records := do
    .ofExcept (require (Validity.checkStorageId id))
    .ofExcept (require (Validity.checkAll (Validity.checkProlongation id) records))
    let kept := Prolongation.keepLast records
    record id kept
    pure kept
  prolongationsAt id paths := query fun m => m.prolongationsAt id paths
  prolongations id := query fun m => m.prolongations id
  health := query fun _ => .ok ⟨"in-memory storage", none⟩

end Memory

end PathAcl
