import PathAcl.Memory
import PathAcl.Proofs.SortedMap
import PathAcl.Proofs.Tree.Counts
import PathAcl.Proofs.Validity

/-! # The table, storage by storage
The table gives each storage a tree and each known storage a kind. An accepted write gives one
storage another tree and leaves those of all others; what it makes of the tree is told once for each
operation. -/

namespace PathAcl

open Std

namespace Memory

variable {m m' : Memory}

/-- The tree of a storage; that of an unknown one is empty. -/
def tree (m : Memory) (id : StorageId) : PathTree := ((m.storages.find? id).map Bucket.tree).getD ∅

/-- The rows of a storage are those of its tree. -/
theorem rows_eq (m : Memory) (id : StorageId) : m.rows id = (m.tree id).rows := by
  rw [rows, tree]
  cases m.storages.find? id <;> rfl

/-- The number of rows of a storage is that of its tree. -/
theorem rowCount_eq (m : Memory) (id : StorageId) : m.rowCount id = (m.tree id).rowCount := by
  rw [rowCount, tree]
  cases m.storages.find? id <;> rfl

/-- A storage is unknown or has a bucket with its kind and tree. -/
theorem find?_cases (m : Memory) (id : StorageId) :
    (m.storages.find? id = none ∧ m.kindOf id = none ∧ m.tree id = ∅) ∨
      ∃ b, m.storages.find? id = some b ∧ m.kindOf id = some b.kind ∧ m.tree id = b.tree := by
  rw [kindOf, tree]
  cases m.storages.find? id with
  | none => exact .inl ⟨rfl, rfl, rfl⟩
  | some b => exact .inr ⟨b, rfl, rfl, rfl⟩

/-- The storages found for some sids are the known ones whose tree knows of one of them. -/
theorem mem_storagesHolding {sids : List Sid} {storage : StorageRef} :
    storage ∈ m.storagesHolding sids ↔
      m.kindOf storage.id = some storage.kind ∧ (m.tree storage.id).holdsAny sids = true := by
  rw [storagesHolding, List.mem_map]
  constructor
  · rintro ⟨⟨id, b⟩, hmem, rfl⟩
    obtain ⟨hmem, holds⟩ := List.mem_filter.1 hmem
    have found : m.storages.find? id = some b := m.storages.find?_eq_some_iff.2 hmem
    rw [kindOf, tree, found]
    exact ⟨rfl, holds⟩
  · rintro ⟨hkind, holds⟩
    rcases m.find?_cases storage.id with ⟨-, unknown, -⟩ | ⟨b, found, known, here⟩
    · rw [unknown] at hkind
      cases hkind
    · rw [known] at hkind
      rw [here] at holds
      refine ⟨(storage.id, b), List.mem_filter.2 ⟨?_, holds⟩, ?_⟩
      · exact m.storages.find?_eq_some_iff.1 found
      · rw [Option.some.inj hkind]

/-- An accepted **write** to one storage: it gets another tree, all others keep theirs, and no known
storage changes its kind. -/
structure Writes (m : Memory) (id : StorageId) (new : PathTree) (m' : Memory) : Prop where
  positive : 0 < id
  tree : ∀ i, m'.tree i = if i = id then new else m.tree i
  known : ∀ i kind, m.kindOf i = some kind → m'.kindOf i = some kind
  named : ∀ i kind, m'.kindOf i = some kind → m.kindOf i = some kind ∨ i = id

/-- A write may leave the storages as they are. -/
theorem writes_of_storages_eq {id : StorageId} (h : 0 < id) (same : m'.storages = m.storages) :
    m.Writes id (m.tree id) m' := by
  have trees : ∀ i, m'.tree i = m.tree i := fun i => by rw [Memory.tree, same, Memory.tree]
  have kinds : ∀ i, m'.kindOf i = m.kindOf i := fun i => by rw [kindOf, same, kindOf]
  refine ⟨h, fun i => ?_, fun i _ hk => (kinds i).trans hk, fun i _ hk => .inl ((kinds i) ▸ hk)⟩
  by_cases e : i = id
  · rw [if_pos e, trees, e]
  · rw [if_neg e, trees]

/-- Replacing the tree of an unknown storage changes nothing. -/
theorem setTree_of_unknown {id : StorageId} (unknown : m.storages.find? id = none)
    (new : PathTree) : m.setTree id new = m := by
  rw [setTree, SortedMap.modify, unknown]

/-- Replacing the tree of a known storage gives it a new bucket. -/
theorem setTree_of_known {id : StorageId} {b : Bucket} (known : m.storages.find? id = some b)
    (new : PathTree) :
    m.setTree id new = { m with storages := m.storages.insert id ⟨b.kind, new⟩ } := by
  rw [setTree, SortedMap.modify, known]

/-- Replacing the tree of a storage changes no kind. -/
theorem kindOf_setTree (m : Memory) (id : StorageId) (new : PathTree) (i : StorageId) :
    (m.setTree id new).kindOf i = m.kindOf i := by
  rw [kindOf, kindOf, setTree, SortedMap.find?_modify]
  by_cases e : i = id
  · rw [if_pos e, e, Option.map_map]
    rfl
  · rw [if_neg e]

/-- Replacing the tree of a storage is a write, if an empty tree is replaced by an empty one. -/
theorem writes_setTree {id : StorageId} (h : 0 < id) {new : PathTree}
    (bare : m.tree id = ∅ → new = ∅) : m.Writes id new (m.setTree id new) := by
  rcases m.find?_cases id with ⟨unknown, -, here⟩ | ⟨b, found, -, -⟩
  · rw [setTree_of_unknown unknown, bare here, ← here]
    exact writes_of_storages_eq h rfl
  refine ⟨h, fun i => ?_, fun i kind hk => (kindOf_setTree ..).trans hk,
    fun i kind hk => .inl ((kindOf_setTree ..).symm.trans hk)⟩
  rw [Memory.tree, setTree, SortedMap.find?_modify, found]
  by_cases e : i = id
  · rw [if_pos e, if_pos e]
    rfl
  · rw [if_neg e, if_neg e]
    rfl

/-- Giving a storage that is unknown or of the kind at hand a new bucket is a write. -/
theorem writes_insert {storage : StorageRef} (h : 0 < storage.id)
    (kind : ∀ kind, m.kindOf storage.id = some kind → kind = storage.kind) (new : PathTree) :
    m.Writes storage.id new
      { m with storages := m.storages.insert storage.id ⟨storage.kind, new⟩ } := by
  refine ⟨h, fun i => ?_, fun i k hk => ?_, fun i k hk => ?_⟩
  · rw [Memory.tree, SortedMap.find?_insert]
    by_cases e : i = storage.id
    · rw [if_pos e, if_pos e]
      rfl
    · rw [if_neg e, if_neg e]
      rfl
  · rw [kindOf, SortedMap.find?_insert]
    by_cases e : i = storage.id
    · rw [if_pos e, kind k (e ▸ hk)]
      rfl
    · rw [if_neg e]
      exact hk
  · rw [kindOf, SortedMap.find?_insert] at hk
    by_cases e : i = storage.id
    · exact .inr e
    · rw [if_neg e] at hk
      exact .inl hk

/-! ## The writes as functions
What each write of the store comes to: the answer with the table that is left, or the failure. -/

/-- The table with a storage known. -/
def register (m : Memory) (storage : StorageRef) : Except StoreError Memory := do
  require (Validity.checkStorageId storage.id)
  match m.storages.find? storage.id with
  | some b =>
    requireKind storage b.kind
    pure m
  | none => pure { m with storages := m.storages.insert storage.id ⟨storage.kind, ∅⟩ }

/-- The table with rows written, and the rows. -/
def upsert (m : Memory) (storage : StorageRef) (rows : List Permission) :
    Except StoreError (List Permission × Memory) := do
  require (Validity.checkStorageId storage.id)
  require (Validity.checkAll Validity.checkPermission rows)
  let kept := Permission.keepLast rows
  let b := (m.storages.find? storage.id).getD ⟨storage.kind, ∅⟩
  requireKind storage b.kind
  let tree := kept.foldl PathTree.upsert b.tree
  pure (kept, { m with storages := m.storages.insert storage.id { b with tree } })

/-- The table with rows dropped, and the keys of those that were there. -/
def delete (m : Memory) (id : StorageId) (keys : List PermissionKey) :
    Except StoreError (List PermissionKey × Memory) := do
  require (Validity.checkStorageId id)
  require (Validity.checkAll Validity.checkKey keys)
  match m.storages.find? id with
  | none => pure ([], m)
  | some b =>
    let (dropped, tree) := dropKeys keys b.tree
    pure (dropped, m.setTree id tree)

/-- The table without the rows that the roots govern, and their keys. -/
def deleteUnder (m : Memory) (id : StorageId) (roots : List PathRef) :
    Except StoreError (List PermissionKey × Memory) := do
  require (Validity.checkStorageId id)
  require (Validity.checkAll (fun r => Validity.checkPath r.path) roots)
  match m.storages.find? id with
  | none => pure ([], m)
  | some b =>
    let (dropped, tree) := dropTrees roots b.tree
    pure (dropped.map Permission.key, m.setTree id tree)

/-- The table with the rows that the source governs moved to the destination, and their number. -/
def relocate (m : Memory) (id : StorageId) (source destination : PathRef) :
    Except StoreError (Nat × Memory) := do
  require (Validity.checkStorageId id)
  require (Validity.checkPath source.path)
  require (Validity.checkPath destination.path)
  match m.storages.find? id with
  | none => pure (0, m)
  | some b =>
    if b.tree.isTaken destination then .error (.destinationOccupied id destination.path)
    else
      let (moved, tree) := b.tree.relocate source destination
      pure (moved, m.setTree id tree)

/-- The table with prolongations written, and these. -/
def prolong (m : Memory) (id : StorageId) (records : List Prolongation) :
    Except StoreError (List Prolongation × Memory) := do
  require (Validity.checkStorageId id)
  require (Validity.checkAll (Validity.checkProlongation id) records)
  let kept := Prolongation.keepLast records
  let byPath := kept.foldl (fun known p => known.insert p.path p) ((m.prolonged.find? id).getD ∅)
  pure (kept, { m with prolonged := m.prolonged.insert id byPath })

/-! ## The operations -/

/-- A chain of checks passes if each does. -/
theorem bind_eq_ok_iff {ε α β : Type} {a : Except ε α} {f : α → Except ε β} {y : β} :
    (a >>= f) = .ok y ↔ ∃ x, a = .ok x ∧ f x = .ok y := by
  cases a with
  | error e => exact iff_of_false nofun fun ⟨_, h, _⟩ => nomatch h
  | ok x => exact ⟨fun h => ⟨x, rfl, h⟩, fun ⟨_, h, k⟩ => Except.ok.inj h ▸ k⟩

/-- What a table requires has been checked. -/
theorem require_eq_ok_iff {check : Except Fault Unit} {u : Unit} :
    require check = .ok u ↔ check = .ok () := Validity.mapError_eq_ok_iff

/-- A storage of the kind at hand is accepted. -/
theorem requireKind_eq_ok_iff {storage : StorageRef} {kind : StorageKind} {u : Unit} :
    requireKind storage kind = .ok u ↔ kind = storage.kind := by
  rw [requireKind]
  by_cases h : kind = storage.kind
  · rw [if_pos h]
    exact iff_of_true rfl h
  · rw [if_neg h]
    exact iff_of_false nofun h

/-- Making a storage known leaves the trees. -/
theorem writes_of_register {storage : StorageRef} (h : m.register storage = .ok m') :
    m.Writes storage.id (m.tree storage.id) m' := by
  rw [register] at h
  obtain ⟨_, checked, h⟩ := bind_eq_ok_iff.1 h
  have positive := Validity.checkStorageId_eq_ok_iff.1 (require_eq_ok_iff.1 checked)
  rcases m.find?_cases storage.id with ⟨found, unknown, here⟩ | ⟨b, found, known, here⟩
  · rw [found] at h
    obtain rfl := Except.ok.inj h
    -- a storage becomes known with an empty tree, which it had before
    rw [here]
    refine writes_insert positive (fun kind hk => ?_) ∅
    rw [unknown] at hk
    cases hk
  · rw [found] at h
    obtain ⟨-, -, h⟩ := bind_eq_ok_iff.1 h
    obtain rfl := Except.ok.inj h
    exact writes_of_storages_eq positive rfl

/-- So does it leave the prolongations. -/
theorem prolonged_of_register {storage : StorageRef} (h : m.register storage = .ok m') :
    m'.prolonged = m.prolonged := by
  rw [register] at h
  obtain ⟨_, -, h⟩ := bind_eq_ok_iff.1 h
  cases known : m.storages.find? storage.id with
  | none =>
      rw [known] at h
      obtain rfl := Except.ok.inj h
      rfl
  | some b =>
      rw [known] at h
      obtain ⟨_, -, h⟩ := bind_eq_ok_iff.1 h
      obtain rfl := Except.ok.inj h
      rfl

/-- Which rows are written, and what that makes of the table. -/
theorem upsert_eq_ok_iff {storage : StorageRef} {rows kept : List Permission} :
    m.upsert storage rows = .ok (kept, m') ↔
      (0 < storage.id ∧ (∀ row ∈ rows, Validity.checkPermission row = .ok ()) ∧
        ∀ kind, m.kindOf storage.id = some kind → kind = storage.kind) ∧
      kept = Permission.keepLast rows ∧ m' =
        ⟨m.storages.insert storage.id
          ⟨storage.kind, kept.foldl PathTree.upsert (m.tree storage.id)⟩, m.prolonged⟩ := by
  -- an unknown storage is taken to have the kind at hand and no rows
  obtain ⟨kind, bucket, known⟩ : ∃ kind,
      (m.storages.find? storage.id).getD ⟨storage.kind, ∅⟩ = ⟨kind, m.tree storage.id⟩ ∧
      (kind = storage.kind ↔ ∀ k, m.kindOf storage.id = some k → k = storage.kind) := by
    rcases m.find?_cases storage.id with ⟨found, unknown, here⟩ | ⟨b, found, known, here⟩
    · exact ⟨storage.kind, by rw [found, here]; rfl, by simp [unknown]⟩
    · exact ⟨b.kind, by rw [found, here]; rfl, by simp [known]⟩
  simp only [upsert, bucket, bind_eq_ok_iff, require_eq_ok_iff, requireKind_eq_ok_iff,
    Validity.checkStorageId_eq_ok_iff, Validity.checkAll_eq_ok_iff, exists_const]
  rw [known]
  constructor
  · rintro ⟨positive, valid, kinds, h⟩
    obtain ⟨rfl, rfl⟩ := Prod.mk.inj (Except.ok.inj h)
    exact ⟨⟨positive, valid, kinds⟩, rfl, by rw [known.2 kinds]⟩
  · rintro ⟨⟨positive, valid, kinds⟩, rfl, rfl⟩
    exact ⟨positive, valid, kinds, by rw [known.2 kinds]; rfl⟩

/-- Writing rows puts the last of each key into the tree. -/
theorem writes_of_upsert {storage : StorageRef} {rows kept : List Permission}
    (h : m.upsert storage rows = .ok (kept, m')) :
    kept = Permission.keepLast rows ∧ (∀ row ∈ rows, Validity.checkPermission row = .ok ()) ∧
      m.Writes storage.id (kept.foldl PathTree.upsert (m.tree storage.id)) m' := by
  obtain ⟨⟨positive, valid, kinds⟩, same, rfl⟩ := upsert_eq_ok_iff.1 h
  exact ⟨same, valid, writes_insert positive kinds _⟩

/-- Dropping keys from the empty tree finds none. -/
theorem dropKeys_empty (keys : List PermissionKey) : dropKeys keys ∅ = ([], ∅) := by
  induction keys with
  | nil => rfl
  | cons key keys ih =>
      have absent : (∅ : PathTree).remove? key = none := by
        rw [PathTree.remove?_eq_none_iff, PathTree.grant?_eq]
        exact Node.grant?_empty _ _
      rw [dropKeys, absent]
      exact ih

/-- Dropping the keys that are accepted from a storage, known or not. -/
theorem delete_eq {id : StorageId} (positive : 0 < id) {keys : List PermissionKey}
    (valid : ∀ key ∈ keys, Validity.checkKey key = .ok ()) :
    m.delete id keys =
      .ok ((dropKeys keys (m.tree id)).1, m.setTree id (dropKeys keys (m.tree id)).2) := by
  have checked : require (Validity.checkStorageId id) = .ok () :=
    require_eq_ok_iff.2 (Validity.checkStorageId_eq_ok_iff.2 positive)
  have accepted : require (Validity.checkAll Validity.checkKey keys) = .ok () :=
    require_eq_ok_iff.2 (Validity.checkAll_eq_ok_iff.2 valid)
  rw [delete, checked, accepted]
  rcases m.find?_cases id with ⟨found, -, here⟩ | ⟨b, found, -, here⟩
  · -- in an unknown storage no key is found, and its tree is not replaced
    rw [here, dropKeys_empty, setTree_of_unknown found, found]
    rfl
  · rw [here, found]
    rfl

/-- Which keys are dropped, and what that makes of the table. -/
theorem delete_eq_ok_iff {id : StorageId} {keys dropped : List PermissionKey} :
    m.delete id keys = .ok (dropped, m') ↔
      (0 < id ∧ ∀ key ∈ keys, Validity.checkKey key = .ok ()) ∧
      dropped = (dropKeys keys (m.tree id)).1 ∧ m' = m.setTree id (dropKeys keys (m.tree id)).2 := by
  constructor
  · intro h
    obtain ⟨_, checked, rest⟩ := bind_eq_ok_iff.1 h
    obtain ⟨_, accepted, -⟩ := bind_eq_ok_iff.1 rest
    have positive := Validity.checkStorageId_eq_ok_iff.1 (require_eq_ok_iff.1 checked)
    have valid := Validity.checkAll_eq_ok_iff.1 (require_eq_ok_iff.1 accepted)
    obtain ⟨rfl, rfl⟩ := Prod.mk.inj (Except.ok.inj (h.symm.trans (delete_eq positive valid)))
    exact ⟨⟨positive, valid⟩, rfl, rfl⟩
  · rintro ⟨⟨positive, valid⟩, rfl, rfl⟩
    exact delete_eq positive valid

/-- Dropping rows takes their keys out of the tree. -/
theorem writes_of_delete {id : StorageId} {keys dropped : List PermissionKey}
    (h : m.delete id keys = .ok (dropped, m')) :
    dropped = (dropKeys keys (m.tree id)).1 ∧
      m.Writes id (dropKeys keys (m.tree id)).2 m' := by
  obtain ⟨⟨positive, -⟩, same, rfl⟩ := delete_eq_ok_iff.1 h
  refine ⟨same, writes_setTree positive fun bare => ?_⟩
  rw [bare, dropKeys_empty]

/-- No node is taken out of the empty tree. -/
theorem takeOut?_empty (path : String) :
    (∅ : PathTree).root.takeOut? (Path.segments path) = none := by
  cases ht : (∅ : PathTree).root.takeOut? (Path.segments path) with
  | none => rfl
  | some both =>
      have here : ((∅ : PathTree).node? path).isSome = true := by
        rw [PathTree.node?_of_takeOut? ht]
        rfl
      obtain ⟨row, hrow, -⟩ := PathTree.wellFormed_empty.node?_isSome_iff.1 here
      exact absurd hrow List.not_mem_nil

/-- No root governs a row of the empty tree. -/
theorem takeUnder_empty (root : PathRef) : (∅ : PathTree).takeUnder root = ([], ∅) := by
  obtain ⟨path, type⟩ := root
  cases type with
  | folder => rw [PathTree.takeUnder_folder, takeOut?_empty]
  | file =>
      have free : (∅ : PathTree).rowsAt ⟨path, .file⟩ = [] := by
        rw [List.eq_nil_iff_forall_not_mem]
        intro row hrow
        exact absurd (PathTree.wellFormed_empty.mem_rowsAt.1 hrow).1 List.not_mem_nil
      rw [PathTree.takeUnder_file, free]
      rfl

/-- Nothing is dropped from the empty tree. -/
theorem dropTrees_empty (roots : List PathRef) : dropTrees roots ∅ = ([], ∅) := by
  induction roots with
  | nil => rfl
  | cons root roots ih =>
      rw [dropTrees, takeUnder_empty]
      simp only [ih, List.append_nil]

/-- Dropping the rows under some roots takes them out of the tree. -/
theorem writes_of_deleteUnder {id : StorageId} {roots : List PathRef} {dropped : List PermissionKey}
    (h : m.deleteUnder id roots = .ok (dropped, m')) :
    dropped = (dropTrees roots (m.tree id)).1.map Permission.key ∧
      m.Writes id (dropTrees roots (m.tree id)).2 m' := by
  rw [deleteUnder] at h
  obtain ⟨_, checked, h⟩ := bind_eq_ok_iff.1 h
  obtain ⟨-, -, h⟩ := bind_eq_ok_iff.1 h
  have positive := Validity.checkStorageId_eq_ok_iff.1 (require_eq_ok_iff.1 checked)
  have writes := @writes_setTree m id positive (dropTrees roots (m.tree id)).2 fun bare => by
    rw [bare, dropTrees_empty]
  rcases m.find?_cases id with ⟨unknown, -, here⟩ | ⟨b, found, -, here⟩
  · rw [unknown] at h
    obtain ⟨rfl, rfl⟩ := Prod.mk.inj (Except.ok.inj h)
    rw [setTree_of_unknown unknown] at writes
    exact ⟨by rw [here, dropTrees_empty, List.map_nil], writes⟩
  · rw [found] at h
    obtain ⟨rfl, rfl⟩ := Prod.mk.inj (Except.ok.inj h)
    rw [here] at writes ⊢
    exact ⟨rfl, writes⟩

/-- So does it leave the prolongations. -/
theorem prolonged_of_deleteUnder {id : StorageId} {roots : List PathRef}
    {dropped : List PermissionKey} (h : m.deleteUnder id roots = .ok (dropped, m')) :
    m'.prolonged = m.prolonged := by
  rw [deleteUnder] at h
  obtain ⟨_, -, h⟩ := bind_eq_ok_iff.1 h
  obtain ⟨_, -, h⟩ := bind_eq_ok_iff.1 h
  cases known : m.storages.find? id with
  | none =>
      rw [known] at h
      obtain ⟨-, rfl⟩ := Prod.mk.inj (Except.ok.inj h)
      rfl
  | some b =>
      rw [known] at h
      obtain ⟨-, rfl⟩ := Prod.mk.inj (Except.ok.inj h)
      rfl

/-- Nothing is moved in the empty tree. -/
theorem relocate_empty (source destination : PathRef) :
    (∅ : PathTree).relocate source destination = (0, ∅) := by
  obtain ⟨path, type⟩ := source
  cases type with
  | folder => rw [PathTree.relocate_folder, takeOut?_empty]
  | file =>
      rw [PathTree.relocate_file, takeUnder_empty]
      rfl

/-- No place of the empty tree is taken. -/
theorem isTaken_empty (root : PathRef) : (∅ : PathTree).isTaken root = false := by
  rw [← Bool.not_eq_true, PathTree.wellFormed_empty.isTaken_iff]
  rintro ⟨row, hrow, -⟩
  exact absurd hrow List.not_mem_nil

/-- What a move comes to once its ends may be stored. -/
theorem relocate_eq {id : StorageId} {source destination : PathRef} (positive : 0 < id)
    (hs : Path.check source.path = .ok ()) (hd : Path.check destination.path = .ok ()) :
    m.relocate id source destination =
      if (m.tree id).isTaken destination then
        .error (.destinationOccupied id destination.path)
      else
        .ok (((m.tree id).relocate source destination).1,
          m.setTree id ((m.tree id).relocate source destination).2) := by
  have checkedId : require (Validity.checkStorageId id) = .ok () :=
    require_eq_ok_iff.2 (Validity.checkStorageId_eq_ok_iff.2 positive)
  have checked : ∀ {path}, Path.check path = .ok () → require (Validity.checkPath path) = .ok () :=
    fun h => require_eq_ok_iff.2 (Validity.checkPath_eq_ok_iff.2 h)
  rw [relocate, checkedId, checked hs, checked hd]
  rcases m.find?_cases id with ⟨found, -, here⟩ | ⟨b, found, -, here⟩
  · rw [setTree_of_unknown found, here, isTaken_empty, relocate_empty]
    simp only [found]
    rfl
  · simp only [found, here]
    rfl

/-- Moving rows within a storage moves them in its tree, to a free destination. -/
theorem writes_of_relocate {id : StorageId} {source destination : PathRef} {moved : Nat}
    (h : m.relocate id source destination = .ok (moved, m')) :
    Path.check source.path = .ok () ∧ Path.check destination.path = .ok () ∧
      (m.tree id).isTaken destination = false ∧
      moved = ((m.tree id).relocate source destination).1 ∧
      m.Writes id ((m.tree id).relocate source destination).2 m' := by
  have accepted := h
  rw [relocate] at accepted
  obtain ⟨_, checked, accepted⟩ := bind_eq_ok_iff.1 accepted
  obtain ⟨_, checkedSource, accepted⟩ := bind_eq_ok_iff.1 accepted
  obtain ⟨_, checkedDestination, -⟩ := bind_eq_ok_iff.1 accepted
  have positive := Validity.checkStorageId_eq_ok_iff.1 (require_eq_ok_iff.1 checked)
  have hs := Validity.checkPath_eq_ok_iff.1 (require_eq_ok_iff.1 checkedSource)
  have hd := Validity.checkPath_eq_ok_iff.1 (require_eq_ok_iff.1 checkedDestination)
  refine ⟨hs, hd, ?_⟩
  rw [relocate_eq positive hs hd] at h
  cases free : (m.tree id).isTaken destination with
  | true =>
      rw [if_pos free] at h
      cases h
  | false =>
      rw [if_neg (Bool.eq_false_iff.1 free)] at h
      obtain ⟨rfl, rfl⟩ := Prod.mk.inj (Except.ok.inj h)
      refine ⟨rfl, rfl, writes_setTree positive fun bare => ?_⟩
      rw [bare, relocate_empty]

/-- Moving rows leaves the prolongations where they were. -/
theorem prolonged_of_relocate {id : StorageId} {source destination : PathRef} {moved : Nat}
    (h : m.relocate id source destination = .ok (moved, m')) : m'.prolonged = m.prolonged := by
  obtain ⟨hs, hd, free, -, writes⟩ := writes_of_relocate h
  rw [relocate_eq writes.positive hs hd, if_neg (Bool.eq_false_iff.1 free)] at h
  obtain ⟨-, rfl⟩ := Prod.mk.inj (Except.ok.inj h)
  rfl

/-- The rows held at places of a storage, known or not. -/
theorem load_eq {id : StorageId} (positive : 0 < id) (places : List PathRef) :
    m.load id places = .ok (places.flatMap (m.tree id).rowsAt) := by
  have checked : require (Validity.checkStorageId id) = .ok () :=
    require_eq_ok_iff.2 (Validity.checkStorageId_eq_ok_iff.2 positive)
  rw [load, checked]
  rcases m.find?_cases id with ⟨found, -, here⟩ | ⟨b, found, -, here⟩
  · have bare : places.flatMap (∅ : PathTree).rowsAt = [] := by
      rw [List.eq_nil_iff_forall_not_mem]
      intro row hrow
      obtain ⟨place, -, hrow⟩ := List.mem_flatMap.1 hrow
      exact absurd (PathTree.wellFormed_empty.mem_rowsAt.1 hrow).1 List.not_mem_nil
    rw [here, bare, found]
    rfl
  · rw [here, found]
    rfl

/-- The rows that sids hold at places of a storage, known or not. -/
theorem loadHeld_eq {id : StorageId} (positive : 0 < id) (places : List PathRef) (sids : List Sid) :
    m.loadHeld id places sids = .ok ((m.tree id).rowsFor places sids) := by
  have checked : require (Validity.checkStorageId id) = .ok () :=
    require_eq_ok_iff.2 (Validity.checkStorageId_eq_ok_iff.2 positive)
  rw [loadHeld, checked]
  rcases m.find?_cases id with ⟨found, -, here⟩ | ⟨b, found, -, here⟩
  · have bare : (∅ : PathTree).rowsFor places sids = [] := by
      rw [List.eq_nil_iff_forall_not_mem]
      intro row hrow
      exact absurd (PathTree.wellFormed_empty.mem_rowsFor.1 hrow).1 List.not_mem_nil
    rw [here, bare, found]
    rfl
  · rw [here, found]
    rfl

/-- Rows are given just for a valid storage id. -/
theorem load_eq_ok_iff {id : StorageId} {places : List PathRef} {found : List Permission} :
    m.load id places = .ok found ↔ 0 < id ∧ found = places.flatMap (m.tree id).rowsAt := by
  constructor
  · intro answered
    have positive : 0 < id := by
      obtain ⟨_, checked, -⟩ := bind_eq_ok_iff.1 answered
      exact Validity.checkStorageId_eq_ok_iff.1 (require_eq_ok_iff.1 checked)
    exact ⟨positive, Except.ok.inj (answered.symm.trans (load_eq positive places))⟩
  · rintro ⟨positive, rfl⟩
    exact load_eq positive places

/-- Rows of sids are given just for a valid storage id. -/
theorem loadHeld_eq_ok_iff {id : StorageId} {places : List PathRef} {sids : List Sid}
    {found : List Permission} :
    m.loadHeld id places sids = .ok found ↔ 0 < id ∧ found = (m.tree id).rowsFor places sids := by
  constructor
  · intro answered
    have positive : 0 < id := by
      obtain ⟨_, checked, -⟩ := bind_eq_ok_iff.1 answered
      exact Validity.checkStorageId_eq_ok_iff.1 (require_eq_ok_iff.1 checked)
    exact ⟨positive, Except.ok.inj (answered.symm.trans (loadHeld_eq positive places sids))⟩
  · rintro ⟨positive, rfl⟩
    exact loadHeld_eq positive places sids

/-- Which prolongations are written, and what that makes of the table. -/
theorem prolong_eq_ok_iff {id : StorageId} {records kept : List Prolongation} :
    m.prolong id records = .ok (kept, m') ↔
      (0 < id ∧ ∀ record ∈ records, Validity.checkProlongation id record = .ok ()) ∧
      kept = Prolongation.keepLast records ∧ m' =
        ⟨m.storages, m.prolonged.insert id
          (kept.foldl (fun known p => known.insert p.path p) ((m.prolonged.find? id).getD ∅))⟩ := by
  simp only [prolong, bind_eq_ok_iff, require_eq_ok_iff, Validity.checkStorageId_eq_ok_iff,
    Validity.checkAll_eq_ok_iff, exists_const]
  constructor
  · rintro ⟨positive, valid, h⟩
    obtain ⟨rfl, rfl⟩ := Prod.mk.inj (Except.ok.inj h)
    exact ⟨⟨positive, valid⟩, rfl, rfl⟩
  · rintro ⟨⟨positive, valid⟩, rfl, rfl⟩
    exact ⟨positive, valid, rfl⟩

/-- Writing prolongations leaves the trees. -/
theorem writes_of_prolong {id : StorageId} {records kept : List Prolongation}
    (h : m.prolong id records = .ok (kept, m')) : m.Writes id (m.tree id) m' := by
  obtain ⟨⟨positive, -⟩, -, rfl⟩ := prolong_eq_ok_iff.1 h
  exact writes_of_storages_eq positive rfl

end Memory

end PathAcl
