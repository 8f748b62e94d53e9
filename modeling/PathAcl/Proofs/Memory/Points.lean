import PathAcl.Proofs.Memory.Calls

/-! # Rows by their keys
The operations that name single rows act on the table as on a flat one, which binds at most one row to
each storage and key: each sets, drops or shows the rows of the keys it names and touches nothing else.
This holds after any calls, also after a move that buried rows. -/

namespace PathAcl

/-- The key that a caller asks for a row under. -/
def GrantRequest.key (r : GrantRequest) : PermissionKey := ⟨r.path, r.type, r.sid⟩

namespace Memory

open Store

variable {m m' : Memory}

/-! ## Well-formed tables -/

/-- A table is **well formed** if all its trees are. -/
def WellFormed (m : Memory) : Prop := ∀ id, (m.tree id).WellFormed

/-- A sound table is well formed. -/
theorem Sound.wellFormed (h : m.Sound) : m.WellFormed := fun id => (h.tree id).wellFormed

/-- A write of a well-formed tree keeps a table well formed. -/
theorem WellFormed.of_writes (h : m.WellFormed) {id : StorageId} {new : PathTree}
    (w : m.Writes id new m') (wellFormed : new.WellFormed) : m'.WellFormed := by
  intro i
  rw [w.tree]
  split
  · exact wellFormed
  · exact h i

/-- **Every call keeps a table well formed**, whether it counts right afterwards or not. -/
theorem WellFormed.after (h : m.WellFormed) (call : Call) : (store.after m call).WellFormed := by
  have effect := effect_after m call
  generalize store.after m call = m' at effect
  cases effect with
  | nothing => exact h
  | keep writes => exact h.of_writes writes (h _)
  | upsert named writes => exact h.of_writes writes ((h _).foldl_upsert named)
  | delete drops writes => exact h.of_writes writes ((h _).dropKeys _)
  | deleteUnder drops writes => exact h.of_writes writes ((h _).dropTrees _)
  | relocate call_eq hs hd free writes =>
      exact h.of_writes writes ((h _).relocate _ (Path.isNamed_of_check hd))

/-- Any calls leave a well-formed table. -/
theorem wellFormed_afterAll (calls : List Call) : (store.afterAll ∅ calls).WellFormed :=
  store.afterAll_induction (fun _ call h => h.after call) (fun _ => PathTree.wellFormed_empty) calls

/-- No call changes the kind of a known storage. -/
theorem kindOf_after {id : StorageId} {kind : StorageKind} (h : m.kindOf id = some kind)
    (call : Call) : (store.after m call).kindOf id = some kind := by
  have effect := effect_after m call
  generalize store.after m call = m' at effect
  cases effect with
  | nothing => exact h
  | keep writes | upsert _ writes | delete _ writes | deleteUnder _ writes | relocate _ _ _ _ writes =>
      exact writes.known id kind h

/-- No calls ever do. -/
theorem kindOf_afterAll {id : StorageId} {kind : StorageKind} (calls : List Call)
    (h : m.kindOf id = some kind) : (store.afterAll m calls).kindOf id = some kind :=
  store.afterAll_induction (p := fun m => m.kindOf id = some kind)
    (fun _ call known => kindOf_after known call) h calls

/-! ## The row of a key -/

/-- The row that a storage lists under a key. -/
def row? (m : Memory) (id : StorageId) (key : PermissionKey) : Option Permission :=
  (m.rows id).find? fun row => row.key = key

/-- The row of a key is made of the key and its grant in the tree. -/
theorem WellFormed.row?_eq (h : m.WellFormed) (id : StorageId) (key : PermissionKey) :
    m.row? id key =
      ((m.tree id).grant? key).map fun grant => grant.row key.path ⟨key.type, key.sid⟩ := by
  rw [row?, rows_eq]
  cases held : (m.tree id).grant? key with
  | none =>
      rw [Option.map_none, List.find?_eq_none]
      exact fun row hrow same =>
        (h id).grant?_eq_none_iff.1 held row hrow (of_decide_eq_true same)
  | some grant =>
      exact find?_key (h id).nodup_keys
        (show grant.row key.path ⟨key.type, key.sid⟩ ∈ (m.tree id).rows from (h id).mem_rows.2 held)

/-- A row is listed if it is the row of its key. -/
theorem WellFormed.mem_rows_iff (h : m.WellFormed) {id : StorageId} {row : Permission} :
    row ∈ m.rows id ↔ m.row? id row.key = some row := by
  rw [row?]
  constructor
  · intro hrow
    rw [rows_eq] at hrow ⊢
    exact find?_key (h id).nodup_keys hrow
  · exact List.mem_of_find?_eq_some

/-! ## Writing -/

/-- The last row of a batch that has a key. -/
def lastOf (rows : List Permission) (key : PermissionKey) : Option Permission :=
  rows.reverse.find? fun row => row.key = key

/-- The last row that has a key has it. -/
theorem key_of_lastOf {rows : List Permission} {key : PermissionKey} {row : Permission}
    (last : lastOf rows key = some row) : row.key = key :=
  of_decide_eq_true (List.find?_some (p := fun row : Permission => row.key = key) last)

/-- A batch was **written**: each of its keys is answered once, with the last row that has it, and is
bound to this row. All other rows stay, and so do the kinds and the prolongations; but the storage is
known now, under the kind at hand. -/
structure Upserted (m : Memory) (storage : StorageRef) (rows kept : List Permission)
    (m' : Memory) : Prop where
  once : (kept.map Permission.key).Nodup
  answered : ∀ row, row ∈ kept ↔ lastOf rows row.key = some row
  bound : ∀ key, m'.row? storage.id key = (lastOf rows key).or (m.row? storage.id key)
  others : ∀ id, id ≠ storage.id → m'.rows id = m.rows id
  kinds : ∀ id, m'.kindOf id = if id = storage.id then some storage.kind else m.kindOf id
  prolonged : m'.prolonged = m.prolonged

/-- What is kept of a batch under a key is the last row that has it. -/
theorem find?_keepLast_rows (rows : List Permission) (key : PermissionKey) :
    (Permission.keepLast rows).find? (fun row => row.key = key) = lastOf rows key :=
  find?_keepLast Permission.key rows key

/-- A row is kept of a batch if it is the last that has its key. -/
theorem mem_keepLast_iff {rows : List Permission} {row : Permission} :
    row ∈ Permission.keepLast rows ↔ lastOf rows row.key = some row := by
  rw [← find?_keepLast_rows]
  exact ⟨find?_key (nodup_keepLast Permission.key rows), List.mem_of_find?_eq_some⟩

/-- Every accepted batch is written. -/
theorem WellFormed.upserted (h : m.WellFormed) {storage : StorageRef} {rows kept : List Permission}
    (accepted : m.upsert storage rows = .ok (kept, m')) : Upserted m storage rows kept m' := by
  obtain ⟨rfl, valid, writes⟩ := writes_of_upsert accepted
  have named : ∀ row ∈ Permission.keepLast rows, Path.IsNamed row.path := fun row hrow =>
    Validity.isNamed_of_checkPermission (valid row (mem_of_mem_keepLast hrow))
  have nodup : ((Permission.keepLast rows).map Permission.key).Nodup := nodup_keepLast _ rows
  have after : m'.WellFormed := h.of_writes writes ((h storage.id).foldl_upsert named)
  refine ⟨nodup, fun row => mem_keepLast_iff, fun key => ?_, fun id apart => ?_, ?_, ?_⟩
  · rw [after.row?_eq, h.row?_eq, writes.tree, if_pos rfl, PathTree.grant?_foldl_upsert nodup,
      find?_keepLast_rows, Option.map_or]
    -- a row is made of its key and its grant
    refine congrArg (Option.or · _) ?_
    cases last : lastOf rows key with
    | none => rfl
    | some row =>
        rw [← key_of_lastOf last]
        rfl
  · rw [rows_eq, rows_eq, writes.tree, if_neg apart]
  · obtain ⟨-, -, rfl⟩ := upsert_eq_ok_iff.1 accepted
    intro id
    rw [kindOf, SortedMap.find?_insert]
    by_cases e : id = storage.id
    · rw [if_pos e, if_pos e]
      rfl
    · rw [if_neg e, if_neg e]
      rfl
  · obtain ⟨-, -, rfl⟩ := upsert_eq_ok_iff.1 accepted
    rfl

/-! ## Dropping -/

/-- Keys were **dropped**: those under which a row was listed are answered, each where it first occurs,
and nothing is listed under any of the keys. All other rows stay, and so do the kinds and the
prolongations. -/
structure Deleted (m : Memory) (id : StorageId) (keys dropped : List PermissionKey)
    (m' : Memory) : Prop where
  answered : dropped = (keys.filter fun key => (m.row? id key).isSome).eraseDups
  gone : ∀ key, m'.row? id key = if key ∈ keys then none else m.row? id key
  others : ∀ i, i ≠ id → m'.rows i = m.rows i
  kinds : ∀ i, m'.kindOf i = m.kindOf i
  prolonged : m'.prolonged = m.prolonged

/-- All accepted keys are dropped. -/
theorem WellFormed.deleted (h : m.WellFormed) {id : StorageId} {keys dropped : List PermissionKey}
    (accepted : m.delete id keys = .ok (dropped, m')) : Deleted m id keys dropped m' := by
  obtain ⟨rfl, writes⟩ := writes_of_delete accepted
  obtain ⟨-, -, left⟩ := delete_eq_ok_iff.1 accepted
  have after : m'.WellFormed := h.of_writes writes ((h id).dropKeys keys)
  refine ⟨?_, fun key => ?_, fun i apart => ?_, fun i => ?_, ?_⟩
  · rw [(h id).dropKeys_fst]
    refine congrArg List.eraseDups (List.filter_congr fun key _ => ?_)
    rw [h.row?_eq, Option.isSome_map]
  · rw [after.row?_eq, h.row?_eq, writes.tree, if_pos rfl, (h id).grant?_dropKeys]
    split <;> rfl
  · rw [rows_eq, rows_eq, writes.tree, if_neg apart]
  · rw [left, kindOf_setTree]
  · rw [left]
    rfl

/-! ## Points -/

/-- A table **acts on points** if its operations on single rows are those of a flat table of rows, which
binds at most one row to each storage and key. -/
structure ActsOnPoints (m : Memory) : Prop where
  distinct : ∀ id, ((m.rows id).map Permission.key).Nodup
  upsert_accepts : ∀ storage rows,
    (∃ kept, ((store.upsert storage rows).run m).answer = .ok kept) ↔
      0 < storage.id ∧ (∀ row ∈ rows, Validity.checkPermission row = .ok ()) ∧
        ∀ kind, m.kindOf storage.id = some kind → kind = storage.kind
  upsert : ∀ storage rows kept, ((store.upsert storage rows).run m).answer = .ok kept →
    Upserted m storage rows kept ((store.upsert storage rows).run m).state
  delete_accepts : ∀ id keys, (∃ dropped, ((store.delete id keys).run m).answer = .ok dropped) ↔
    0 < id ∧ ∀ key ∈ keys, Validity.checkKey key = .ok ()
  delete : ∀ id keys dropped, ((store.delete id keys).run m).answer = .ok dropped →
    Deleted m id keys dropped ((store.delete id keys).run m).state
  load_accepts : ∀ id places,
    (∃ found, ((store.load id places).run m).answer = .ok found) ↔ 0 < id
  load : ∀ id places found, places.Nodup → ((store.load id places).run m).answer = .ok found →
    found.Perm ((m.rows id).filter fun row => row.place ∈ places) ∧
      ((store.load id places).run m).state = m
  loadHeld_accepts : ∀ id places sids,
    (∃ found, ((store.loadHeld id places sids).run m).answer = .ok found) ↔ 0 < id
  loadHeld : ∀ id places sids found, places.Nodup → sids.Nodup →
    ((store.loadHeld id places sids).run m).answer = .ok found →
      found.Perm ((m.rows id).filter fun row => row.place ∈ places ∧ row.sid ∈ sids) ∧
        ((store.loadHeld id places sids).run m).state = m
  kinds_stay : ∀ calls id kind, m.kindOf id = some kind →
    (store.afterAll m calls).kindOf id = some kind

/-- An operation that gives a new table answers just if the table accepts it, and leaves what it says. -/
theorem map_fst_eq_ok_iff {α : Type} (m : Memory) {r : Except StoreError (α × Memory)} {x : α} :
    r.map Prod.fst = .ok x ↔ ∃ m', r = .ok (x, m') ∧ m.settle r = m' := by
  cases r with
  | error e => exact iff_of_false nofun fun ⟨_, h, _⟩ => nomatch h
  | ok both =>
      constructor
      · intro h
        obtain rfl := Except.ok.inj h
        exact ⟨both.2, rfl, rfl⟩
      · rintro ⟨m', h, -⟩
        rw [h]
        rfl

/-- A well-formed table acts on points. -/
theorem WellFormed.actsOnPoints (h : m.WellFormed) : m.ActsOnPoints where
  distinct id := by
    rw [rows_eq]
    exact (h id).nodup_keys
  upsert_accepts storage rows := by
    rw [(run_upsert m storage rows).1]
    constructor
    · rintro ⟨kept, answered⟩
      obtain ⟨m', accepted, -⟩ := (map_fst_eq_ok_iff m).1 answered
      exact (upsert_eq_ok_iff.1 accepted).1
    · intro valid
      exact ⟨_, congrArg (Except.map Prod.fst) (upsert_eq_ok_iff.2 ⟨valid, rfl, rfl⟩)⟩
  upsert storage rows kept answered := by
    rw [(run_upsert m storage rows).1] at answered
    obtain ⟨m', accepted, left⟩ := (map_fst_eq_ok_iff m).1 answered
    rw [(run_upsert m storage rows).2, left]
    exact h.upserted accepted
  delete_accepts id keys := by
    rw [(run_delete m id keys).1]
    constructor
    · rintro ⟨dropped, answered⟩
      obtain ⟨m', accepted, -⟩ := (map_fst_eq_ok_iff m).1 answered
      exact (delete_eq_ok_iff.1 accepted).1
    · intro valid
      exact ⟨_, congrArg (Except.map Prod.fst) (delete_eq_ok_iff.2 ⟨valid, rfl, rfl⟩)⟩
  delete id keys dropped answered := by
    rw [(run_delete m id keys).1] at answered
    obtain ⟨m', accepted, left⟩ := (map_fst_eq_ok_iff m).1 answered
    rw [(run_delete m id keys).2, left]
    exact h.deleted accepted
  load_accepts id places :=
    ⟨fun ⟨_, answered⟩ => (load_eq_ok_iff.1 answered).1,
      fun positive => ⟨_, load_eq positive places⟩⟩
  load id places found hn answered := by
    obtain ⟨-, rfl⟩ := load_eq_ok_iff.1 answered
    refine ⟨?_, rfl⟩
    rw [rows_eq]
    exact (h id).flatMap_rowsAt_perm hn
  loadHeld_accepts id places sids :=
    ⟨fun ⟨_, answered⟩ => (loadHeld_eq_ok_iff.1 answered).1,
      fun positive => ⟨_, loadHeld_eq positive places sids⟩⟩
  loadHeld id places sids found hn hs answered := by
    obtain ⟨-, rfl⟩ := loadHeld_eq_ok_iff.1 answered
    refine ⟨?_, rfl⟩
    rw [rows_eq]
    exact (h id).rowsFor_perm hn hs
  kinds_stay calls id kind known := kindOf_afterAll calls known

/-- **The table is a flat table of rows** as far as single rows are concerned, whatever calls were made
before. -/
theorem actsOnPoints_afterAll (calls : List Call) : (store.afterAll ∅ calls).ActsOnPoints :=
  (wellFormed_afterAll calls).actsOnPoints

end Memory

end PathAcl
