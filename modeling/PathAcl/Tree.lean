import PathAcl.Tree.Node

/-! # Path trees
The permission rows of one storage: a tree of grants, the number of rows, and the number of rows
each sid holds. -/

namespace PathAcl

/-- A **path tree** (`PathTrie`). -/
structure PathTree where
  /-- The node above all paths; it holds no grant itself. -/
  root : Node
  /-- The number of rows. -/
  rowCount : Nat
  /-- The number of rows of each sid that holds any. -/
  sidRows : SortedMap Sid Nat

namespace PathTree

/-- The tree without rows. -/
def empty : PathTree := ⟨.empty, 0, ∅⟩

instance : EmptyCollection PathTree := ⟨empty⟩

instance : Inhabited PathTree := ⟨empty⟩

/-- Every row, a path before the paths beneath it and siblings in the order of their segments
(`entries`). -/
def rows (t : PathTree) : List Permission := t.root.beneath.rows []

/-- The node at a path (`descend`). -/
def node? (t : PathTree) (path : String) : Option Node := t.root.find? (Path.segments path)

/-- The grant a key names. -/
def grant? (t : PathTree) (key : PermissionKey) : Option Grant :=
  (t.node? key.path).bind fun n => n.grants.find? ⟨key.type, key.sid⟩

/-- Whether one of the sids holds a row (`has_rows_for`). -/
def holdsAny (t : PathTree) (sids : List Sid) : Bool := sids.any t.sidRows.contains

/-- One row more for a sid. -/
def countIn (t : PathTree) (sid : Sid) : PathTree :=
  { t with
    rowCount := t.rowCount + 1
    sidRows := t.sidRows.insert sid ((t.sidRows.find? sid).getD 0 + 1) }

/-- One row less for a sid, which is forgotten with its last row (`note_removed`). -/
def countOut (t : PathTree) (sid : Sid) : PathTree :=
  { t with
    rowCount := t.rowCount - 1
    sidRows :=
      match t.sidRows.find? sid with
      | none => t.sidRows
      | some n => if n = 1 then t.sidRows.erase sid else t.sidRows.insert sid (n - 1) }

/-- Adds a row, or gives the row with its key another mask and date. -/
def upsert (t : PathTree) (row : Permission) : PathTree :=
  let put := fun n : Node =>
    { n with grants := n.grants.insert ⟨row.type, row.sid⟩ ⟨row.mask, row.created⟩ }
  let grown := { t with root := t.root.alter put (Path.segments row.path) }
  if (t.grant? row.key).isSome then grown else grown.countIn row.sid

/-- The tree without the row of a key; nothing if there is no such row (`remove`). -/
def remove? (t : PathTree) (key : PermissionKey) : Option PathTree :=
  (t.root.dropGrant? ⟨key.type, key.sid⟩ (Path.segments key.path)).map fun root =>
    { t with root }.countOut key.sid

/-- The rows held at a file or folder (`rows_at`). -/
def rowsAt (t : PathTree) (place : PathRef) : List Permission :=
  match t.node? place.path with
  | none => []
  | some n => (n.grants.rows place.path).filter fun row => row.type == place.type

/-- The rows that one of the sids holds at one of the places, place by place (`applicable`). -/
def rowsFor (t : PathTree) (places : List PathRef) (sids : List Sid) : List Permission :=
  places.flatMap fun place =>
    match t.node? place.path with
    | none => []
    | some n => sids.filterMap fun sid =>
        (n.grants.find? ⟨place.type, sid⟩).map (·.row place.path ⟨place.type, sid⟩)

/-- Whether a row is there that `root` governs (`is_occupied`). -/
def isTaken (t : PathTree) (root : PathRef) : Bool :=
  match root.type with
  | .folder => (t.node? root.path).isSome
  | .file => !(t.rowsAt root).isEmpty

/-- Takes out the rows that `root` governs: a whole subtree for a folder, the file rows at its path for a
file (`remove_tree`). -/
def takeUnder (t : PathTree) (root : PathRef) : List Permission × PathTree :=
  match root.type with
  | .folder =>
    match t.root.takeOut? (Path.segments root.path) with
    | none => ([], t)
    | some (taken, left) =>
      let removed := taken.rows (Path.segments root.path)
      (removed, removed.foldl (fun t row => t.countOut row.sid) { t with root := left })
  | .file =>
    let removed := t.rowsAt root
    (removed, removed.foldl (fun t row => (t.remove? row.key).getD t) t)

/-- Moves the rows that `source` governs to the destination path, which has to be free of them: a folder
is moved as a whole and takes the place of the node at the destination; the counts stay as they are
(`move_tree`). Answers the number of rows moved. -/
def relocate (t : PathTree) (source destination : PathRef) : Nat × PathTree :=
  match source.type with
  | .folder =>
    match t.root.takeOut? (Path.segments source.path) with
    | none => (0, t)
    | some (taken, left) =>
      (taken.rowCount,
        { t with root := left.alter (fun _ => taken) (Path.segments destination.path) })
  | .file =>
    let (rows, left) := t.takeUnder source
    (rows.length,
      rows.foldl (fun t row => t.upsert { row with path := destination.path }) left)

end PathTree

end PathAcl
