import PathAcl.Prolongation
import PathAcl.Proofs.Tree.Table

/-! # Repeats in a batch of rows
The tables in memory are written row by row, and a row that names a key again is written over the one
before. So it makes no difference to a table whether all rows of a batch are written or only those that
are kept of it. For a path tree this holds to the last node and counter: a second write to a place finds
the node that the first one put there, and writes to different places meet nowhere but in nodes that
neither of them takes away. -/

namespace PathAcl

open Std

/-! ## Nodes -/

namespace Forest

/-- A segment that is written twice has the later node. -/
theorem insert_insert (f : Forest) (s : String) (m n : Node) :
    (f.insert s m).insert s n = f.insert s n := by
  induction f with
  | nil => simp [insert, compare_self]
  | cons t grants beneath rest _ ih =>
      simp only [insert]
      cases order : compare s t with
      | lt => simp [insert, compare_self]
      | eq => simp [insert, compare_self]
      | gt => simp [insert, order, ih]

/-- A segment and a later one are written in either order. -/
theorem insert_comm_of_lt (f : Forest) {s t : String} (first : compare s t = .lt) (m n : Node) :
    (f.insert s m).insert t n = (f.insert t n).insert s m := by
  have second : compare t s = .gt := OrientedCmp.gt_iff_lt.2 first
  induction f with
  | nil => simp [insert, first, second]
  | cons u grants beneath rest _ ih =>
      -- the earlier segment goes in front of the first node, takes its place, or goes behind it
      cases order : compare s u with
      | lt => cases other : compare t u <;> simp [insert, first, second, order, other]
      | eq =>
          obtain rfl := LawfulEqOrd.eq_of_compare order
          simp [insert, second]
      | gt =>
          have behind : compare t u = .gt := TransCmp.gt_trans second order
          simp [insert, order, behind, ih]

/-- Different segments are written in either order. -/
theorem insert_comm (f : Forest) {s t : String} (apart : s ≠ t) (m n : Node) :
    (f.insert s m).insert t n = (f.insert t n).insert s m := by
  cases order : compare s t with
  | lt => exact insert_comm_of_lt f order m n
  | eq => exact absurd (LawfulEqOrd.eq_of_compare order) apart
  | gt => exact (insert_comm_of_lt f (OrientedCmp.gt_iff_lt.1 order) n m).symm

end Forest

namespace Node

/-- What is altered twice in one place is altered by both in turn. -/
theorem alter_alter (f g : Node → Node) (segs : List String) (n : Node) :
    (n.alter f segs).alter g segs = n.alter (fun m => g (f m)) segs := by
  induction segs generalizing n with
  | nil => rfl
  | cons s segs ih =>
      simp only [alter, Forest.find?_insert, if_true, Option.getD_some, Forest.insert_insert, ih]

end Node

namespace PathTree

open Node

/-- Rows of different places are put there in either order. -/
theorem alter_put_comm {x y : Permission} {p q : List String} (apart : p ≠ q) (n : Node) :
    (n.alter (put x) p).alter (put y) q = (n.alter (put y) q).alter (put x) p := by
  -- where one place lies above the other, one row goes to the grants of a node, the other beneath it
  induction p generalizing n q with
  | nil =>
      cases q with
      | nil => exact absurd rfl apart
      | cons t q => rfl
  | cons s p ih =>
      cases q with
      | nil => rfl
      | cons t q =>
          simp only [alter]
          by_cases e : s = t
          · -- the places part further down
            subst e
            have below : p ≠ q := fun same => apart (same ▸ rfl)
            simp only [Forest.find?_insert, if_true, Option.getD_some, Forest.insert_insert, ih below]
          · simp only [Forest.find?_insert, if_neg e, if_neg (Ne.symm e)]
            rw [Forest.insert_comm _ e]

/-- A row is put over one with its key. -/
theorem put_put {x y : Permission} (same : x.key = y.key) (n : Node) : put y (put x n) = put y n := by
  have grantKey : x.grantKey = y.grantKey :=
    congrArg (fun key : PermissionKey => (⟨key.type, key.sid⟩ : GrantKey)) same
  simp only [put, grantKey, SortedMap.insert_insert]

/-- Rows of one place and different keys are put there in either order. -/
theorem put_comm {x y : Permission} (place : x.path = y.path) (apart : x.key ≠ y.key) (n : Node) :
    put y (put x n) = put x (put y n) := by
  have grantKeys : x.grantKey ≠ y.grantKey := by
    intro same
    injection same with type sid
    exact apart (by rw [Permission.key, Permission.key, place, type, sid])
  simp only [put, SortedMap.insert_comm _ grantKeys]

/-! ## Trees -/

/-- A write alters the node at its place, and counts a row if its key was free. -/
theorem upsert_eq (t : PathTree) (row : Permission) : t.upsert row =
    let counted := if (t.grant? row.key).isSome then t else t.countIn row.sid
    { counted with root := t.root.alter (put row) (Path.segments row.path) } := by
  rw [upsert]
  split <;> rfl

/-- Rows are counted in either order. -/
theorem countIn_comm (t : PathTree) (a b : Sid) : (t.countIn a).countIn b = (t.countIn b).countIn a := by
  by_cases e : a = b
  · rw [e]
  · simp only [countIn, SortedMap.find?_insert, if_neg e, if_neg (Ne.symm e), SortedMap.insert_comm _ e]

/-- **A row that is written over one with its key** leaves nothing of it. -/
theorem upsert_upsert (t : PathTree) {x y : Permission} (same : x.key = y.key) :
    (t.upsert x).upsert y = t.upsert y := by
  have path : x.path = y.path := congrArg PermissionKey.path same
  have sid : x.sid = y.sid := congrArg PermissionKey.sid same
  have held : ((t.upsert x).grant? y.key).isSome = true := by
    rw [grant?_upsert, if_pos same.symm]
    rfl
  rw [upsert_eq (t.upsert x) y, if_pos held, root_upsert, path, alter_alter, upsert_eq t y, upsert_eq t x,
    same, sid]
  simp only [put_put same]

/-- **Rows of different keys are written in either order.** -/
theorem upsert_comm (t : PathTree) {x y : Permission} (apart : x.key ≠ y.key) :
    (t.upsert x).upsert y = (t.upsert y).upsert x := by
  have found_y : (t.upsert x).grant? y.key = t.grant? y.key := by
    rw [grant?_upsert, if_neg apart.symm]
  have found_x : (t.upsert y).grant? x.key = t.grant? x.key := by
    rw [grant?_upsert, if_neg apart]
  have roots : (t.root.alter (put x) (Path.segments x.path)).alter (put y) (Path.segments y.path) =
      (t.root.alter (put y) (Path.segments y.path)).alter (put x) (Path.segments x.path) := by
    by_cases place : x.path = y.path
    · rw [place, alter_alter, alter_alter]
      simp only [put_comm place apart]
    · exact alter_put_comm (fun same => place (Path.segments_injective same)) t.root
  rw [upsert_eq (t.upsert x) y, upsert_eq (t.upsert y) x, found_y, found_x, root_upsert, root_upsert,
    roots, upsert_eq t x, upsert_eq t y]
  generalize (t.root.alter (put y) (Path.segments y.path)).alter (put x) (Path.segments x.path) = root
  by_cases hx : (t.grant? x.key).isSome = true
  · rw [if_pos hx]
    split <;> rfl
  · rw [if_neg hx]
    split
    · rfl
    · -- both rows are new, and a tree counts without a look at its nodes
      exact congrArg (fun counted : PathTree => { counted with root }) (countIn_comm t x.sid y.sid)

/-- Writing rows to a tree overwrites by key. -/
theorem overwrites_upsert : Overwrites Permission.key PathTree.upsert where
  again t _ _ same := upsert_upsert t same
  apart t _ _ apart := upsert_comm t apart

end PathTree

/-! ## Batches -/

/-- **A batch is kept by the last of each key**, rows by place and sid and prolongations by path: one for
each key, in the order in which the keys first occur, and each the last that has its key. Keeping again
keeps everything, and no position is out of bounds on the way. Whatever table is written by key, it is the
same in the end whether all of the batch is written or only what is kept of it: a path tree, a table of
rows by key, and a table of prolongations by path. -/
theorem batches_keep_last :
    KeepsLast Permission.key Permission.keepLast ∧
    KeepsLast Prolongation.path Prolongation.keepLast ∧
    (∀ (rows : List Permission) (tree : PathTree),
      (Permission.keepLast rows).foldl PathTree.upsert tree = rows.foldl PathTree.upsert tree) ∧
    (∀ (rows : List Permission) (table : SortedMap PermissionKey Permission),
      (Permission.keepLast rows).foldl (fun table row => table.insert row.key row) table =
        rows.foldl (fun table row => table.insert row.key row) table) ∧
    ∀ (records : List Prolongation) (table : SortedMap String Prolongation),
      (Prolongation.keepLast records).foldl (fun table record => table.insert record.path record) table =
        records.foldl (fun table record => table.insert record.path record) table := by
  have rows := keepLast_keepsLast Permission.key
  have records := keepLast_keepsLast Prolongation.path
  exact ⟨rows, records, rows.writes PathTree.overwrites_upsert, rows.writes (Overwrites.insert _),
    records.writes (Overwrites.insert _)⟩

end PathAcl
