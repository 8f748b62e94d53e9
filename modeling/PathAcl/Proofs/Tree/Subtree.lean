import PathAcl.Proofs.Tree.Table

/-! # Subtrees on the table
Taking out and moving what a file or folder governs. A folder is cut off and put elsewhere as a
whole; on the table this is the same as handling its rows one by one. -/

namespace PathAcl

open Std

/-- A node found beneath a well-formed one is well formed and not bare. -/
theorem Node.WellFormed.found {n m : Node} (h : n.WellFormed) {segs : List String} (hne : segs ≠ [])
    (hm : n.find? segs = some m) : m.WellFormed ∧ m.isEmpty = false := by
  induction segs generalizing n with
  | nil => exact absurd rfl hne
  | cons s segs ih =>
      rw [Node.find?] at hm
      obtain ⟨child, hchild, hm⟩ := Option.bind_eq_some_iff.1 hm
      obtain ⟨-, inhabited, below⟩ := Forest.WellFormed.found h hchild
      cases segs with
      | nil =>
          obtain rfl := Option.some.inj hm
          exact ⟨below, inhabited⟩
      | cons t segs => exact ih below (List.cons_ne_nil t segs) hm

namespace PathTree

variable {t : PathTree}

/-- The rows at and beneath a node of the tree. -/
theorem WellFormed.mem_rows_node (h : t.WellFormed) {path : String} {n : Node}
    (hn : t.node? path = some n) {row : Permission} :
    row ∈ n.rows (Path.segments path) ↔
      row ∈ t.rows ∧ Path.segments path <+: Path.segments row.path := by
  have wellFormed := (h.root.found (Path.segments_ne_nil path) hn).1
  rw [wellFormed.mem_rows]
  constructor
  · rintro ⟨rest, hpath, hg⟩
    have found : t.root.grant? (Path.segments path ++ rest) row.grantKey = some row.grant := by
      rw [Node.grant?_append, show t.root.find? (Path.segments path) = some n from hn,
        Option.bind_some, hg]
    obtain ⟨listed, split⟩ := h.row_of_grant?
      (List.append_ne_nil_of_left_ne_nil (Path.segments_ne_nil path) rest) found
    rw [← hpath] at listed split
    exact ⟨listed, rest, split.symm⟩
  · rintro ⟨listed, rest, hrest⟩
    refine ⟨rest, by rw [hrest, Path.join_segments], ?_⟩
    have hg := h.mem_rows.1 listed
    rw [grant?_eq, show row.key.path = row.path from rfl, ← hrest, Node.grant?_append,
      show t.root.find? (Path.segments path) = some n from hn, Option.bind_some] at hg
    exact hg

/-- A node is at a path exactly if a row is at or beneath it. -/
theorem WellFormed.node?_isSome_iff (h : t.WellFormed) {path : String} :
    (t.node? path).isSome = true ↔
      ∃ row ∈ t.rows, Path.segments path <+: Path.segments row.path := by
  constructor
  · intro hsome
    obtain ⟨n, hn⟩ := Option.isSome_iff_exists.1 hsome
    obtain ⟨wellFormed, inhabited⟩ := h.root.found (Path.segments_ne_nil path) hn
    obtain ⟨rest, key, grant, hg⟩ := wellFormed.exists_grant inhabited
    have row : grant.row (Path.join (Path.segments path ++ rest)) key ∈
        n.rows (Path.segments path) := wellFormed.mem_rows.2 ⟨rest, rfl, hg⟩
    exact ⟨_, (h.mem_rows_node hn).1 row⟩
  · rintro ⟨row, hrow, rest, hrest⟩
    have hg := h.mem_rows.1 hrow
    rw [grant?_eq, show row.key.path = row.path from rfl, ← hrest, Node.grant?_append] at hg
    obtain ⟨n, hn, -⟩ := Option.bind_eq_some_iff.1 hg
    exact Option.isSome_iff_exists.2 ⟨n, hn⟩

/-- A place is **taken** exactly if a row is there that it governs. -/
theorem WellFormed.isTaken_iff (h : t.WellFormed) {root : PathRef} :
    t.isTaken root = true ↔ ∃ row ∈ t.rows, root.governs row.place = true := by
  obtain ⟨path, type⟩ := root
  cases type with
  | folder =>
      rw [show t.isTaken ⟨path, .folder⟩ = (t.node? path).isSome from rfl, h.node?_isSome_iff]
      refine exists_congr fun row => and_congr_right fun _ => ?_
      exact (PathRef.governs_folder path row.place).symm
  | file =>
      rw [show t.isTaken ⟨path, .file⟩ = !(t.rowsAt ⟨path, .file⟩).isEmpty from rfl,
        Bool.not_eq_true', List.isEmpty_eq_false_iff_exists_mem]
      exact exists_congr fun row => by rw [h.mem_rowsAt, PathRef.governs_file]

/-! ## Taking out -/

/-- What a folder takes out: nothing if no node is there, else the node and what is left. -/
theorem takeUnder_folder (t : PathTree) (path : String) :
    t.takeUnder ⟨path, .folder⟩ =
      match t.root.takeOut? (Path.segments path) with
      | none => ([], t)
      | some (taken, left) =>
          (taken.rows (Path.segments path),
            (taken.rows (Path.segments path)).foldl (fun t row => t.countOut row.sid)
              { t with root := left }) := rfl

/-- Counting rows out leaves the nodes alone. -/
theorem root_foldl_countOut (rows : List Permission) (t : PathTree) :
    (rows.foldl (fun t row => t.countOut row.sid) t).root = t.root := by
  induction rows generalizing t with
  | nil => rfl
  | cons row rows ih => rw [List.foldl_cons, ih]; rfl

/-- The node taken out is the node at the path. -/
theorem node?_of_takeOut? {path : String} {taken left : Node}
    (ht : t.root.takeOut? (Path.segments path) = some (taken, left)) : t.node? path = some taken := by
  rw [node?, ← Node.map_fst_takeOut?, ht]
  rfl

theorem node?_eq_none_of_takeOut? {path : String}
    (ht : t.root.takeOut? (Path.segments path) = none) : t.node? path = none := by
  rw [node?, ← Node.map_fst_takeOut?, ht]
  rfl

/-- If no node is at a path, no row is at or beneath it. -/
theorem WellFormed.not_prefix_of_takeOut? (h : t.WellFormed) {path : String}
    (ht : t.root.takeOut? (Path.segments path) = none) {row : Permission} (hrow : row ∈ t.rows) :
    ¬ Path.segments path <+: Path.segments row.path := by
  intro hp
  have hsome := h.node?_isSome_iff.2 ⟨row, hrow, hp⟩
  rw [node?_eq_none_of_takeOut? ht] at hsome
  cases hsome

/-- Taking a node out under the root leaves the grants of the root. -/
theorem grants_takeOut? {segs : List String} (hne : segs ≠ []) {n taken left : Node}
    (ht : n.takeOut? segs = some (taken, left)) : left.grants = n.grants := by
  cases segs with
  | nil => exact absurd rfl hne
  | cons s segs =>
      rw [Node.takeOut?] at ht
      obtain ⟨child, -, ht⟩ := Option.bind_eq_some_iff.1 ht
      obtain ⟨⟨taken', rest⟩, -, ht⟩ := Option.bind_eq_some_iff.1 ht
      obtain ⟨-, rfl⟩ := Prod.mk.inj (Option.some.inj ht)
      rfl

/-- Removing rows one after the other, each if it is there. -/
def removeAll (rows : List Permission) (t : PathTree) : PathTree :=
  rows.foldl (fun t row => (t.remove? row.key).getD t) t

/-- Removals keep a tree well formed and clear the table at their keys. -/
theorem WellFormed.removeAll (h : t.WellFormed) (rows : List Permission) :
    (removeAll rows t).WellFormed ∧ ∀ key, (PathTree.removeAll rows t).grant? key =
      if key ∈ rows.map Permission.key then none else t.grant? key := by
  induction rows generalizing t with
  | nil => exact ⟨h, fun key => (if_neg List.not_mem_nil).symm⟩
  | cons row rows ih =>
      rw [PathTree.removeAll, List.foldl_cons]
      cases hr : t.remove? row.key with
      | none =>
          obtain ⟨wellFormed, table⟩ := ih h
          refine ⟨wellFormed, fun key => ?_⟩
          rw [Option.getD_none]
          refine (table key).trans ?_
          simp only [List.map_cons, List.mem_cons]
          by_cases e : key = row.key
          · subst e
            simp [remove?_eq_none_iff.1 hr]
          · simp [e]
      | some left =>
          obtain ⟨wellFormed, table⟩ := ih (h.remove? hr)
          refine ⟨wellFormed, fun key => ?_⟩
          rw [Option.getD_some]
          refine (table key).trans ?_
          simp only [h.grant?_remove? hr, List.map_cons, List.mem_cons]
          by_cases e : key = row.key
          · simp [e]
          · simp [e]

/-- What a file takes out: the file rows at its path, one by one. -/
theorem takeUnder_file (t : PathTree) (path : String) :
    t.takeUnder ⟨path, .file⟩ =
      (t.rowsAt ⟨path, .file⟩, removeAll (t.rowsAt ⟨path, .file⟩) t) := rfl

/-- The rows taken out are those that the root governs. -/
theorem WellFormed.mem_takeUnder (h : t.WellFormed) {root : PathRef} {row : Permission} :
    row ∈ (t.takeUnder root).1 ↔ row ∈ t.rows ∧ root.governs row.place = true := by
  obtain ⟨path, type⟩ := root
  cases type with
  | file => rw [takeUnder_file, h.mem_rowsAt, PathRef.governs_file]
  | folder =>
      rw [takeUnder_folder, PathRef.governs_folder]
      cases ht : t.root.takeOut? (Path.segments path) with
      | none =>
          refine iff_of_false List.not_mem_nil ?_
          rintro ⟨hrow, hp⟩
          exact h.not_prefix_of_takeOut? ht hrow hp
      | some both => exact h.mem_rows_node (node?_of_takeOut? ht)

/-- No key is taken out twice. -/
theorem WellFormed.nodup_takeUnder (h : t.WellFormed) (root : PathRef) :
    ((t.takeUnder root).1.map Permission.key).Nodup := by
  obtain ⟨path, type⟩ := root
  cases type with
  | file =>
      rw [takeUnder_file, rowsAt]
      split
      · exact List.nodup_nil
      next n _ => exact (n.grants.nodup_rows path).sublist ((List.filter_sublist).map _)
  | folder =>
      rw [takeUnder_folder]
      cases ht : t.root.takeOut? (Path.segments path) with
      | none => exact List.nodup_nil
      | some both =>
          have wellFormed := (h.root.found (Path.segments_ne_nil path) (node?_of_takeOut? ht)).1
          exact wellFormed.nodup_rows (Path.segments_ne_nil path)
            fun s hs => Path.isSegment_of_mem_segments hs

/-- The rows taken out are the governed part of the listing, up to order. -/
theorem WellFormed.takeUnder_perm (h : t.WellFormed) (root : PathRef) :
    (t.takeUnder root).1.Perm (t.rows.filter fun row => root.governs row.place) := by
  rw [List.perm_ext_iff_of_nodup (h.nodup_takeUnder root).of_map (h.nodup_rows.filter _)]
  intro row
  rw [h.mem_takeUnder, List.mem_filter]

/-- Taking the rows of a file out clears the table there, and keeps the tree well formed. -/
theorem WellFormed.takeUnder_of_file (h : t.WellFormed) (path : String) :
    (t.takeUnder ⟨path, .file⟩).2.WellFormed ∧
      ∀ key, (t.takeUnder ⟨path, .file⟩).2.grant? key =
        if (⟨path, .file⟩ : PathRef).governs key.place = true then none else t.grant? key := by
  rw [takeUnder_file]
  obtain ⟨wellFormed, table⟩ := h.removeAll (t.rowsAt ⟨path, .file⟩)
  refine ⟨wellFormed, fun key => (table key).trans ?_⟩
  simp only [PathRef.governs_file]
  by_cases e : key.place = ⟨path, .file⟩
  · rw [if_pos e]
    cases hg : t.grant? key with
    | none => exact ite_self none
    | some grant =>
        have listed : key.row grant ∈ t.rowsAt ⟨path, .file⟩ :=
          h.mem_rowsAt.2 ⟨h.mem_rows.2 hg, e⟩
        exact if_pos (List.mem_map.2 ⟨key.row grant, listed, rfl⟩)
  · rw [if_neg e, if_neg]
    intro hmem
    obtain ⟨row, hrow, rfl⟩ := List.mem_map.1 hmem
    exact e (h.mem_rowsAt.1 hrow).2

/-- Taking a folder out clears the table at and beneath it, and keeps the tree well formed. -/
theorem WellFormed.takeUnder_of_folder (h : t.WellFormed) (path : String) :
    (t.takeUnder ⟨path, .folder⟩).2.WellFormed ∧
      ∀ key, (t.takeUnder ⟨path, .folder⟩).2.grant? key =
        if (⟨path, .folder⟩ : PathRef).governs key.place = true then none else t.grant? key := by
  rw [takeUnder_folder]
  cases ht : t.root.takeOut? (Path.segments path) with
  | none =>
      -- there is no node to take out, so no key beneath the folder has a grant
      refine ⟨h, fun key => ?_⟩
      by_cases hp : (⟨path, .folder⟩ : PathRef).governs key.place = true
      · rw [if_pos hp]
        cases hg : t.grant? key with
        | none => rfl
        | some grant =>
            have listed : key.row grant ∈ t.rows := h.mem_rows.2 hg
            have outside := h.not_prefix_of_takeOut? ht listed
            exact absurd ((PathRef.governs_folder path key.place).1 hp) outside
      · rw [if_neg hp]
  | some both =>
      obtain ⟨taken, left⟩ := both
      refine ⟨⟨?_, ?_⟩, fun key => ?_⟩
      · rw [root_foldl_countOut]
        exact (h.root.takeOut? ht).2
      · rw [root_foldl_countOut]
        exact (grants_takeOut? (Path.segments_ne_nil path) ht).trans h.above
      · rw [grant?_eq, root_foldl_countOut]
        refine (h.root.grant?_takeOut? ht _ _).trans ?_
        simp only [PathRef.governs_folder]
        rfl

/-- Taking out clears the table at what the root governs, and keeps the tree well formed. -/
theorem WellFormed.takeUnder (h : t.WellFormed) (root : PathRef) :
    (t.takeUnder root).2.WellFormed ∧ ∀ key, (t.takeUnder root).2.grant? key =
      if root.governs key.place = true then none else t.grant? key := by
  obtain ⟨path, type⟩ := root
  cases type with
  | file => exact h.takeUnder_of_file path
  | folder => exact h.takeUnder_of_folder path

/-- The rows that are left are those that the root does not govern, up to order. -/
theorem WellFormed.rows_takeUnder_perm (h : t.WellFormed) (root : PathRef) :
    (t.takeUnder root).2.rows.Perm (t.rows.filter fun row => !root.governs row.place) := by
  obtain ⟨wellFormed, table⟩ := h.takeUnder root
  refine wellFormed.perm_rows (h.nodup_rows.filter _) fun row => ?_
  rw [table, List.mem_filter, h.mem_rows, Bool.not_eq_true']
  by_cases hp : root.governs row.place = true
  · rw [if_pos (show root.governs row.key.place = true from hp), hp]
    simp
  · rw [if_neg (show ¬ root.governs row.key.place = true from hp)]
    simp [hp]

end PathTree

end PathAcl
