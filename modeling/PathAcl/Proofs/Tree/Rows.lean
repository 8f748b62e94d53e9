import Mathlib.Data.List.Nodup
import PathAcl.Proofs.Tree.Grants

/-! # The rows of a tree
The listing of a well-formed tree has one row for each grant of its table: a row is listed exactly if
the table holds its grant under its key, and no key is listed twice. So a tree is a flat table of
permission rows, whatever operations built it. -/

namespace PathAcl

open Std

/-- What names the row among the grants at its path. -/
def Permission.grantKey (row : Permission) : GrantKey := ⟨row.type, row.sid⟩

/-- What the row grants. -/
def Permission.grant (row : Permission) : Grant := ⟨row.mask, row.created⟩

/-- The row of a key and a grant. -/
def PermissionKey.row (key : PermissionKey) (grant : Grant) : Permission :=
  ⟨key.path, key.type, key.sid, grant.mask, grant.created⟩

/-- A row is determined by its key and its grant. -/
theorem Permission.eq_of_key_of_grant {a b : Permission} (hk : a.key = b.key)
    (hg : a.grant = b.grant) : a = b := by
  obtain ⟨⟩ := a
  obtain ⟨⟩ := b
  simp_all [key, grant]

/-- The rows at one path are its grants. -/
theorem Grants.mem_rows {grants : Grants} {path : String} {row : Permission} :
    row ∈ grants.rows path ↔ row.path = path ∧ grants.find? row.grantKey = some row.grant := by
  rw [Grants.rows, List.mem_map, SortedMap.find?_eq_some_iff]
  constructor
  · rintro ⟨g, hg, rfl⟩
    exact ⟨rfl, hg⟩
  · rintro ⟨rfl, h⟩
    exact ⟨(row.grantKey, row.grant), h, rfl⟩

/-- No two rows at one path share a grant key. -/
theorem Grants.nodup_rows (grants : Grants) (path : String) :
    ((grants.rows path).map Permission.key).Nodup := by
  rw [Grants.rows, List.map_map, List.Nodup, List.pairwise_map]
  refine grants.increasing.imp fun {a b} hlt heq => ?_
  have same : a.1 = b.1 := by
    have := PermissionKey.mk.inj heq
    exact GrantKey.mk.injEq .. ▸ this.2
  rw [same, compare_self] at hlt
  cases hlt

/-! ## Forests -/

/-- The segments along which a well-formed node is searched with success are names. -/
theorem Node.WellFormed.names {segs : List String} {n m : Node} (h : n.WellFormed)
    (hm : n.find? segs = some m) : ∀ s ∈ segs, Path.IsName s := by
  induction segs generalizing n with
  | nil => intro s hs; exact absurd hs List.not_mem_nil
  | cons t segs ih =>
      rw [Node.find?] at hm
      obtain ⟨child, hchild, hm⟩ := Option.bind_eq_some_iff.1 hm
      obtain ⟨name, -, below⟩ := Forest.WellFormed.found h hchild
      intro s hs
      rcases List.mem_cons.1 hs with rfl | hs
      · exact name
      · exact ih below hm s hs

theorem Node.WellFormed.names_of_grant? {segs : List String} {n : Node} (h : n.WellFormed)
    {key : GrantKey} {grant : Grant} (hg : n.grant? segs key = some grant) :
    ∀ s ∈ segs, Path.IsName s := by
  obtain ⟨m, hm, -⟩ := Option.bind_eq_some_iff.1 hg
  exact h.names hm

/-- The rows of a forest are the grants of its nodes. -/
theorem Forest.WellFormed.mem_rows {f : Forest} (h : f.WellFormed) {under : List String}
    {row : Permission} :
    row ∈ f.rows under ↔ ∃ s segs, row.path = Path.join (under ++ s :: segs) ∧
      ∃ child, f.find? s = some child ∧ child.grant? segs row.grantKey = some row.grant := by
  induction h generalizing under with
  | nil => simp [Forest.rows, Forest.find?]
  | @cons s grants beneath rest name first inhabited below beside ihBelow ihBeside =>
      rw [Forest.rows, List.mem_append, List.mem_append, Grants.mem_rows, ihBelow, ihBeside]
      constructor
      -- a row stands at the first node, beneath it, or under a later segment
      · rintro ((⟨hpath, hg⟩ | ⟨t, segs, hpath, child, hchild, hg⟩) | ⟨t, segs, hpath, child, hchild, hg⟩)
        · exact ⟨s, [], hpath, ⟨grants, beneath⟩, by rw [Forest.find?, if_pos rfl], hg⟩
        · refine ⟨s, t :: segs, by rw [hpath, List.append_assoc]; rfl, ⟨grants, beneath⟩, ?_, ?_⟩
          · rw [Forest.find?, if_pos rfl]
          · rw [Node.grant?_cons, hchild, Option.bind_some, hg]
        · refine ⟨t, segs, hpath, child, ?_, hg⟩
          have apart : s ≠ t := by
            rintro rfl
            exact Forest.notMem_of_first first (Forest.mem_segments_of_find? hchild)
          rw [Forest.find?, if_neg apart, hchild]
      · rintro ⟨t, segs, hpath, child, hchild, hg⟩
        rw [Forest.find?] at hchild
        by_cases e : s = t
        · subst e
          rw [if_pos rfl] at hchild
          obtain rfl := Option.some.inj hchild
          cases segs with
          | nil => exact .inl (.inl ⟨hpath, hg⟩)
          | cons u segs =>
              rw [Node.grant?_cons] at hg
              obtain ⟨child, hchild, hg⟩ := Option.bind_eq_some_iff.1 hg
              refine .inl (.inr ⟨u, segs, ?_, child, hchild, hg⟩)
              rw [hpath, List.append_assoc]
              rfl
        · rw [if_neg e] at hchild
          exact .inr ⟨t, segs, hpath, child, hchild, hg⟩

/-- The rows of a node are the grants of its table. -/
theorem Node.WellFormed.mem_rows {n : Node} (h : n.WellFormed) {under : List String}
    {row : Permission} :
    row ∈ n.rows under ↔ ∃ segs, row.path = Path.join (under ++ segs) ∧
      n.grant? segs row.grantKey = some row.grant := by
  rw [Node.rows, List.mem_append, Grants.mem_rows, Forest.WellFormed.mem_rows h]
  constructor
  · rintro (⟨hpath, hg⟩ | ⟨s, segs, hpath, child, hchild, hg⟩)
    · exact ⟨[], by rw [hpath, List.append_nil], hg⟩
    · exact ⟨s :: segs, hpath, by rw [Node.grant?_cons, hchild, Option.bind_some, hg]⟩
  · rintro ⟨segs, hpath, hg⟩
    cases segs with
    | nil => exact .inl ⟨by rw [hpath, List.append_nil], hg⟩
    | cons s segs =>
        rw [Node.grant?_cons] at hg
        obtain ⟨child, hchild, hg⟩ := Option.bind_eq_some_iff.1 hg
        exact .inr ⟨s, segs, hpath, child, hchild, hg⟩

/-- A forest counts its rows. -/
theorem Forest.length_rows (f : Forest) (under : List String) :
    (f.rows under).length = f.rowCount := by
  induction f generalizing under with
  | nil => rfl
  | cons s grants beneath rest ihBelow ihBeside =>
      rw [Forest.rows, List.length_append, List.length_append, ihBelow, ihBeside, Grants.rows,
        List.length_map]
      rfl

/-- A node counts its rows. -/
theorem Node.length_rows (n : Node) (under : List String) : (n.rows under).length = n.rowCount := by
  rw [Node.rows, List.length_append, Forest.length_rows, Grants.rows, List.length_map]
  rfl

/-- Under one path, rows at different segment lists have different paths. -/
theorem Path.join_append_inj {under xs ys : List String} (hu : ∀ s ∈ under, IsSegment s)
    (hx : xs ≠ []) (hy : ys ≠ []) (hxs : ∀ s ∈ xs, IsSegment s) (hys : ∀ s ∈ ys, IsSegment s)
    (h : join (under ++ xs) = join (under ++ ys)) : xs = ys := by
  have all : ∀ zs : List String, (∀ s ∈ zs, IsSegment s) → ∀ s ∈ under ++ zs, IsSegment s := by
    intro zs hzs s hs
    exact (List.mem_append.1 hs).elim (hu s) (hzs s)
  have joined := (join_inj (List.append_ne_nil_of_right_ne_nil under hx)
    (List.append_ne_nil_of_right_ne_nil under hy) (all xs hxs) (all ys hys)).1 h
  exact List.append_cancel_left joined

/-- A row of a forest has its path under one of the segments at the top. -/
theorem Forest.WellFormed.path_of_mem_rows {f : Forest} (h : f.WellFormed) {under : List String}
    {row : Permission} (hrow : row ∈ f.rows under) :
    ∃ s segs, row.path = Path.join (under ++ s :: segs) ∧ s ∈ f.segments ∧
      ∀ t ∈ s :: segs, Path.IsSegment t := by
  obtain ⟨s, segs, hpath, child, hchild, hg⟩ := h.mem_rows.1 hrow
  obtain ⟨name, -, below⟩ := h.found hchild
  refine ⟨s, segs, hpath, mem_segments_of_find? hchild, fun t ht => ?_⟩
  rcases List.mem_cons.1 ht with rfl | ht
  · exact name.2
  · exact (Node.WellFormed.names_of_grant? below hg t ht).2

/-- Two lists of rows without a common key, each without repeats, have none together. -/
theorem Permission.nodup_keys_append {xs ys : List Permission}
    (hx : (xs.map Permission.key).Nodup) (hy : (ys.map Permission.key).Nodup)
    (apart : ∀ a ∈ xs, ∀ b ∈ ys, a.key ≠ b.key) : ((xs ++ ys).map Permission.key).Nodup := by
  rw [List.map_append, List.nodup_append]
  refine ⟨hx, hy, fun key hkey key' hkey' => ?_⟩
  obtain ⟨a, ha, rfl⟩ := List.mem_map.1 hkey
  obtain ⟨b, hb, rfl⟩ := List.mem_map.1 hkey'
  exact apart a ha b hb

/-- If no key is listed twice beneath a node, none is listed twice at and beneath it. -/
theorem Node.WellFormed.nodup_rows_of_beneath {n : Node} (h : n.WellFormed) {segs : List String}
    (hne : segs ≠ []) (hsegs : ∀ s ∈ segs, Path.IsSegment s)
    (hb : ((n.beneath.rows segs).map Permission.key).Nodup) :
    ((n.rows segs).map Permission.key).Nodup := by
  refine Permission.nodup_keys_append (n.grants.nodup_rows _) hb fun a ha b hb heq => ?_
  obtain ⟨t, rest, hpath, -, names⟩ := Forest.WellFormed.path_of_mem_rows h hb
  have same : a.path = b.path := congrArg PermissionKey.path heq
  rw [(Grants.mem_rows.1 ha).1, hpath] at same
  have all : ∀ s ∈ segs ++ t :: rest, Path.IsSegment s := fun s hs =>
    (List.mem_append.1 hs).elim (hsegs s) (names s)
  have := (Path.join_inj hne (List.append_ne_nil_of_left_ne_nil hne _) hsegs all).1 same
  cases List.append_right_eq_self.1 this.symm

/-- No key is listed twice among the rows of a well-formed forest. -/
theorem Forest.WellFormed.nodup_rows {f : Forest} (h : f.WellFormed) {under : List String}
    (hu : ∀ s ∈ under, Path.IsSegment s) : ((f.rows under).map Permission.key).Nodup := by
  induction h generalizing under with
  | nil => exact List.nodup_nil
  | @cons s grants beneath rest name first inhabited below beside ihBelow ihBeside =>
      have hus : ∀ t ∈ under ++ [s], Path.IsSegment t := by
        intro t ht
        rcases List.mem_append.1 ht with ht | ht
        · exact hu t ht
        · exact List.mem_singleton.1 ht ▸ name.2
      have node : (Node.mk grants beneath).WellFormed := below
      have nodeRows := node.nodup_rows_of_beneath
        (List.append_ne_nil_of_right_ne_nil under (List.cons_ne_nil s [])) hus (ihBelow hus)
      -- rows here and beneath stand under `s`, the rows beside them under later segments
      refine Permission.nodup_keys_append nodeRows (ihBeside hu) fun a ha b hb heq => ?_
      have single : (Forest.cons s grants beneath .nil).WellFormed :=
        .cons name (fun _ h => absurd h List.not_mem_nil) inhabited below .nil
      have ha : a ∈ (Forest.cons s grants beneath .nil).rows under := List.mem_append_left _ ha
      obtain ⟨t, segs, hpath, ht, names⟩ := single.path_of_mem_rows ha
      obtain ⟨u, segs', hpath', hu', names'⟩ := beside.path_of_mem_rows hb
      have same : a.path = b.path := congrArg PermissionKey.path heq
      rw [hpath, hpath'] at same
      have := Path.join_append_inj hu (List.cons_ne_nil t segs) (List.cons_ne_nil u segs')
        names names' same
      obtain ⟨rfl, -⟩ := List.cons.inj this
      obtain rfl := List.mem_singleton.1 ht
      exact Forest.notMem_of_first first hu'

/-- No key is listed twice among the rows of a well-formed node. -/
theorem Node.WellFormed.nodup_rows {n : Node} (h : n.WellFormed) {segs : List String}
    (hne : segs ≠ []) (hsegs : ∀ s ∈ segs, Path.IsSegment s) :
    ((n.rows segs).map Permission.key).Nodup :=
  h.nodup_rows_of_beneath hne hsegs (Forest.WellFormed.nodup_rows h hsegs)

/-! ## Trees -/

/-- A tree is **well formed** if its nodes are and the root holds no grant. -/
structure PathTree.WellFormed (t : PathTree) : Prop where
  root : t.root.WellFormed
  above : t.root.grants = ∅

namespace PathTree

/-- The tree without rows is well formed. -/
theorem wellFormed_empty : (∅ : PathTree).WellFormed := ⟨Node.wellFormed_empty, rfl⟩

/-- The grant of a key, read off the root. -/
theorem grant?_eq (t : PathTree) (key : PermissionKey) :
    t.grant? key = t.root.grant? (Path.segments key.path) ⟨key.type, key.sid⟩ := rfl

variable {t : PathTree} (h : t.WellFormed)

include h

/-- The **rows are the table**: a row is listed exactly if its grant is held under its key. -/
theorem WellFormed.mem_rows {row : Permission} : row ∈ t.rows ↔ t.grant? row.key = some row.grant := by
  rw [rows, Forest.WellFormed.mem_rows h.root, grant?_eq]
  constructor
  · rintro ⟨s, segs, hpath, child, hchild, hg⟩
    have found : t.root.grant? (s :: segs) row.grantKey = some row.grant := by
      rw [Node.grant?_cons, hchild, Option.bind_some, hg]
    have split : Path.segments row.path = s :: segs := by
      rw [hpath, List.nil_append, Path.segments_join (List.cons_ne_nil s segs)]
      exact fun u hu => (h.root.names_of_grant? found u hu).2
    rw [show row.key.path = row.path from rfl, split]
    exact found
  · intro hg
    cases hsplit : Path.segments row.path with
    | nil => exact absurd hsplit (Path.segments_ne_nil row.path)
    | cons s segs =>
        rw [show row.key.path = row.path from rfl, hsplit, Node.grant?_cons] at hg
        obtain ⟨child, hchild, hg⟩ := Option.bind_eq_some_iff.1 hg
        exact ⟨s, segs, by rw [List.nil_append, ← hsplit, Path.join_segments], child, hchild, hg⟩

/-- No key is listed twice. -/
theorem WellFormed.nodup_keys : (t.rows.map Permission.key).Nodup :=
  Forest.WellFormed.nodup_rows h.root fun _ hs => absurd hs List.not_mem_nil

/-- No row is listed twice. -/
theorem WellFormed.nodup_rows : t.rows.Nodup := h.nodup_keys.of_map _

/-- Two rows of one key are one row. -/
theorem WellFormed.eq_of_key {a b : Permission} (ha : a ∈ t.rows) (hb : b ∈ t.rows)
    (hk : a.key = b.key) : a = b := by
  have same : some a.grant = some b.grant := by
    rw [← h.mem_rows.1 ha, ← h.mem_rows.1 hb, hk]
  exact Permission.eq_of_key_of_grant hk (Option.some.inj same)

/-- A grant at the end of some segments is the row at their path. -/
theorem WellFormed.row_of_grant? {segs : List String} (hne : segs ≠ []) {key : GrantKey}
    {grant : Grant} (hg : t.root.grant? segs key = some grant) :
    grant.row (Path.join segs) key ∈ t.rows ∧ Path.segments (Path.join segs) = segs := by
  have split : Path.segments (Path.join segs) = segs :=
    Path.segments_join hne fun s hs => (h.root.names_of_grant? hg s hs).2
  refine ⟨h.mem_rows.2 ?_, split⟩
  rw [grant?_eq]
  change t.root.grant? (Path.segments (Path.join segs)) key = some grant
  rw [split, hg]

/-- A key holds a grant exactly if one of the rows has it. -/
theorem WellFormed.grant?_eq_none_iff {key : PermissionKey} :
    t.grant? key = none ↔ ∀ row ∈ t.rows, row.key ≠ key := by
  constructor
  · rintro hnone row hrow rfl
    rw [h.mem_rows.1 hrow] at hnone
    cases hnone
  · intro absent
    cases hg : t.grant? key with
    | none => rfl
    | some grant => exact absurd rfl (absent (key.row grant) (h.mem_rows.2 hg))

/-- A list without repeats that holds the same rows is the listing up to order. -/
theorem WellFormed.perm_rows {rows : List Permission} (hrows : rows.Nodup)
    (hmem : ∀ row, row ∈ rows ↔ t.grant? row.key = some row.grant) : t.rows.Perm rows := by
  rw [List.perm_ext_iff_of_nodup h.nodup_rows hrows]
  intro row
  rw [h.mem_rows, hmem]

end PathTree

end PathAcl
