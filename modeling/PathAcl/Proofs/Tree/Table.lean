import PathAcl.Proofs.KeepLast
import PathAcl.Proofs.Tree.Rows

/-! # Tree operations on the table
What each operation of a path tree does to its table. Together with the listing (`mem_rows`) these
equations are all that the store is judged by. -/

namespace PathAcl

open Std

/-- A folder governs the places whose segments begin with its own. -/
theorem PathRef.governs_folder (path : String) (place : PathRef) :
    (⟨path, .folder⟩ : PathRef).governs place = true ↔
      Path.segments path <+: Path.segments place.path := Path.isAtOrBeneath_iff

/-- A file governs the file grants at its own path. -/
theorem PathRef.governs_file (path : String) (place : PathRef) :
    (⟨path, .file⟩ : PathRef).governs place = true ↔ place = ⟨path, .file⟩ := beq_iff_eq

/-- What a root **covers**, told on segments: a folder everything at and beneath it, a file the file
grants at its own path. -/
def PathRef.Covers (root place : PathRef) : Prop :=
  match root.type with
  | .folder => Path.segments root.path <+: Path.segments place.path
  | .file => place = root

instance (root place : PathRef) : Decidable (root.Covers place) :=
  match root with
  | ⟨path, .folder⟩ => inferInstanceAs (Decidable (Path.segments path <+: Path.segments place.path))
  | ⟨path, .file⟩ => inferInstanceAs (Decidable (place = ⟨path, .file⟩))

/-- A root governs what it covers. -/
theorem PathRef.governs_iff {root place : PathRef} :
    root.governs place = true ↔ root.Covers place := by
  obtain ⟨path, type⟩ := root
  cases type with
  | folder => exact governs_folder path place
  | file => exact governs_file path place

/-- A root does not govern what it does not cover. -/
theorem PathRef.governs_eq_false_iff {root place : PathRef} :
    root.governs place = false ↔ ¬ root.Covers place := by
  rw [← Bool.not_eq_true, governs_iff]

namespace PathTree

variable {t : PathTree}

/-! ## Writing a row -/

/-- What a write puts at the end of its path. -/
def put (row : Permission) (n : Node) : Node :=
  { n with grants := n.grants.insert row.grantKey row.grant }

theorem root_upsert (t : PathTree) (row : Permission) :
    (t.upsert row).root = t.root.alter (put row) (Path.segments row.path) := by
  rw [upsert]
  split <;> rfl

/-- A node that was written to holds the new grant, and its other grants as before. -/
theorem grant?_put (row : Permission) (n : Node) (segs : List String) (key : GrantKey) :
    (put row n).grant? segs key =
      if segs = [] ∧ key = row.grantKey then some row.grant else n.grant? segs key := by
  cases segs with
  | nil => simp [put, SortedMap.find?_insert]
  | cons s segs => simp [put, Node.grant?_cons]

/-- A node that was written to is not bare. -/
theorem isEmpty_put (row : Permission) (n : Node) : (put row n).isEmpty = false := by
  rw [← Bool.not_eq_true, Node.isEmpty_iff]
  intro bare
  have held : (put row n).grant? [] row.grantKey = some row.grant := by
    rw [grant?_put, if_pos ⟨rfl, rfl⟩]
  rw [bare, Node.grant?_empty] at held
  cases held

/-- A write changes the table at its key alone. -/
theorem grant?_upsert (t : PathTree) (row : Permission) (key : PermissionKey) :
    (t.upsert row).grant? key = if key = row.key then some row.grant else t.grant? key := by
  rw [grant?_eq, grant?_eq, root_upsert]
  by_cases hp : Path.segments row.path <+: Path.segments key.path
  -- at or under the written path what was put there answers, beside it the old tree
  · obtain ⟨rest, hrest⟩ := hp
    rw [← hrest, Node.grant?_alter_append, grant?_put, Node.grant?_append]
    have here : rest = [] ↔ key.path = row.path := by
      constructor
      · rintro rfl
        rw [List.append_nil] at hrest
        exact (Path.segments_injective hrest).symm
      · intro e
        rw [e] at hrest
        exact List.append_right_eq_self.1 hrest
    have named : rest = [] ∧ (⟨key.type, key.sid⟩ : GrantKey) = row.grantKey ↔ key = row.key := by
      obtain ⟨path, type, sid⟩ := key
      rw [here]
      simp [Permission.grantKey, Permission.key]
    by_cases e : key = row.key
    · rw [if_pos (named.2 e), if_pos e]
    · rw [if_neg (fun h => e (named.1 h)), if_neg e]
      cases t.root.find? (Path.segments row.path) with
      | none => rw [Option.getD_none, Node.grant?_empty, Option.bind_none]
      | some m => rfl
  · have apart : key ≠ row.key := by
      rintro rfl
      exact hp List.prefix_rfl
    rw [Node.grant?_alter_of_not_prefix _ hp, if_neg apart]

/-- An alteration under the root leaves the grants of the root. -/
theorem grants_alter {f : Node → Node} {segs : List String} (h : segs ≠ []) (n : Node) :
    (n.alter f segs).grants = n.grants := by
  cases segs with
  | nil => exact absurd rfl h
  | cons s segs => rfl

/-- Writing a row with a named path keeps a tree well formed. -/
theorem WellFormed.upsert (h : t.WellFormed) {row : Permission} (hp : Path.IsNamed row.path) :
    (t.upsert row).WellFormed := by
  constructor
  · rw [root_upsert]
    exact (Node.WellFormed.alter (f := put row) (fun m hm => ⟨hm, isEmpty_put row m⟩) hp h.root).1
  · rw [root_upsert, grants_alter (Path.segments_ne_nil row.path), h.above]

/-- Writing rows with named paths keeps a tree well formed. -/
theorem WellFormed.foldl_upsert {rows : List Permission} (hp : ∀ row ∈ rows, Path.IsNamed row.path)
    (h : t.WellFormed) : (rows.foldl PathTree.upsert t).WellFormed := by
  induction rows generalizing t with
  | nil => exact h
  | cons row rows ih =>
      exact ih (fun r hr => hp r (List.mem_cons_of_mem row hr)) (h.upsert (hp row List.mem_cons_self))

/-- Writing rows of different keys changes the table at these keys alone. -/
theorem grant?_foldl_upsert {rows : List Permission} (hn : (rows.map Permission.key).Nodup)
    (t : PathTree) (key : PermissionKey) :
    (rows.foldl PathTree.upsert t).grant? key =
      ((rows.find? fun row => row.key = key).map Permission.grant).or (t.grant? key) := by
  induction rows generalizing t with
  | nil => rfl
  | cons row rows ih =>
      rw [List.map_cons, List.nodup_cons] at hn
      rw [List.foldl_cons, ih hn.2, grant?_upsert, List.find?_cons]
      by_cases e : row.key = key
      · have later : rows.find? (fun r => r.key = key) = none := by
          rw [List.find?_eq_none]
          intro r hr same
          rw [decide_eq_true_eq, ← e] at same
          exact hn.1 (List.mem_map.2 ⟨r, hr, same⟩)
        rw [later, if_pos e.symm, decide_eq_true e]
        rfl
      · rw [if_neg (Ne.symm e), decide_eq_false e]

/-- After writing rows of different keys the listing has them and every row of another key. -/
theorem WellFormed.rows_foldl_upsert_perm (h : t.WellFormed) {rows : List Permission}
    (hn : (rows.map Permission.key).Nodup) (hp : ∀ row ∈ rows, Path.IsNamed row.path) :
    (rows.foldl PathTree.upsert t).rows.Perm
      (rows ++ t.rows.filter fun row => row.key ∉ rows.map Permission.key) := by
  have keys : ((rows ++ t.rows.filter fun row => row.key ∉ rows.map Permission.key).map
      Permission.key).Nodup := by
    refine Permission.nodup_keys_append hn (h.nodup_keys.sublist (List.filter_sublist.map _)) ?_
    intro a ha b hb heq
    exact of_decide_eq_true (List.mem_filter.1 hb).2 (heq ▸ List.mem_map.2 ⟨a, ha, rfl⟩)
  -- both listings have no repeats, so it is enough that the table agrees
  refine (h.foldl_upsert hp).perm_rows keys.of_map fun row => ?_
  rw [grant?_foldl_upsert hn, List.mem_append, List.mem_filter, h.mem_rows, decide_eq_true_eq]
  constructor
  · rintro (hrow | ⟨hg, fresh⟩)
    · rw [find?_key hn hrow]
      rfl
    · have absent : rows.find? (fun r => r.key = row.key) = none := by
        rw [List.find?_eq_none]
        intro r hr same
        exact fresh (List.mem_map.2 ⟨r, hr, of_decide_eq_true same⟩)
      rw [absent, hg]
      rfl
  · intro hg
    cases hfind : rows.find? (fun r => r.key = row.key) with
    | none =>
        rw [hfind] at hg
        refine .inr ⟨hg, fun hmem => ?_⟩
        obtain ⟨r, hr, same⟩ := List.mem_map.1 hmem
        exact List.find?_eq_none.1 hfind r hr (decide_eq_true same)
    | some r =>
        rw [hfind] at hg
        have same : r.key = row.key := by simpa using List.find?_some hfind
        have : r = row := Permission.eq_of_key_of_grant same (Option.some.inj hg)
        exact .inl (this ▸ List.mem_of_find?_eq_some hfind)

/-! ## Removing a row -/

/-- A row is removed exactly if its key holds a grant. -/
theorem remove?_eq_none_iff {key : PermissionKey} : t.remove? key = none ↔ t.grant? key = none := by
  rw [remove?, Option.map_eq_none_iff, Node.dropGrant?_eq_none_iff, grant?_eq]

/-- Dropping a grant under the root leaves the grants of the root. -/
theorem grants_dropGrant? {key : GrantKey} {segs : List String} (h : segs ≠ []) {n left : Node}
    (hd : n.dropGrant? key segs = some left) : left.grants = n.grants := by
  cases segs with
  | nil => exact absurd rfl h
  | cons s segs =>
      rw [Node.dropGrant?] at hd
      obtain ⟨child, -, hd⟩ := Option.bind_eq_some_iff.1 hd
      obtain ⟨rest, -, hd⟩ := Option.bind_eq_some_iff.1 hd
      obtain rfl := Option.some.inj hd
      rfl

/-- The root that a removal leaves. -/
theorem root_remove? {key : PermissionKey} {left : PathTree} (hr : t.remove? key = some left) :
    t.root.dropGrant? ⟨key.type, key.sid⟩ (Path.segments key.path) = some left.root := by
  obtain ⟨root, hroot, rfl⟩ := Option.map_eq_some_iff.1 hr
  exact hroot

/-- A removal keeps a tree well formed. -/
theorem WellFormed.remove? (h : t.WellFormed) {key : PermissionKey} {left : PathTree}
    (hr : t.remove? key = some left) : left.WellFormed :=
  ⟨h.root.dropGrant? (root_remove? hr), by
    rw [grants_dropGrant? (Path.segments_ne_nil key.path) (root_remove? hr), h.above]⟩

/-- A removal changes the table at its key alone. -/
theorem WellFormed.grant?_remove? (h : t.WellFormed) {key : PermissionKey} {left : PathTree}
    (hr : t.remove? key = some left) (k : PermissionKey) :
    left.grant? k = if k = key then none else t.grant? k := by
  rw [grant?_eq, h.root.grant?_dropGrant? (root_remove? hr), ← grant?_eq]
  have named : Path.segments k.path = Path.segments key.path ∧
      (⟨k.type, k.sid⟩ : GrantKey) = ⟨key.type, key.sid⟩ ↔ k = key := by
    constructor
    · rintro ⟨hpath, hkey⟩
      obtain ⟨path, type, sid⟩ := k
      obtain ⟨rfl, rfl⟩ := GrantKey.mk.inj hkey
      obtain rfl : path = key.path := Path.segments_injective hpath
      rfl
    · rintro rfl
      exact ⟨rfl, rfl⟩
  by_cases e : k = key
  · rw [if_pos (named.2 e), if_pos e]
  · rw [if_neg (fun hk => e (named.1 hk)), if_neg e]

/-! ## Reading -/

/-- The rows held at a place. -/
theorem WellFormed.mem_rowsAt (h : t.WellFormed) {place : PathRef} {row : Permission} :
    row ∈ t.rowsAt place ↔ row ∈ t.rows ∧ row.place = place := by
  rw [h.mem_rows, rowsAt, grant?]
  obtain ⟨path, type⟩ := place
  rw [show row.place = ⟨path, type⟩ ↔ row.path = path ∧ row.type = type from
    PathRef.mk.injEq .. ▸ Iff.rfl]
  cases hnode : t.node? path with
  | none =>
      refine iff_of_false List.not_mem_nil ?_
      rintro ⟨hg, rfl, -⟩
      rw [show row.key.path = row.path from rfl, hnode] at hg
      cases hg
  | some n =>
      rw [List.mem_filter, Grants.mem_rows, beq_iff_eq]
      constructor
      · rintro ⟨⟨rfl, hg⟩, htype⟩
        refine ⟨?_, rfl, htype⟩
        rw [show row.key.path = row.path from rfl, hnode]
        exact hg
      · rintro ⟨hg, rfl, htype⟩
        rw [show row.key.path = row.path from rfl, hnode] at hg
        exact ⟨⟨rfl, hg⟩, htype⟩

/-- The rows that sids hold at places. -/
theorem WellFormed.mem_rowsFor (h : t.WellFormed) {places : List PathRef} {sids : List Sid}
    {row : Permission} :
    row ∈ t.rowsFor places sids ↔ row ∈ t.rows ∧ row.place ∈ places ∧ row.sid ∈ sids := by
  rw [h.mem_rows, rowsFor, List.mem_flatMap, grant?]
  constructor
  · rintro ⟨place, hplace, hrow⟩
    cases hnode : t.node? place.path with
    | none =>
        rw [hnode] at hrow
        exact absurd hrow List.not_mem_nil
    | some n =>
        rw [hnode] at hrow
        obtain ⟨sid, hsid, hrow⟩ := List.mem_filterMap.1 hrow
        obtain ⟨grant, hg, rfl⟩ := Option.map_eq_some_iff.1 hrow
        refine ⟨?_, hplace, hsid⟩
        rw [show (grant.row place.path ⟨place.type, sid⟩).key.path = place.path from rfl, hnode]
        exact hg
  · rintro ⟨hg, hplace, hsid⟩
    obtain ⟨n, hnode, hg⟩ := Option.bind_eq_some_iff.1 hg
    refine ⟨row.place, hplace, ?_⟩
    rw [show row.place.path = row.key.path from rfl, hnode]
    refine List.mem_filterMap.2 ⟨row.sid, hsid, ?_⟩
    exact Option.map_eq_some_iff.2 ⟨row.grant, hg, rfl⟩

/-- Rows listed place by place are listed once, if no place is named twice. -/
theorem nodup_flatMap_places {places : List PathRef} (hn : places.Nodup)
    {rowsOf : PathRef → List Permission} (once : ∀ place, (rowsOf place).Nodup)
    (here : ∀ place, ∀ row ∈ rowsOf place, row.place = place) : (places.flatMap rowsOf).Nodup := by
  induction places with
  | nil => exact List.nodup_nil
  | cons place places ih =>
      obtain ⟨fresh, hn⟩ := List.nodup_cons.1 hn
      rw [List.flatMap_cons]
      refine List.nodup_append.2 ⟨once place, ih hn, ?_⟩
      rintro row hrow other hother rfl
      obtain ⟨later, hlater, hother⟩ := List.mem_flatMap.1 hother
      exact fresh ((here place row hrow).symm.trans (here later row hother) ▸ hlater)

/-- **The rows at some places**, none named twice, are those of the listing that are there. -/
theorem WellFormed.flatMap_rowsAt_perm (h : t.WellFormed) {places : List PathRef}
    (hn : places.Nodup) :
    (places.flatMap t.rowsAt).Perm (t.rows.filter fun row => row.place ∈ places) := by
  have once : ∀ place, (t.rowsAt place).Nodup := by
    intro place
    rw [rowsAt]
    cases t.node? place.path with
    | none => exact List.nodup_nil
    | some n => exact (Grants.nodup_rows n.grants place.path).of_map.filter _
  have nodup := nodup_flatMap_places hn once fun place row hrow => (h.mem_rowsAt.1 hrow).2
  refine (List.perm_ext_iff_of_nodup nodup (h.nodup_rows.filter _)).2 fun row => ?_
  rw [List.mem_flatMap, List.mem_filter, decide_eq_true_eq]
  constructor
  · rintro ⟨place, hplace, hrow⟩
    obtain ⟨held, rfl⟩ := h.mem_rowsAt.1 hrow
    exact ⟨held, hplace⟩
  · rintro ⟨hrow, hplace⟩
    exact ⟨row.place, hplace, h.mem_rowsAt.2 ⟨hrow, rfl⟩⟩

/-- **The rows that some sids hold at some places**, nothing named twice, are those of the listing. -/
theorem WellFormed.rowsFor_perm (h : t.WellFormed) {places : List PathRef} {sids : List Sid}
    (hn : places.Nodup) (hs : sids.Nodup) : (t.rowsFor places sids).Perm
      (t.rows.filter fun row => row.place ∈ places ∧ row.sid ∈ sids) := by
  have nodup : (t.rowsFor places sids).Nodup := by
    refine nodup_flatMap_places hn (fun place => ?_) fun place row hrow => ?_
    · cases t.node? place.path with
      | none => exact List.nodup_nil
      | some n =>
          refine hs.filterMap fun sid other row hrow hother => ?_
          obtain ⟨grant, -, rfl⟩ := Option.map_eq_some_iff.1 hrow
          obtain ⟨_, -, same⟩ := Option.map_eq_some_iff.1 hother
          exact (congrArg Permission.sid same).symm
    · have one : row ∈ t.rowsFor [place] sids := by
        rw [rowsFor, List.flatMap_singleton]
        exact hrow
      exact List.mem_singleton.1 (h.mem_rowsFor.1 one).2.1
  refine (List.perm_ext_iff_of_nodup nodup (h.nodup_rows.filter _)).2 fun row => ?_
  rw [h.mem_rowsFor, List.mem_filter, decide_eq_true_eq]

end PathTree

end PathAcl
