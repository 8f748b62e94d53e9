import PathAcl.Proofs.Tree.Subtree

/-! # Moving rows on the table
A move cuts a folder off and grafts it at the destination, or takes the file rows of one path and
writes them at another. On the listing both are one rewriting of the governed rows, as long as no row
is buried: the graft replaces the node at the destination with all that stands there. -/

namespace PathAcl

open Std

/-- The row carried along from under one path to under another. -/
def Permission.carried (old new : String) (row : Permission) : Permission :=
  { row with path := (Path.transplant row.path old new).getD row.path }

/-- The row after a move: carried along if the source covers it, else as it was. -/
def Permission.relocated (source destination : PathRef) (row : Permission) : Permission :=
  if source.Covers row.place then row.carried source.path destination.path else row

/-- A move **buries** rows if a folder with rows is grafted where rows stand that it does not
cover. -/
def PathRef.Buries (source destination : PathRef) (rows : List Permission) : Prop :=
  source.type = .folder ∧ (∃ row ∈ rows, source.Covers row.place) ∧
    ∃ row ∈ rows, ¬ source.Covers row.place ∧
      Path.segments destination.path <+: Path.segments row.path

namespace Permission

/-- A carried row stands under the new path as it stood under the old one. -/
theorem segments_carried {row : Permission} {old new : String} {rest : List String}
    (h : Path.segments row.path = Path.segments old ++ rest) :
    Path.segments (row.carried old new).path = Path.segments new ++ rest := by
  rw [carried, Path.transplant_eq_some h]
  refine Path.segments_join (List.append_ne_nil_of_left_ne_nil (Path.segments_ne_nil new) rest) ?_
  intro s hs
  rcases List.mem_append.1 hs with hs | hs
  · exact Path.isSegment_of_mem_segments hs
  · have old : s ∈ Path.segments row.path := h ▸ List.mem_append_right (Path.segments old) hs
    exact Path.isSegment_of_mem_segments old

/-- Carrying keeps different rows apart. -/
theorem key_of_key_carried {a b : Permission} {old new : String}
    (ha : Path.segments old <+: Path.segments a.path)
    (hb : Path.segments old <+: Path.segments b.path)
    (h : (a.carried old new).key = (b.carried old new).key) : a.key = b.key := by
  obtain ⟨x, hx⟩ := ha
  obtain ⟨y, hy⟩ := hb
  have paths : (a.carried old new).path = (b.carried old new).path :=
    congrArg PermissionKey.path h
  have rests : Path.segments new ++ x = Path.segments new ++ y := by
    rw [← segments_carried hx.symm, ← segments_carried hy.symm, paths]
  have same : a.path = b.path := by
    apply Path.segments_injective
    rw [← hx, ← hy, List.append_cancel_left rests]
  have type : a.type = b.type := congrArg PermissionKey.type h
  have sid : a.sid = b.sid := congrArg PermissionKey.sid h
  rw [key, key, same, type, sid]

/-- A root governs only what is at or beneath its path. -/
theorem prefix_of_governs {root : PathRef} {row : Permission} (h : root.governs row.place = true) :
    Path.segments root.path <+: Path.segments row.path := by
  obtain ⟨path, type⟩ := root
  cases type with
  | folder => exact (PathRef.governs_folder path row.place).1 h
  | file =>
      have place := (PathRef.governs_file path row.place).1 h
      have here : row.path = path := congrArg PathRef.path place
      exact here ▸ List.prefix_rfl

/-- A row carried along with a file stands at the new path. -/
theorem path_carried_file {row : Permission} {old new : String}
    (h : (⟨old, .file⟩ : PathRef).governs row.place = true) : (row.carried old new).path = new := by
  have place := (PathRef.governs_file old row.place).1 h
  have here : row.path = old := congrArg PathRef.path place
  have split : Path.segments row.path = Path.segments old ++ [] := by rw [here, List.append_nil]
  apply Path.segments_injective
  rw [segments_carried split, List.append_nil]

/-- A covered row is moved by transplanting its path. -/
theorem transplant_eq_relocated {source destination : PathRef} {row : Permission}
    (covered : source.Covers row.place) : Path.transplant row.path source.path destination.path =
      some (row.relocated source destination).path := by
  obtain ⟨rest, split⟩ := prefix_of_governs (PathRef.governs_iff.2 covered)
  rw [relocated, if_pos covered, carried, Path.transplant_eq_some split.symm]
  rfl

/-- A row keeps its sid when it is moved. -/
theorem sid_relocated (source destination : PathRef) (row : Permission) :
    (row.relocated source destination).sid = row.sid := by
  rw [relocated]
  split <;> rfl

/-- A row keeps its mask when it is moved. -/
theorem mask_relocated (source destination : PathRef) (row : Permission) :
    (row.relocated source destination).mask = row.mask := by
  rw [relocated]
  split <;> rfl

/-- A covered row keeps the text behind the source when it is moved. -/
theorem exists_tail_relocated {source destination : PathRef} {row : Permission}
    (covered : source.Covers row.place) : ∃ tail, row.path = source.path ++ tail ∧
      (row.relocated source destination).path = destination.path ++ tail := by
  obtain ⟨tail, text, moves⟩ := Path.exists_tail (prefix_of_governs (PathRef.governs_iff.2 covered))
  have moved := @transplant_eq_relocated source destination row covered
  rw [moves] at moved
  exact ⟨tail, text, (Option.some.inj moved).symm⟩

/-- A covered row grows or shrinks by what the destination is longer or shorter than the source. -/
theorem utf8ByteSize_relocated {source destination : PathRef} {row : Permission}
    (covered : source.Covers row.place) :
    (row.relocated source destination).path.utf8ByteSize + source.path.utf8ByteSize =
      row.path.utf8ByteSize + destination.path.utf8ByteSize := by
  obtain ⟨tail, before, after⟩ := @exists_tail_relocated source destination row covered
  rw [before, after, String.utf8ByteSize_append, String.utf8ByteSize_append]
  omega

/-- The rows a source governs keep different keys when they are carried. -/
theorem nodup_keys_carried {rows : List Permission} (hn : (rows.map Permission.key).Nodup)
    {old new : String} (hp : ∀ row ∈ rows, Path.segments old <+: Path.segments row.path) :
    ((rows.map (carried old new)).map Permission.key).Nodup := by
  rw [List.map_map]
  induction rows with
  | nil => exact List.nodup_nil
  | cons row rows ih =>
      rw [List.map_cons, List.nodup_cons] at hn ⊢
      refine ⟨fun hmem => ?_, ih hn.2 fun r hr => hp r (List.mem_cons_of_mem row hr)⟩
      obtain ⟨r, hr, same⟩ := List.mem_map.1 hmem
      have := key_of_key_carried (hp r (List.mem_cons_of_mem row hr)) (hp row List.mem_cons_self) same
      exact hn.1 (List.mem_map.2 ⟨r, hr, this⟩)

/-- Relocating a listing is carrying its governed part. -/
theorem map_relocated_perm (source destination : PathRef) (rows : List Permission) :
    ((rows.filter fun row => source.governs row.place).map
        (carried source.path destination.path) ++
      rows.filter fun row => !source.governs row.place).Perm
      (rows.map (relocated source destination)) := by
  have split := (List.filter_append_perm (fun row => source.governs row.place) rows).map
    (relocated source destination)
  rw [List.map_append] at split
  refine (List.Perm.of_eq ?_).trans split
  congr 1
  · refine List.map_congr_left fun row hrow => ?_
    rw [relocated, if_pos (PathRef.governs_iff.1 (List.mem_filter.1 hrow).2)]
  · have : ∀ row ∈ rows.filter (fun row => !source.governs row.place),
        relocated source destination row = row := by
      intro row hrow
      have outside := (List.mem_filter.1 hrow).2
      rw [Bool.not_eq_true', PathRef.governs_eq_false_iff] at outside
      exact if_neg outside
    rw [List.map_congr_left this, List.map_id']

end Permission

namespace PathTree

variable {t : PathTree}

/-- Moving a folder cuts its node off and grafts it at the destination. -/
theorem relocate_folder (t : PathTree) (path : String) (destination : PathRef) :
    t.relocate ⟨path, .folder⟩ destination =
      match t.root.takeOut? (Path.segments path) with
      | none => (0, t)
      | some (taken, left) =>
          (taken.rowCount,
            { t with root := left.alter (fun _ => taken) (Path.segments destination.path) }) := rfl

/-- Moving a file writes the rows taken from its path at the destination. -/
theorem relocate_file (t : PathTree) (path : String) (destination : PathRef) :
    t.relocate ⟨path, .file⟩ destination =
      ((t.takeUnder ⟨path, .file⟩).1.length,
        (t.takeUnder ⟨path, .file⟩).1.foldl
          (fun t row => t.upsert { row with path := destination.path })
          (t.takeUnder ⟨path, .file⟩).2) := rfl

/-- The rows taken from the path of a file are written as they are carried. -/
theorem WellFormed.foldl_upsert_carried (h : t.WellFormed) (path new : String) (left : PathTree) :
    (t.takeUnder ⟨path, .file⟩).1.foldl (fun t row => t.upsert { row with path := new }) left =
      ((t.takeUnder ⟨path, .file⟩).1.map (Permission.carried path new)).foldl
        PathTree.upsert left := by
  rw [List.foldl_map]
  refine List.foldl_ext _ _ _ fun t' row hrow => ?_
  have there : (row.carried path new).path = new :=
    Permission.path_carried_file (h.mem_takeUnder.1 hrow).2
  rw [show row.carried path new = { row with path := (row.carried path new).path } from rfl, there]

/-- As many rows are moved as the source governs. -/
theorem WellFormed.relocate_fst (h : t.WellFormed) (source destination : PathRef) :
    (t.relocate source destination).1 =
      (t.rows.filter fun row => source.governs row.place).length := by
  rw [← (h.takeUnder_perm source).length_eq]
  obtain ⟨path, type⟩ := source
  cases type with
  | file => rfl
  | folder =>
      rw [relocate_folder, takeUnder_folder]
      cases t.root.takeOut? (Path.segments path) with
      | none => rfl
      | some both => exact (Node.length_rows both.1 _).symm

/-- A move keeps a tree well formed. -/
theorem WellFormed.relocate (h : t.WellFormed) (source : PathRef) {destination : PathRef}
    (hd : Path.IsNamed destination.path) : (t.relocate source destination).2.WellFormed := by
  obtain ⟨path, type⟩ := source
  cases type with
  | file =>
      rw [relocate_file, h.foldl_upsert_carried]
      refine (h.takeUnder _).1.foldl_upsert fun row hrow => ?_
      obtain ⟨old, hold, rfl⟩ := List.mem_map.1 hrow
      rw [Path.IsNamed, Permission.path_carried_file (h.mem_takeUnder.1 hold).2]
      exact hd
  | folder =>
      rw [relocate_folder]
      cases ht : t.root.takeOut? (Path.segments path) with
      | none => exact h
      | some both =>
          obtain ⟨taken, left⟩ := both
          have found := h.root.found (Path.segments_ne_nil path) (node?_of_takeOut? ht)
          have leftFormed := (h.root.takeOut? ht).2
          refine ⟨(Node.WellFormed.alter (fun _ _ => found) hd leftFormed).1, ?_⟩
          rw [grants_alter (Path.segments_ne_nil _),
            grants_takeOut? (Path.segments_ne_nil path) ht, h.above]

/-- After a folder is moved, the table at and under the destination is that of the folder; elsewhere
it is cleared of the folder. -/
theorem WellFormed.grant?_relocate_folder (h : t.WellFormed) {path : String} {taken left : Node}
    (ht : t.root.takeOut? (Path.segments path) = some (taken, left)) (destination : PathRef)
    (key : PermissionKey) :
    (∀ rest, Path.segments key.path = Path.segments destination.path ++ rest →
      (t.relocate ⟨path, .folder⟩ destination).2.grant? key =
        t.root.grant? (Path.segments path ++ rest) ⟨key.type, key.sid⟩) ∧
    (¬ Path.segments destination.path <+: Path.segments key.path →
      (t.relocate ⟨path, .folder⟩ destination).2.grant? key =
        if Path.segments path <+: Path.segments key.path then none else t.grant? key) := by
  rw [relocate_folder, ht]
  constructor
  · intro rest hrest
    rw [grant?_eq, hrest, Node.grant?_alter_append, Node.grant?_append,
      show t.root.find? (Path.segments path) = some taken from node?_of_takeOut? ht,
      Option.bind_some]
  · intro hp
    rw [grant?_eq, Node.grant?_alter_of_not_prefix _ hp, h.root.grant?_takeOut? ht]
    rfl

/-- The rows that a move of a folder leaves alone. -/
theorem mem_uncovered {path : String} {destination : PathRef} {rows : List Permission}
    {row : Permission} :
    (row ∈ rows.filter fun row => !(⟨path, .folder⟩ : PathRef).governs row.place &&
        !Path.isAtOrBeneath row.path destination.path) ↔
      row ∈ rows ∧ ¬ Path.segments path <+: Path.segments row.path ∧
        ¬ Path.segments destination.path <+: Path.segments row.path := by
  rw [List.mem_filter, Bool.and_eq_true, Bool.not_eq_true', Bool.not_eq_true',
    ← Bool.not_eq_true, ← Bool.not_eq_true, PathRef.governs_folder, Path.isAtOrBeneath_iff]
  rfl

/-- The rows carried with a folder stand apart from those that it leaves alone. -/
theorem WellFormed.nodup_carried_append_uncovered (h : t.WellFormed) (path : String)
    (destination : PathRef) :
    (((t.rows.filter fun row => (⟨path, .folder⟩ : PathRef).governs row.place).map
          (Permission.carried path destination.path) ++
        t.rows.filter fun row => !(⟨path, .folder⟩ : PathRef).governs row.place &&
          !Path.isAtOrBeneath row.path destination.path).map Permission.key).Nodup := by
  have governed : ∀ row ∈ t.rows.filter (fun row => (⟨path, .folder⟩ : PathRef).governs row.place),
      Path.segments path <+: Path.segments row.path := fun row hrow =>
    @Permission.prefix_of_governs ⟨path, .folder⟩ row (List.mem_filter.1 hrow).2
  have kept : ∀ p : Permission → Bool, ((t.rows.filter p).map Permission.key).Nodup :=
    fun p => h.nodup_keys.sublist (List.filter_sublist.map Permission.key)
  refine Permission.nodup_keys_append (Permission.nodup_keys_carried (kept _) governed) (kept _)
    fun a ha b hb heq => ?_
  obtain ⟨old, hold, rfl⟩ := List.mem_map.1 ha
  obtain ⟨rest, hrest⟩ := governed old hold
  have there : Path.segments (old.carried path destination.path).path =
      Path.segments destination.path ++ rest := Permission.segments_carried hrest.symm
  have same : (old.carried path destination.path).path = b.path :=
    congrArg PermissionKey.path heq
  rw [same] at there
  exact (mem_uncovered.1 hb).2.2 ⟨rest, there.symm⟩

/-- A grant that is under the destination once a folder was moved there is that of a carried row. -/
theorem WellFormed.carried_of_grant? (h : t.WellFormed) {path : String} {new : String}
    {row : Permission} {rest : List String} (hrest : Path.segments row.path = Path.segments new ++ rest)
    (hg : t.root.grant? (Path.segments path ++ rest) row.grantKey = some row.grant) :
    ∃ old ∈ t.rows, (⟨path, .folder⟩ : PathRef).governs old.place = true ∧
      old.carried path new = row := by
  have hne : Path.segments path ++ rest ≠ [] :=
    List.append_ne_nil_of_left_ne_nil (Path.segments_ne_nil path) rest
  obtain ⟨listed, split⟩ := h.row_of_grant? hne hg
  refine ⟨row.grant.row (Path.join (Path.segments path ++ rest)) row.grantKey, listed, ?_, ?_⟩
  · rw [PathRef.governs_folder]
    exact ⟨rest, split.symm⟩
  · have there : Path.segments ((row.grant.row (Path.join (Path.segments path ++ rest))
        row.grantKey).carried path new).path = Path.segments new ++ rest :=
      Permission.segments_carried split
    rw [← hrest] at there
    refine Permission.eq_of_key_of_grant ?_ rfl
    rw [Permission.key, Path.segments_injective there]
    rfl

/-- The rows after a folder is moved: its own carried along, and the others save those that stood at
or beneath the destination. -/
theorem WellFormed.rows_relocate_folder_perm (h : t.WellFormed) (path : String)
    {destination : PathRef} (hd : Path.IsNamed destination.path)
    (some_row : ∃ row ∈ t.rows, (⟨path, .folder⟩ : PathRef).governs row.place = true) :
    (t.relocate ⟨path, .folder⟩ destination).2.rows.Perm
      ((t.rows.filter fun row => (⟨path, .folder⟩ : PathRef).governs row.place).map
          (Permission.carried path destination.path) ++
        t.rows.filter fun row => !(⟨path, .folder⟩ : PathRef).governs row.place &&
          !Path.isAtOrBeneath row.path destination.path) := by
  obtain ⟨there, hthere, hgov⟩ := some_row
  cases ht : t.root.takeOut? (Path.segments path) with
  | none =>
      exact absurd (Permission.prefix_of_governs hgov) (h.not_prefix_of_takeOut? ht hthere)
  | some both =>
      obtain ⟨taken, left⟩ := both
      -- neither listing has repeats, so the table decides, at the destination and elsewhere
      refine (h.relocate ⟨path, .folder⟩ hd).perm_rows
        (h.nodup_carried_append_uncovered path destination).of_map fun row => ?_
      obtain ⟨under, elsewhere⟩ := h.grant?_relocate_folder ht destination row.key
      rw [List.mem_append, mem_uncovered]
      constructor
      · rintro (hrow | ⟨hrow, hs, hp⟩)
        · obtain ⟨old, hold, rfl⟩ := List.mem_map.1 hrow
          obtain ⟨listed, governed⟩ := List.mem_filter.1 hold
          obtain ⟨rest, hrest⟩ := Permission.prefix_of_governs governed
          rw [under rest (Permission.segments_carried hrest.symm), hrest]
          exact h.mem_rows.1 listed
        · rw [elsewhere hp]
          exact (if_neg hs).trans (h.mem_rows.1 hrow)
      · intro hg
        by_cases hp : Path.segments destination.path <+: Path.segments row.path
        · obtain ⟨rest, hrest⟩ := hp
          rw [under rest hrest.symm] at hg
          obtain ⟨old, listed, governed, rfl⟩ := h.carried_of_grant? hrest.symm hg
          exact .inl (List.mem_map.2 ⟨old, List.mem_filter.2 ⟨listed, governed⟩, rfl⟩)
        · rw [elsewhere hp] at hg
          by_cases hs : Path.segments path <+: Path.segments row.path
          · exact absurd ((if_pos hs).symm.trans hg) (Option.some_ne_none row.grant).symm
          · exact .inr ⟨h.mem_rows.2 ((if_neg hs).symm.trans hg), hs, hp⟩

/-- The rows after a file is moved to where no file row is: its own carried along, and the others. -/
theorem WellFormed.rows_relocate_file_perm (h : t.WellFormed) (path : String)
    {destination : PathRef} (hd : Path.IsNamed destination.path)
    (free : ∀ row ∈ t.rows, row.place ≠ ⟨destination.path, .file⟩) :
    (t.relocate ⟨path, .file⟩ destination).2.rows.Perm
      ((t.rows.filter fun row => (⟨path, .file⟩ : PathRef).governs row.place).map
          (Permission.carried path destination.path) ++
        t.rows.filter fun row => !(⟨path, .file⟩ : PathRef).governs row.place) := by
  have there : ∀ row ∈ (t.takeUnder ⟨path, .file⟩).1.map
      (Permission.carried path destination.path), row.place = ⟨destination.path, .file⟩ := by
    intro row hrow
    obtain ⟨old, hold, rfl⟩ := List.mem_map.1 hrow
    have governed := (h.mem_takeUnder.1 hold).2
    have type : old.type = .file :=
      congrArg PathRef.type ((PathRef.governs_file path old.place).1 governed)
    exact congrArg₂ PathRef.mk (Permission.path_carried_file governed) type
  have named : ∀ row ∈ (t.takeUnder ⟨path, .file⟩).1.map
      (Permission.carried path destination.path), Path.IsNamed row.path := by
    intro row hrow
    rw [show row.path = destination.path from congrArg PathRef.path (there row hrow)]
    exact hd
  have keys : (((t.takeUnder ⟨path, .file⟩).1.map
      (Permission.carried path destination.path)).map Permission.key).Nodup :=
    Permission.nodup_keys_carried (h.nodup_takeUnder _) fun row hrow =>
      @Permission.prefix_of_governs ⟨path, .file⟩ row (h.mem_takeUnder.1 hrow).2
  rw [relocate_file, h.foldl_upsert_carried]
  refine ((h.takeUnder _).1.rows_foldl_upsert_perm keys named).trans ?_
  refine ((h.takeUnder_perm _).map _).append ?_
  -- no row that is left has the key of a carried one
  rw [List.filter_eq_self.2]
  · exact h.rows_takeUnder_perm _
  · intro row hrow
    refine decide_eq_true fun hmem => ?_
    obtain ⟨moved, hmoved, same⟩ := List.mem_map.1 hmem
    have listed : row ∈ t.rows := (List.mem_filter.1 ((h.rows_takeUnder_perm _).mem_iff.1 hrow)).1
    refine free row listed ?_
    rw [← there moved hmoved]
    exact (congrArg PermissionKey.place same).symm

/-! ## Burying rows -/

/-- Nothing stands at or beneath a folder that is not taken, so a move between places of one type
buries nothing. -/
theorem WellFormed.not_buries_of_type_eq (h : t.WellFormed) {source destination : PathRef}
    (type : destination.type = source.type) (free : t.isTaken destination = false) :
    ¬ source.Buries destination t.rows := by
  rintro ⟨folder, -, row, hrow, -, hb⟩
  obtain ⟨path, destinationType⟩ := destination
  obtain rfl : destinationType = .folder := type.trans folder
  have taken : t.isTaken ⟨path, .folder⟩ = true :=
    h.isTaken_iff.2 ⟨row, hrow, (PathRef.governs_folder path row.place).2 hb⟩
  rw [free] at taken
  cases taken

/-- No file row is at a destination that is not taken. -/
theorem WellFormed.place_ne_of_not_isTaken (h : t.WellFormed) {destination : PathRef}
    (free : t.isTaken destination = false) {row : Permission} (hrow : row ∈ t.rows) :
    row.place ≠ ⟨destination.path, .file⟩ := by
  intro place
  have taken : t.isTaken destination = true := by
    refine h.isTaken_iff.2 ⟨row, hrow, ?_⟩
    obtain ⟨path, type⟩ := destination
    rw [place]
    cases type with
    | file => exact (PathRef.governs_file path _).2 rfl
    | folder => exact (PathRef.governs_folder path _).2 List.prefix_rfl
  rw [free] at taken
  cases taken

/-- A folder without rows is not cut off. -/
theorem WellFormed.relocate_folder_of_not_governs (h : t.WellFormed) {path : String}
    (bare : ¬ ∃ row ∈ t.rows, (⟨path, .folder⟩ : PathRef).governs row.place = true)
    (destination : PathRef) : t.relocate ⟨path, .folder⟩ destination = (0, t) := by
  rw [relocate_folder]
  cases ht : t.root.takeOut? (Path.segments path) with
  | none => rfl
  | some both =>
      have here : (t.node? path).isSome = true := by rw [node?_of_takeOut? ht]; rfl
      obtain ⟨row, hrow, hp⟩ := h.node?_isSome_iff.1 here
      exact absurd ⟨row, hrow, (PathRef.governs_folder path row.place).2 hp⟩ bare

/-- A move to a free destination that buries nothing rewrites the governed rows and keeps all
others. -/
theorem WellFormed.rows_relocate_perm (h : t.WellFormed) {source destination : PathRef}
    (hd : Path.IsNamed destination.path) (free : t.isTaken destination = false)
    (shallow : ¬ source.Buries destination t.rows) :
    (t.relocate source destination).2.rows.Perm
      (t.rows.map (Permission.relocated source destination)) := by
  refine List.Perm.trans ?_ (Permission.map_relocated_perm source destination t.rows)
  obtain ⟨path, type⟩ := source
  cases type with
  | file =>
      exact h.rows_relocate_file_perm path hd fun row hrow => h.place_ne_of_not_isTaken free hrow
  | folder =>
      by_cases governs : ∃ row ∈ t.rows, (⟨path, .folder⟩ : PathRef).governs row.place = true
      · refine (h.rows_relocate_folder_perm path hd governs).trans ?_
        refine (List.Perm.refl _).append (List.Perm.of_eq (List.filter_congr fun row hrow => ?_))
        cases hs : (⟨path, .folder⟩ : PathRef).governs row.place with
        | true => rfl
        | false =>
            cases hb : Path.isAtOrBeneath row.path destination.path with
            | true =>
                obtain ⟨there, hthere, governed⟩ := governs
                refine absurd ⟨rfl, ⟨there, hthere, PathRef.governs_iff.1 governed⟩, row, hrow, ?_⟩
                  shallow
                exact ⟨PathRef.governs_eq_false_iff.1 hs, Path.isAtOrBeneath_iff.1 hb⟩
            | false => rfl
      · -- an empty folder is not cut off, and there is no row to be carried
        have none_governed : ∀ row ∈ t.rows,
            ¬ (⟨path, .folder⟩ : PathRef).governs row.place = true :=
          fun row hrow hs => governs ⟨row, hrow, hs⟩
        rw [h.relocate_folder_of_not_governs governs, List.filter_eq_nil_iff.2 none_governed,
          List.filter_eq_self.2]
        · exact List.Perm.refl _
        · intro row hrow
          rw [Bool.not_eq_true', ← Bool.not_eq_true]
          exact none_governed row hrow

/-- A move that buries rows loses some of them. -/
theorem WellFormed.length_rows_relocate_lt (h : t.WellFormed) {source destination : PathRef}
    (hd : Path.IsNamed destination.path) (buries : source.Buries destination t.rows) :
    (t.relocate source destination).2.rows.length < t.rows.length := by
  obtain ⟨path, type⟩ := source
  obtain ⟨rfl, ⟨there, hthere, covered⟩, buried, hburied, outside, hb⟩ := buries
  have governs : ∃ row ∈ t.rows, (⟨path, .folder⟩ : PathRef).governs row.place = true :=
    ⟨there, hthere, PathRef.governs_iff.2 covered⟩
  have fewer : (t.rows.filter fun row => !(⟨path, .folder⟩ : PathRef).governs row.place &&
      !Path.isAtOrBeneath row.path destination.path).length <
      (t.rows.filter fun row => !(⟨path, .folder⟩ : PathRef).governs row.place).length := by
    have twice : t.rows.filter (fun row => !(⟨path, .folder⟩ : PathRef).governs row.place &&
        !Path.isAtOrBeneath row.path destination.path) =
        (t.rows.filter fun row => !(⟨path, .folder⟩ : PathRef).governs row.place).filter
          fun row => !Path.isAtOrBeneath row.path destination.path := by
      rw [List.filter_filter]
      simp only [Bool.and_comm]
    rw [twice, List.length_filter_lt_length_iff_exists]
    refine ⟨buried, List.mem_filter.2 ⟨hburied, ?_⟩, ?_⟩
    · rw [PathRef.governs_eq_false_iff.2 outside]
      rfl
    · rw [Path.isAtOrBeneath_iff.2 hb]
      exact Bool.false_ne_true
  have parts := (List.filter_append_perm
    (fun row => (⟨path, .folder⟩ : PathRef).governs row.place) t.rows).length_eq
  rw [(h.rows_relocate_folder_perm path hd governs).length_eq, List.length_append, List.length_map]
  rw [List.length_append] at parts
  omega

end PathTree

end PathAcl
