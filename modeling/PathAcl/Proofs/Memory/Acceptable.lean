import PathAcl.Proofs.Memory.Points

/-! # Rows that are accepted as input
A row is accepted if it could have been written as it is. Whatever the operations of the table put in
has been checked, and what they drop or keep was there before; only a move makes rows that nobody
checked. It keeps everything of a row but its path, and this stays a proper path: what may change for
the worse is its length alone. -/

namespace PathAcl

/-- The paths that may be stored: not blank, not too long, and no segment is missing. -/
theorem Path.check_eq_ok_iff {path : String} :
    Path.check path = .ok () ↔ Text.blank path = false ∧ path.utf8ByteSize ≤ Path.maxBytes ∧
      Path.IsNamed path := by
  constructor
  · intro h
    have named := isNamed_of_check h
    rw [check] at h
    split at h
    · cases h
    next full =>
      split at h
      · cases h
      next short => exact ⟨Bool.eq_false_iff.2 full, Nat.not_lt.1 short, named⟩
  · rintro ⟨full, short, named⟩
    have no_gap : ¬ (segments path).any (· == "") = true := by
      intro gap
      obtain ⟨s, hs, bare⟩ := List.any_eq_true.1 gap
      exact (named s hs).1 (beq_iff_eq.1 bare)
    rw [check, if_neg (Bool.eq_false_iff.1 full), if_neg (Nat.not_lt.2 short), if_neg no_gap]

/-- A text is blank if both its parts are. -/
theorem Text.blank_append (a b : String) : blank (a ++ b) = (blank a && blank b) := by
  rw [blank, String.toList_append, List.all_append]
  rfl

namespace Permission

variable {row : Permission} {source destination : PathRef}

/-- A row is **presentable** if only the length of its path can keep it from being accepted. -/
structure Presentable (row : Permission) : Prop where
  full : Text.blank row.path = false
  named : Path.IsNamed row.path
  sid : Validity.checkSid row.sid = .ok ()
  grants : row.mask.isEmpty = false

/-- The accepted rows are the presentable ones whose path is not too long. -/
theorem check_eq_ok_iff : Validity.checkPermission row = .ok () ↔
    row.Presentable ∧ row.path.utf8ByteSize ≤ Path.maxBytes := by
  have keys : Validity.checkKey row.key = .ok () ↔
      Path.check row.path = .ok () ∧ Validity.checkSid row.sid = .ok () := by
    rw [Validity.checkKey, Validity.andThen_eq_ok_iff, Validity.checkPath_eq_ok_iff]
    rfl
  have masks : (if row.mask.isEmpty = true then .error (Fault.emptyMask row) else .ok ()) =
      (.ok () : Except Fault Unit) ↔ row.mask.isEmpty = false := by
    cases row.mask.isEmpty with
    | true => simp
    | false => simp
  rw [Validity.checkPermission, Validity.andThen_eq_ok_iff, keys, masks, Path.check_eq_ok_iff]
  constructor
  · rintro ⟨⟨⟨full, short, named⟩, sid⟩, grants⟩
    exact ⟨⟨full, named, sid, grants⟩, short⟩
  · rintro ⟨⟨full, named, sid, grants⟩, short⟩
    exact ⟨⟨⟨full, short, named⟩, sid⟩, grants⟩

/-- **A move keeps rows presentable.** -/
theorem Presentable.relocated (h : row.Presentable)
    (stored : Path.check destination.path = .ok ()) :
    (row.relocated source destination).Presentable := by
  have sid := sid_relocated source destination row
  have mask := mask_relocated source destination row
  by_cases covered : source.Covers row.place
  · obtain ⟨full, -, named⟩ := Path.check_eq_ok_iff.1 stored
    refine ⟨?_, ?_, sid ▸ h.sid, mask ▸ h.grants⟩
    · obtain ⟨tail, -, after⟩ := @exists_tail_relocated source destination row covered
      rw [after, Text.blank_append, full, Bool.false_and]
    · -- the segments of the destination and those of the row behind the source
      obtain ⟨rest, split⟩ := prefix_of_governs (PathRef.governs_iff.2 covered)
      rw [Permission.relocated, if_pos covered, Path.IsNamed, segments_carried split.symm]
      intro s hs
      rcases List.mem_append.1 hs with hs | hs
      · exact named s hs
      · exact h.named s (split ▸ List.mem_append_right _ hs)
  · rw [Permission.relocated, if_neg covered]
    exact h

end Permission

/-! ## What a table holds -/

namespace Memory

variable {m m' : Memory} {p : Permission → Prop}

/-- A table **holds** only rows of a kind: all rows it lists have the property, and all prolongations
it lists are accepted for their storage. -/
structure Holds (m : Memory) (p : Permission → Prop) : Prop where
  rows : ∀ id, ∀ row ∈ m.rows id, p row
  prolongations : ∀ id records, m.prolongations id = .ok records →
    ∀ record ∈ records, Validity.checkProlongation id record = .ok ()

/-- A table is **valid** if all it holds is accepted as input. -/
def Valid (m : Memory) : Prop := m.Holds fun row => Validity.checkPermission row = .ok ()

/-- The table that knows nothing holds nothing. -/
theorem holds_empty (p : Permission → Prop) : Holds ∅ p := by
  refine ⟨fun id row hrow => absurd hrow List.not_mem_nil, fun id records listed record hrecord => ?_⟩
  obtain ⟨_, -, listed⟩ := bind_eq_ok_iff.1 listed
  obtain rfl := Except.ok.inj listed
  exact absurd hrecord List.not_mem_nil

/-- What is held of more rows is held of fewer. -/
theorem Holds.of_rows (h : m.Holds p) (same : m'.prolonged = m.prolonged)
    (rows : ∀ id, ∀ row ∈ m'.rows id, p row) : m'.Holds p := by
  refine ⟨rows, fun id records listed => h.prolongations id records ?_⟩
  rw [Memory.prolongations, same] at listed
  exact listed

/-- A property of the rows of a storage that was written, and of all others. -/
theorem Writes.forall_rows {id : StorageId} {new : PathTree} (w : m.Writes id new m')
    (old : ∀ id, ∀ row ∈ m.rows id, p row) (here : ∀ row ∈ new.rows, p row) :
    ∀ id, ∀ row ∈ m'.rows id, p row := by
  intro i row hrow
  rw [rows_eq, w.tree] at hrow
  split at hrow
  · exact here row hrow
  · exact old i row (rows_eq m i ▸ hrow)

/-- A bound prolongation was bound before or is one of those that were put in. -/
theorem mem_values_foldl_insert {records : List Prolongation} {known : SortedMap String Prolongation}
    {record : Prolongation}
    (h : record ∈ (records.foldl (fun known p => known.insert p.path p) known).values) :
    record ∈ records ∨ record ∈ known.values := by
  induction records generalizing known with
  | nil => exact .inr h
  | cons first records ih =>
      rcases ih h with later | bound
      · exact .inl (List.mem_cons_of_mem first later)
      · obtain ⟨binding, hbinding, rfl⟩ := List.mem_map.1 bound
        rcases Bindings.mem_insert hbinding with rfl | before
        · exact .inl List.mem_cons_self
        · exact .inr (List.mem_map.2 ⟨binding, before, rfl⟩)

section Operations

/-- A table is **furnished** with rows of a kind if it is well formed and holds only such. -/
def Furnished (p : Permission → Prop) (m : Memory) : Prop := m.WellFormed ∧ m.Holds p

variable (fine : ∀ row, Validity.checkPermission row = .ok () → p row) (h : Furnished p m)

include h

/-- Making a storage known adds nothing. -/
theorem Furnished.register {storage : StorageRef} (made : m.register storage = .ok m') :
    Furnished p m' := by
  have writes := writes_of_register made
  have same := prolonged_of_register made
  refine ⟨h.1.of_writes writes (h.1 _), h.2.of_rows same (writes.forall_rows h.2.rows ?_)⟩
  exact rows_eq m storage.id ▸ h.2.rows storage.id

include fine in
/-- Rows that are written have been checked. -/
theorem Furnished.upsert {storage : StorageRef} {rows kept : List Permission}
    (made : m.upsert storage rows = .ok (kept, m')) : Furnished p m' := by
  obtain ⟨rfl, valid, writes⟩ := writes_of_upsert made
  have checked : ∀ row ∈ Permission.keepLast rows, Validity.checkPermission row = .ok () :=
    fun row hrow => valid row (mem_of_mem_keepLast hrow)
  have named : ∀ row ∈ Permission.keepLast rows, Path.IsNamed row.path :=
    fun row hrow => Validity.isNamed_of_checkPermission (checked row hrow)
  refine ⟨h.1.of_writes writes ((h.1 _).foldl_upsert named), h.2.of_rows ?_ ?_⟩
  · obtain ⟨-, -, rfl⟩ := upsert_eq_ok_iff.1 made
    rfl
  · refine writes.forall_rows h.2.rows fun row hrow => ?_
    have nodup : ((Permission.keepLast rows).map Permission.key).Nodup := nodup_keepLast _ rows
    have listed := ((h.1 storage.id).rows_foldl_upsert_perm nodup named).mem_iff.1 hrow
    rcases List.mem_append.1 listed with written | before
    · exact fine row (checked row written)
    · exact h.2.rows storage.id row (rows_eq m storage.id ▸ (List.mem_filter.1 before).1)

/-- What is left after keys were dropped was there before. -/
theorem Furnished.delete {id : StorageId} {keys dropped : List PermissionKey}
    (made : m.delete id keys = .ok (dropped, m')) : Furnished p m' := by
  obtain ⟨-, writes⟩ := writes_of_delete made
  refine ⟨h.1.of_writes writes ((h.1 id).dropKeys keys), h.2.of_rows ?_ ?_⟩
  · obtain ⟨-, -, rfl⟩ := delete_eq_ok_iff.1 made
    rfl
  · refine writes.forall_rows h.2.rows fun row hrow => ?_
    exact h.2.rows id row (rows_eq m id ▸ ((mem_rows_dropKeys (h.1 id) keys).1 hrow).1)

/-- What is left after subtrees were dropped was there before. -/
theorem Furnished.deleteUnder {id : StorageId} {roots : List PathRef}
    {dropped : List PermissionKey} (made : m.deleteUnder id roots = .ok (dropped, m')) :
    Furnished p m' := by
  obtain ⟨-, writes⟩ := writes_of_deleteUnder made
  refine ⟨h.1.of_writes writes ((h.1 id).dropTrees roots),
    h.2.of_rows (prolonged_of_deleteUnder made) (writes.forall_rows h.2.rows fun row hrow => ?_)⟩
  exact h.2.rows id row (rows_eq m id ▸ ((mem_rows_dropTrees (h.1 id) roots).1 hrow).1)

/-- Prolongations that are written have been checked. -/
theorem Furnished.prolong {id : StorageId} {records kept : List Prolongation}
    (made : m.prolong id records = .ok (kept, m')) : Furnished p m' := by
  have writes := writes_of_prolong made
  refine ⟨h.1.of_writes writes (h.1 id), writes.forall_rows h.2.rows ?_, ?_⟩
  · exact rows_eq m id ▸ h.2.rows id
  · obtain ⟨⟨-, checked⟩, rfl, rfl⟩ := prolong_eq_ok_iff.1 made
    intro i found listed record hrecord
    obtain ⟨_, known, listed⟩ := bind_eq_ok_iff.1 listed
    obtain rfl := Except.ok.inj listed
    rw [SortedMap.find?_insert] at hrecord
    have before : ∀ record ∈ ((m.prolonged.find? i).getD ∅).values,
        Validity.checkProlongation i record = .ok () :=
      h.2.prolongations i _ (bind_eq_ok_iff.2 ⟨_, known, rfl⟩)
    by_cases e : i = id
    · rw [if_pos e, Option.getD_some] at hrecord
      rcases mem_values_foldl_insert hrecord with written | bound
      · rw [e]
        exact checked record (mem_of_mem_keepLast written)
      · exact before record (e ▸ bound)
    · rw [if_neg e] at hrecord
      exact before record hrecord

end Operations

end Memory

end PathAcl
