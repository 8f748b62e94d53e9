import Mathlib.Data.List.Sort
import PathAcl.Proofs.Memory.ListingOrder

/-! # What a table shows
A listing is determined by the row of each key, and what a batch leaves under a key is told by the last
of its items that has the key. So a table that a batch was worked off on at once lists the same as one
that it was worked off on in parts, up to the dates, which callers are not shown. -/

namespace PathAcl

/-- The row that shows as an entry and was written at some time. -/
def GrantRequest.dated (now : Instant) (n : PermissionEntry) : Permission :=
  ⟨n.path, n.type, n.sid, n.mask, now⟩

/-- Whether an entry is listed in front of another. -/
def GrantRequest.Precedes (a b : PermissionEntry) : Prop :=
  (a.dated .epoch).Precedes (b.dated .epoch)

instance : Std.Asymm GrantRequest.Precedes := ⟨fun _ _ h => Permission.Precedes.asymm h⟩

namespace Memory

variable {m a b : Memory} {id : StorageId}

/-! ## Listings -/

/-- **A listing is determined by the row of each key.** -/
theorem WellFormed.rows_eq_of_row? (ha : a.WellFormed) (hb : b.WellFormed)
    (same : ∀ key, a.row? id key = b.row? id key) : a.rows id = b.rows id := by
  refine (ha.pairwise_rows id).eq_of_mem_iff (hb.pairwise_rows id) fun row => ?_
  rw [ha.mem_rows_iff, hb.mem_rows_iff, same]

/-- What a caller is shown under a key. -/
def shown? (m : Memory) (id : StorageId) (key : PermissionKey) : Option PermissionEntry :=
  (m.row? id key).map Permission.entry

/-- An entry is listed if it is the one of its key. -/
theorem WellFormed.mem_entries_iff (h : m.WellFormed) {n : PermissionEntry} :
    n ∈ (m.rows id).map Permission.entry ↔ m.shown? id n.key = some n := by
  rw [List.mem_map, shown?, Option.map_eq_some_iff]
  constructor
  · rintro ⟨row, hrow, rfl⟩
    exact ⟨row, h.mem_rows_iff.1 hrow, rfl⟩
  · rintro ⟨row, found, same⟩
    exact ⟨row, List.mem_of_find?_eq_some found, same⟩

/-- The entries of a storage come in order: the dates do not matter for it. -/
theorem WellFormed.pairwise_entries (h : m.WellFormed) (id : StorageId) :
    ((m.rows id).map Permission.entry).Pairwise GrantRequest.Precedes :=
  List.pairwise_map.2 (h.pairwise_rows id)

/-- Two tables **show the same** if they list the same entries and count as many rows, storage by
storage. -/
structure ShowsSame (a b : Memory) : Prop where
  entries : ∀ id, (a.rows id).map Permission.entry = (b.rows id).map Permission.entry
  counts : ∀ id, a.rowCount id = b.rowCount id

/-- Sound tables show the same if they do so under every key. -/
theorem Sound.showsSame (ha : a.Sound) (hb : b.Sound)
    (same : ∀ id key, a.shown? id key = b.shown? id key) : a.ShowsSame b := by
  have entries : ∀ id, (a.rows id).map Permission.entry = (b.rows id).map Permission.entry := by
    intro id
    refine (ha.wellFormed.pairwise_entries id).eq_of_mem_iff
      (hb.wellFormed.pairwise_entries id) fun n => ?_
    rw [ha.wellFormed.mem_entries_iff, hb.wellFormed.mem_entries_iff, same]
  refine ⟨entries, fun id => ?_⟩
  have lengths := congrArg List.length (entries id)
  rw [List.length_map, List.length_map] at lengths
  rw [ha.rowCount_eq, hb.rowCount_eq, lengths]

/-! ## Writes in a row -/

/-- What is answered to a write is listed after it. -/
theorem Upserted.mem_rows {storage : StorageRef} {rows kept : List Permission}
    (h : Upserted m storage rows kept a) (after : a.WellFormed) {row : Permission}
    (hrow : row ∈ kept) : row ∈ a.rows storage.id := by
  rw [after.mem_rows_iff, h.bound, (h.answered row).1 hrow]
  rfl

/-- A table **binds** rows of a storage, one after the other: the last row that has a key is bound to it,
and everything else stays. -/
structure Binds (m : Memory) (id : StorageId) (rows : List Permission) (m' : Memory) : Prop where
  bound : ∀ key, m'.row? id key = (lastOf rows key).or (m.row? id key)
  others : ∀ i, i ≠ id → m'.rows i = m.rows i

namespace Binds

variable {xs ys : List Permission}

/-- A batch that is written is bound. -/
theorem of_upserted {storage : StorageRef} {kept : List Permission}
    (h : Upserted m storage xs kept a) : m.Binds storage.id xs a := ⟨h.bound, h.others⟩

/-- Without rows nothing is bound. -/
theorem nil : m.Binds id [] m := ⟨fun _ => rfl, fun _ _ => rfl⟩

/-- **Rows may be bound in parts.** -/
theorem append (first : m.Binds id xs a) (later : a.Binds id ys b) : m.Binds id (xs ++ ys) b := by
  refine ⟨fun key => ?_, fun i apart => (later.others i apart).trans (first.others i apart)⟩
  rw [later.bound, first.bound, lastOf, lastOf, lastOf, List.reverse_append, List.find?_append,
    Option.or_assoc]

/-- Rows that show the same under every key leave tables that do. -/
theorem shown?_eq (left : m.Binds id xs a) (right : m.Binds id ys b)
    (same : ∀ key, (lastOf xs key).map Permission.entry = (lastOf ys key).map Permission.entry)
    (i : StorageId) (key : PermissionKey) : a.shown? i key = b.shown? i key := by
  rw [shown?, shown?]
  by_cases here : i = id
  · subst here
    rw [left.bound, right.bound, Option.map_or, Option.map_or, same]
  · rw [row?, row?, left.others i here, right.others i here]

end Binds

/-- What shows of the last row with a key is the last that shows of any with it. -/
theorem map_entry_lastOf (rows : List Permission) (key : PermissionKey) :
    (lastOf rows key).map Permission.entry =
      (rows.map Permission.entry).reverse.find? fun n => n.key = key := by
  rw [lastOf, ← List.map_reverse, List.find?_map]
  rfl

/-! ## Drops in a row -/

namespace Deleted

variable {ks ls ds es : List PermissionKey}

/-- What is answered is not listed any more. -/
theorem key_not_mem (h : m.Deleted id ks ds a) {row : Permission} (hrow : row ∈ a.rows id)
    (after : a.WellFormed) : row.key ∉ ds := by
  intro dropped
  rw [h.answered, List.mem_eraseDups] at dropped
  have left := after.mem_rows_iff.1 hrow
  rw [h.gone, if_pos (List.mem_filter.1 dropped).1] at left
  cases left

/-- Without keys nothing is dropped. -/
theorem nil : m.Deleted id [] [] m :=
  ⟨rfl, fun _ => (if_neg List.not_mem_nil).symm, fun _ _ => rfl, fun _ => rfl, rfl⟩

/-- **Keys may be dropped in parts**, and the answers then follow each other. -/
theorem append (first : m.Deleted id ks ds a) (later : a.Deleted id ls es b) :
    m.Deleted id (ks ++ ls) (ds ++ es) b := by
  refine ⟨?_, fun key => ?_, fun i apart => ?_, fun i => ?_, ?_⟩
  · -- the second part finds what is under keys that the first has not
    have left : (ls.filter fun key => (a.row? id key).isSome) =
        (ls.filter fun key => (m.row? id key).isSome).removeAll
          (ks.filter fun key => (m.row? id key).isSome) := by
      rw [List.removeAll, List.filter_filter]
      refine List.filter_congr fun key _ => ?_
      rw [first.gone]
      by_cases before : key ∈ ks <;> cases found : m.row? id key <;> simp [before, found]
    rw [first.answered, later.answered, left, List.filter_append, List.eraseDups_append]
  · rw [later.gone, first.gone]
    by_cases before : key ∈ ks <;> simp [before]
  · exact (later.others i apart).trans (first.others i apart)
  · exact (later.kinds i).trans (first.kinds i)
  · exact later.prolonged.trans first.prolonged

/-- What is dropped and what is left is told by the keys. -/
theorem unique (left : m.Deleted id ks ds a) (right : m.Deleted id ks es b) (ha : a.Sound)
    (hb : b.Sound) : ds = es ∧ ∀ i, a.rows i = b.rows i ∧ a.rowCount i = b.rowCount i := by
  have rows : ∀ i, a.rows i = b.rows i := by
    intro i
    by_cases here : i = id
    · subst here
      exact ha.wellFormed.rows_eq_of_row? hb.wellFormed fun key =>
        (left.gone key).trans (right.gone key).symm
    · exact (left.others i here).trans (right.others i here).symm
  refine ⟨left.answered.trans right.answered.symm, fun i => ⟨rows i, ?_⟩⟩
  rw [ha.rowCount_eq, hb.rowCount_eq, rows]

end Deleted

end Memory

end PathAcl
