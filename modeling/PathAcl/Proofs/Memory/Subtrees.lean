import PathAcl.Proofs.Memory.Points
import PathAcl.Proofs.Tree.Order

/-! # Dropping under roots
Roots are worked off one after the other, on a tree that the earlier ones have thinned out already. What
is dropped altogether is the union of what they cover in the listing at the start: each row once, whatever
root met it first. So neither the order of the roots nor their repetition matters. The counter of rows
goes down by as many, also in a storage where it was ahead of the listing before. -/

namespace PathAcl

open Store

namespace Memory

variable {m m' : Memory} {t : PathTree} {id : StorageId}

/-! ## One tree -/

/-- The rows that are left are those that no root covers, in their order. -/
theorem rows_dropTrees (h : t.WellFormed) (roots : List PathRef) :
    (dropTrees roots t).2.rows =
      t.rows.filter fun row => ∀ root ∈ roots, ¬ root.Covers row.place := by
  induction roots generalizing t with
  | nil => simp [dropTrees]
  | cons root roots ih =>
      rw [dropTrees]
      refine (ih (h.takeUnder root).1).trans ?_
      rw [h.rows_takeUnder, List.filter_filter]
      apply List.filter_congr
      intro row _
      simp [Bool.and_comm]

/-- The rows that are dropped are those that some root covers. -/
theorem mem_dropTrees (h : t.WellFormed) {roots : List PathRef} {row : Permission} :
    row ∈ (dropTrees roots t).1 ↔ row ∈ t.rows ∧ ∃ root ∈ roots, root.Covers row.place := by
  induction roots generalizing t with
  | nil => simp [dropTrees]
  | cons root roots ih =>
      rw [dropTrees, List.mem_append, h.mem_takeUnder, ih (h.takeUnder root).1, h.rows_takeUnder,
        List.mem_filter, PathRef.governs_iff]
      -- a later root finds what the first one does not cover
      by_cases covered : root.Covers row.place
      · simp [covered]
      · simp [covered]

/-- No key is dropped twice. -/
theorem nodup_dropTrees (h : t.WellFormed) (roots : List PathRef) :
    ((dropTrees roots t).1.map Permission.key).Nodup := by
  induction roots generalizing t with
  | nil => exact List.nodup_nil
  | cons root roots ih =>
      rw [dropTrees]
      have left := (h.takeUnder root).1
      refine Permission.nodup_keys_append (h.nodup_takeUnder root) (ih left) ?_
      intro a ha b hb same
      have taken := (h.mem_takeUnder.1 ha).2
      have stays := ((mem_dropTrees left).1 hb).1
      rw [h.rows_takeUnder, List.mem_filter, decide_eq_true_eq, ← PathRef.governs_iff] at stays
      have place : a.place = b.place := congrArg PermissionKey.place same
      exact stays.2 (place ▸ taken)

/-- What is dropped and what is left make up the listing. -/
theorem length_dropTrees (h : t.WellFormed) (roots : List PathRef) :
    (dropTrees roots t).2.rows.length + (dropTrees roots t).1.length = t.rows.length := by
  have dropped : (dropTrees roots t).1.Perm
      (t.rows.filter fun row => !decide (∀ root ∈ roots, ¬ root.Covers row.place)) := by
    rw [List.perm_ext_iff_of_nodup (nodup_dropTrees h roots).of_map (h.nodup_rows.filter _)]
    intro row
    rw [mem_dropTrees h, List.mem_filter]
    simp
  rw [rows_dropTrees h, dropped.length_eq, ← List.length_append]
  exact (List.filter_append_perm _ _).length_eq

/-! ## Counters after any calls -/

/-- A write of a tree whose counters are ahead by some rows leaves all counters ahead by some. -/
theorem Writes.overcounts {new : PathTree} (w : m.Writes id new m')
    (before : ∀ i, ∃ lost, (m.tree i).Overcounts lost) (here : ∃ lost, new.Overcounts lost) :
    ∀ i, ∃ lost, (m'.tree i).Overcounts lost := by
  intro i
  rw [w.tree]
  split
  · exact here
  · exact before i

/-- After a call the counters tally with the rows and those lost so far, or lost by it. -/
theorem WellFormed.overcounts_after (h : m.WellFormed)
    (before : ∀ i, ∃ lost, (m.tree i).Overcounts lost) (call : Call) :
    ∀ i, ∃ lost, ((store.after m call).tree i).Overcounts lost := by
  have effect := effect_after m call
  generalize store.after m call = m' at effect
  cases effect with
  | nothing => exact before
  | keep writes => exact writes.overcounts before (before _)
  | @upsert storage rows _ named writes =>
      obtain ⟨lost, counts⟩ := before storage.id
      exact writes.overcounts before ⟨lost, counts.foldl_upsert (h _) named⟩
  | @delete id keys _ drops writes =>
      obtain ⟨lost, counts⟩ := before id
      have kept := dropKeys_keeps (p := fun t => t.WellFormed ∧ t.Overcounts lost)
        (fun _ _ _ both hr => ⟨both.1.remove? hr, both.2.remove? both.1 hr⟩) ⟨h id, counts⟩ keys
      exact writes.overcounts before ⟨lost, kept.2⟩
  | @deleteUnder id roots _ drops writes =>
      obtain ⟨lost, counts⟩ := before id
      have kept := dropTrees_keeps (p := fun t => t.WellFormed ∧ t.Overcounts lost)
        (fun _ root both => ⟨(both.1.takeUnder root).1, both.2.takeUnder both.1 root⟩)
        ⟨h id, counts⟩ roots
      exact writes.overcounts before ⟨lost, kept.2⟩
  | @relocate id source destination _ call_eq hs hd free writes =>
      obtain ⟨lost, counts⟩ := before id
      obtain ⟨buried, left⟩ := counts.relocate (h id) source (Path.isNamed_of_check hd)
      exact writes.overcounts before ⟨buried ++ lost, left⟩

/-- **Whatever was called**, the counters tally with the rows and those that moves have buried. -/
theorem overcounts_afterAll (calls : List Call) (i : StorageId) :
    ∃ lost, ((store.afterAll ∅ calls).tree i).Overcounts lost := by
  -- what a call buries is known only of well-formed trees, so both run along together
  have start : (∅ : Memory).WellFormed ∧ ∀ i, ∃ lost, ((∅ : Memory).tree i).Overcounts lost :=
    ⟨fun _ => PathTree.wellFormed_empty, fun _ => ⟨[], PathTree.counted_iff.1 PathTree.counted_empty⟩⟩
  have run := store.afterAll_induction
    (p := fun m => m.WellFormed ∧ ∀ i, ∃ lost, (m.tree i).Overcounts lost)
    (fun m call both => ⟨both.1.after call, both.1.overcounts_after both.2 call⟩) start calls
  exact run.2 i

/-! ## The operation -/

/-- What lies under some roots was **dropped**: the keys of the rows that a root covers are answered, each
once, and all other rows stay as they are. The counter of rows goes down by the number of answered keys.
Other storages, kinds and prolongations stay. -/
structure DroppedUnder (m : Memory) (id : StorageId) (roots : List PathRef)
    (dropped : List PermissionKey) (m' : Memory) : Prop where
  once : dropped.Nodup
  answered : ∀ key, key ∈ dropped ↔
    ∃ row ∈ m.rows id, row.key = key ∧ ∃ root ∈ roots, root.Covers row.place
  left : m'.rows id = (m.rows id).filter fun row => ∀ root ∈ roots, ¬ root.Covers row.place
  counted : m'.rowCount id + dropped.length = m.rowCount id
  others : ∀ i, i ≠ id → m'.rows i = m.rows i ∧ m'.rowCount i = m.rowCount i
  kinds : ∀ i, m'.kindOf i = m.kindOf i
  prolonged : m'.prolonged = m.prolonged

/-- Dropping what lies under accepted roots from a storage, known or not. -/
theorem deleteUnder_eq (positive : 0 < id) {roots : List PathRef}
    (valid : ∀ root ∈ roots, Path.check root.path = .ok ()) :
    m.deleteUnder id roots = .ok ((dropTrees roots (m.tree id)).1.map Permission.key,
      m.setTree id (dropTrees roots (m.tree id)).2) := by
  have checked : require (Validity.checkStorageId id) = .ok () :=
    require_eq_ok_iff.2 (Validity.checkStorageId_eq_ok_iff.2 positive)
  have accepted : require (Validity.checkAll (fun r => Validity.checkPath r.path) roots) = .ok () :=
    require_eq_ok_iff.2 (Validity.checkAll_eq_ok_iff.2 fun root hroot =>
      Validity.checkPath_eq_ok_iff.2 (valid root hroot))
  rw [deleteUnder, checked, accepted]
  rcases m.find?_cases id with ⟨found, -, here⟩ | ⟨b, found, -, here⟩
  · rw [here, dropTrees_empty, setTree_of_unknown found, found]
    rfl
  · rw [here, found]
    rfl

/-- Accepted roots are dropped under, if the counter of the storage is ahead by some rows or none. -/
theorem WellFormed.droppedUnder (h : m.WellFormed) (positive : 0 < id) {lost : List Sid}
    (counts : (m.tree id).Overcounts lost) (roots : List PathRef) :
    DroppedUnder m id roots ((dropTrees roots (m.tree id)).1.map Permission.key)
      (m.setTree id (dropTrees roots (m.tree id)).2) := by
  have writes := @writes_setTree m id positive (dropTrees roots (m.tree id)).2 fun bare => by
    rw [bare, dropTrees_empty]
  have tree : (m.setTree id (dropTrees roots (m.tree id)).2).tree id =
      (dropTrees roots (m.tree id)).2 := by
    rw [writes.tree, if_pos rfl]
  refine ⟨nodup_dropTrees (h id) roots, ?_, ?_, ?_, ?_, fun i => kindOf_setTree .., rfl⟩
  · intro key
    rw [List.mem_map, rows_eq]
    constructor
    · rintro ⟨row, hrow, rfl⟩
      obtain ⟨listed, covered⟩ := (mem_dropTrees (h id)).1 hrow
      exact ⟨row, listed, rfl, covered⟩
    · rintro ⟨row, listed, rfl, covered⟩
      exact ⟨row, (mem_dropTrees (h id)).2 ⟨listed, covered⟩, rfl⟩
  · rw [rows_eq, rows_eq, tree, rows_dropTrees (h id)]
  · -- what the counter was ahead by it is ahead by still
    have kept := dropTrees_keeps (p := fun t => t.WellFormed ∧ t.Overcounts lost)
      (fun _ root both => ⟨(both.1.takeUnder root).1, both.2.takeUnder both.1 root⟩)
      ⟨h id, counts⟩ roots
    have parts := length_dropTrees (h id) roots
    rw [rowCount_eq, rowCount_eq, tree, kept.2.rowCount_eq, counts.rowCount_eq, List.length_map]
    omega
  · intro i apart
    rw [rows_eq, rows_eq, rowCount_eq, rowCount_eq, writes.tree, if_neg apart]
    exact ⟨rfl, rfl⟩

/-- Roots with the same members drop the same. -/
theorem DroppedUnder.congr {m'' : Memory} {roots others : List PathRef}
    {dropped again : List PermissionKey} (h : DroppedUnder m id roots dropped m')
    (h' : DroppedUnder m id others again m'') (same : ∀ root, root ∈ others ↔ root ∈ roots) :
    again.Perm dropped ∧ ∀ i, m''.rows i = m'.rows i ∧ m''.rowCount i = m'.rowCount i := by
  have keys : again.Perm dropped := by
    rw [List.perm_ext_iff_of_nodup h'.once h.once]
    intro key
    rw [h'.answered, h.answered]
    simp only [same]
  refine ⟨keys, fun i => ?_⟩
  by_cases e : i = id
  · subst e
    constructor
    · rw [h'.left, h.left]
      simp only [same]
    · have := h.counted
      have := h'.counted
      have := keys.length_eq
      omega
  · rw [(h'.others i e).1, (h'.others i e).2, (h.others i e).1, (h.others i e).2]
    exact ⟨rfl, rfl⟩

/-- **Dropping under roots drops the union of what they cover**, after any calls and for any roots that
may be stored: nested, overlapping, repeated or absent. Roots with the same members, in another order or
repeated otherwise, leave the same rows and counters and answer the same keys. -/
theorem deleteUnder_drops_union (calls : List Call) {roots : List PathRef} (positive : 0 < id)
    (valid : ∀ root ∈ roots, Path.check root.path = .ok ()) :
    ∃ dropped, ((store.deleteUnder id roots).run (store.afterAll ∅ calls)).answer = .ok dropped ∧
      DroppedUnder (store.afterAll ∅ calls) id roots dropped
        ((store.deleteUnder id roots).run (store.afterAll ∅ calls)).state ∧
      ∀ others : List PathRef, (∀ root, root ∈ others ↔ root ∈ roots) →
        ∃ again, ((store.deleteUnder id others).run (store.afterAll ∅ calls)).answer = .ok again ∧
          again.Perm dropped ∧
          ∀ i, (((store.deleteUnder id others).run (store.afterAll ∅ calls)).state.rows i =
              ((store.deleteUnder id roots).run (store.afterAll ∅ calls)).state.rows i) ∧
            (((store.deleteUnder id others).run (store.afterAll ∅ calls)).state.rowCount i =
              ((store.deleteUnder id roots).run (store.afterAll ∅ calls)).state.rowCount i) := by
  obtain ⟨lost, counts⟩ := overcounts_afterAll calls id
  have formed := wellFormed_afterAll calls
  generalize store.afterAll ∅ calls = m at counts formed
  have drops : ∀ places : List PathRef, (∀ root ∈ places, Path.check root.path = .ok ()) →
      ((store.deleteUnder id places).run m).answer =
          .ok ((dropTrees places (m.tree id)).1.map Permission.key) ∧
        DroppedUnder m id places ((dropTrees places (m.tree id)).1.map Permission.key)
          ((store.deleteUnder id places).run m).state := by
    intro places accepted
    rw [(run_deleteUnder m id places).1, (run_deleteUnder m id places).2,
      deleteUnder_eq positive accepted]
    exact ⟨rfl, formed.droppedUnder positive counts places⟩
  obtain ⟨answer, dropped⟩ := drops roots valid
  refine ⟨_, answer, dropped, fun others same => ?_⟩
  obtain ⟨otherAnswer, otherDropped⟩ := drops others fun root hroot => valid root ((same root).1 hroot)
  exact ⟨_, otherAnswer, dropped.congr otherDropped same⟩

/-- A folder with a file and a folder of one name in it, and a file beside it. -/
def grove : List Call :=
  let grant : PathRef → Permission := fun place =>
    ⟨place.path, place.type, .user "u", .read, .epoch⟩
  [.upsert ⟨1, .s3⟩ (List.map grant [.folder "a", .file "a/b", .folder "a/b", .file "a/b/c", .file "ab"])]

/-- A file, the folder it is in, the folder of its name, the first folder again, and one without rows. -/
def overlappingRoots : List PathRef :=
  [.file "a/b", .folder "a/b", .folder "a", .folder "a/b", .folder "a/d"]

/-- Of five rows the four in the folder are dropped, each once. -/
theorem deleteUnder_overlappingRoots :
    (0 < (1 : StorageId) ∧ ∀ root ∈ overlappingRoots, Path.check root.path = .ok ()) ∧
      ∃ dropped,
        ((store.deleteUnder 1 overlappingRoots).run (store.afterAll ∅ grove)).answer = .ok dropped ∧
        DroppedUnder (store.afterAll ∅ grove) 1 overlappingRoots dropped
          ((store.deleteUnder 1 overlappingRoots).run (store.afterAll ∅ grove)).state ∧
        dropped.length = 4 ∧
        ((store.deleteUnder 1 overlappingRoots).run (store.afterAll ∅ grove)).state.rowCount 1 = 1 := by
  have valid : ∀ root ∈ overlappingRoots, Path.check root.path = .ok () := by decide
  obtain ⟨dropped, answer, under, -⟩ := @deleteUnder_drops_union 1 grove overlappingRoots (by decide) valid
  refine ⟨⟨by decide, valid⟩, dropped, answer, under, ?_⟩
  have before : (store.afterAll ∅ grove).rowCount 1 = 5 := by decide
  have after : ((store.deleteUnder 1 overlappingRoots).run (store.afterAll ∅ grove)).state.rowCount 1 =
      1 := by decide
  have counted := under.counted
  omega

end Memory

end PathAcl
