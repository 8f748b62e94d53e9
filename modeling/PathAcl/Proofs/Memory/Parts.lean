import PathAcl.Proofs.Memory.Calls

/-! # The parts of a table
A table is made of parts, one for each storage id: the bucket of the storage, if it is known, and its
prolongations. Whatever the store does about one storage is confined to the part of that storage. -/

namespace PathAcl.Memory

open PathAcl.Action (Confined)

variable {m m' : Memory} {id j : StorageId}

/-! ## Parts -/

/-- The **part** of a table that belongs to a storage. -/
def part (m : Memory) (id : StorageId) : Option Bucket × Option (SortedMap String Prolongation) :=
  (m.storages.find? id, m.prolonged.find? id)

/-- Tables with the same parts are equal. -/
theorem ext_part (h : ∀ id, m.part id = m'.part id) : m = m' := by
  have storages : m.storages = m'.storages := SortedMap.ext_find? fun id => congrArg Prod.fst (h id)
  have prolonged : m.prolonged = m'.prolonged :=
    SortedMap.ext_find? fun id => congrArg Prod.snd (h id)
  cases m
  cases m'
  simp only at storages prolonged
  rw [storages, prolonged]

/-- Tables that share a part have the same bucket there. -/
theorem find?_eq_of_part (same : m.part id = m'.part id) :
    m.storages.find? id = m'.storages.find? id := congrArg Prod.fst same

/-- They have the same prolongations there. -/
theorem prolonged_eq_of_part (same : m.part id = m'.part id) :
    m.prolonged.find? id = m'.prolonged.find? id := congrArg Prod.snd same

/-- A storage that becomes known, or has a new bucket, changes its own part. -/
theorem part_insert (m : Memory) (id : StorageId) (b : Bucket) (j : StorageId) :
    ({ m with storages := m.storages.insert id b } : Memory).part j =
      if j = id then (some b, (m.part id).2) else m.part j := by
  unfold part
  simp only [SortedMap.find?_insert]
  by_cases here : j = id
  · subst here
    simp only [if_true]
  · simp only [if_neg here]

/-- A new tree changes the part of its storage. -/
theorem part_setTree (m : Memory) (id : StorageId) (tree : PathTree) (j : StorageId) :
    (m.setTree id tree).part j =
      if j = id then ((m.part id).1.map fun b => { b with tree }, (m.part id).2) else m.part j := by
  unfold part setTree
  simp only [SortedMap.find?_modify]
  by_cases here : j = id
  · subst here
    simp only [if_true]
  · simp only [if_neg here]

/-! ## Steps -/

/-- A question is confined to a part if the part answers it. -/
theorem confined_query {α : Type} {op : Memory → Except StoreError α}
    (answered : ∀ m m', m.part id = m'.part id → op m = op m') : Confined part id (query op) :=
  .of_keeps (fun _ => rfl) answered

/-- So is a change that makes each part from the part that was there. -/
theorem confined_change {α : Type} {f : Memory → Memory} {x : α}
    (here : ∀ m m', m.part id = m'.part id → (f m).part id = (f m').part id)
    (others : ∀ m j, j ≠ id → (f m).part j = m.part j) :
    Confined part id (fun m => ⟨.ok x, f m, []⟩ : Action Memory StoreError α) :=
  ⟨fun _ _ _ => rfl, here, others⟩

/-- Looking the bucket up is confined to its storage. -/
theorem confined_bucket? (id : StorageId) : Confined part id (bucket? id) :=
  confined_query fun _ _ same => congrArg Except.ok (find?_eq_of_part same)

/-- So is putting a tree in its place. -/
theorem confined_putTree (id : StorageId) (tree : PathTree) : Confined part id (putTree id tree) := by
  apply confined_change
  · intro m m' same
    rw [part_setTree, part_setTree, same]
  · intro m j apart
    rw [part_setTree, if_neg apart]

/-- So is writing prolongations. -/
theorem confined_record (id : StorageId) (records : List Prolongation) :
    Confined part id (record id records) := by
  apply confined_change
  · intro m m' same
    simp only [part, SortedMap.find?_insert, if_pos, find?_eq_of_part same, prolonged_eq_of_part same]
  · intro m j apart
    simp only [part, SortedMap.find?_insert, if_neg apart]

/-- So is entering the storage. -/
theorem confined_enter (storage : StorageRef) : Confined part storage.id (enter storage) := by
  refine ⟨fun m m' same => ?_, fun m m' same => ?_, fun m j apart => ?_⟩
  · have found := find?_eq_of_part same
    cases known : m'.storages.find? storage.id with
    | none => rw [run_enter_of_unknown known, run_enter_of_unknown (found.trans known)]
    | some b => rw [run_enter_of_known known, run_enter_of_known (found.trans known)]
  · have found := find?_eq_of_part same
    cases known : m'.storages.find? storage.id with
    | none =>
        rw [run_enter_of_unknown known, run_enter_of_unknown (found.trans known)]
        simp only [part_insert, same]
    | some b =>
        rw [run_enter_of_known known, run_enter_of_known (found.trans known)]
        exact same
  · cases known : m.storages.find? storage.id with
    | none =>
        rw [run_enter_of_unknown known]
        simp only [part_insert, if_neg apart]
    | some b => rw [run_enter_of_known known]

/-! ## Operations -/

/-- **Whatever the store does about one storage is confined to the part of that storage.** -/
theorem confined_store (id : StorageId) : store.EachAt id fun a => Confined part id a where
  register kind := by
    have closed := Confined.closed part id
    refine closed.bind (closed.ofExcept _) fun _ => closed.bind (confined_bucket? id) fun b? => ?_
    cases b? with
    | none => exact closed.bind (confined_enter ⟨id, kind⟩) fun _ => closed.answer ()
    | some b => exact closed.ofExcept _
  kindOf := confined_query fun m m' same => by rw [kindOf, kindOf, find?_eq_of_part same]
  upsert kind rows := by
    have closed := Confined.closed part id
    refine closed.bind (closed.ofExcept _) fun _ => closed.bind (closed.ofExcept _) fun _ => ?_
    refine closed.bind (confined_enter ⟨id, kind⟩) fun b => closed.bind (closed.ofExcept _) fun _ => ?_
    refine closed.bind (confined_putTree id _) fun _ => ?_
    exact closed.bind (closed.log _) fun _ => closed.answer _
  delete keys := by
    have closed := Confined.closed part id
    refine closed.bind (closed.ofExcept _) fun _ => closed.bind (closed.ofExcept _) fun _ => ?_
    refine closed.bind (confined_bucket? id) fun b? => ?_
    cases b? with
    | none => exact closed.answer _
    | some b => exact closed.bind (confined_putTree id _) fun _ => closed.answer _
  load places := confined_query fun m m' same => by rw [load, load, find?_eq_of_part same]
  loadHeld places sids := confined_query fun m m' same => by
    rw [loadHeld, loadHeld, find?_eq_of_part same]
  deleteUnder roots := by
    have closed := Confined.closed part id
    refine closed.bind (closed.ofExcept _) fun _ => closed.bind (closed.ofExcept _) fun _ => ?_
    refine closed.bind (confined_bucket? id) fun b? => ?_
    cases b? with
    | none => exact closed.answer _
    | some b =>
        refine closed.bind (confined_putTree id _) fun _ => ?_
        exact closed.bind (closed.log _) fun _ => closed.answer _
  relocate source destination := by
    have closed := Confined.closed part id
    refine closed.bind (closed.ofExcept _) fun _ => closed.bind (closed.ofExcept _) fun _ => ?_
    refine closed.bind (closed.ofExcept _) fun _ => closed.bind (confined_bucket? id) fun b? => ?_
    cases b? with
    | none => exact closed.answer _
    | some b =>
        -- a move to a taken place fails before a tree is put
        by_cases taken : b.tree.isTaken destination = true
        · simp only [if_pos taken]
          exact closed.fail _
        · simp only [if_neg taken]
          refine closed.bind (confined_putTree id _) fun _ => ?_
          exact closed.bind (closed.log _) fun _ => closed.answer _
  prolong records := by
    have closed := Confined.closed part id
    refine closed.bind (closed.ofExcept _) fun _ => closed.bind (closed.ofExcept _) fun _ => ?_
    exact closed.bind (confined_record id _) fun _ => closed.answer _
  prolongationsAt paths := confined_query fun m m' same => by
    rw [prolongationsAt, prolongationsAt, prolonged_eq_of_part same]
  prolongations := confined_query fun m m' same => by
    rw [prolongations, prolongations, prolonged_eq_of_part same]

end PathAcl.Memory
