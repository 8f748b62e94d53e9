import PathAcl.Proofs.Memory.Table
import PathAcl.Proofs.Store.Checks

/-! # What the table refuses
The table refuses a call for what is checked of its arguments, and for nothing else: what it does after
the checks may fail, but blames no argument. -/

namespace PathAcl.Memory

open PathAcl.Action

/-- In the table a refusal is told by the answer alone. -/
abbrev Refuses {α : Type} (check : Except Fault Unit) (a : Action Memory StoreError α) : Prop :=
  Action.Refuses (fun _ _ => True) check a

/-- A check of the table is made first. -/
theorem refuses_require {α : Type} {check rest : Except Fault Unit} {a : Action Memory StoreError α}
    (h : Refuses rest a) : Refuses (check >>= fun _ => rest)
      (.ofExcept (require check) >>= fun _ => a) :=
  .after_check (fun _ => trivial) fun _ => h

/-- An answer is harmless. -/
theorem harmless_answer {α : Type} (x : α) : Harmless (pure x : Action Memory StoreError α) :=
  harmless_of_answers (answers_pure x)

/-- So is a report. -/
theorem harmless_log (e : Event) : Harmless (.log e : Action Memory StoreError Unit) :=
  harmless_of_answers (answers_log e)

/-- So is a question that needs no check. -/
theorem harmless_query {α : Type} (f : Memory → α) :
    Harmless (query fun m => .ok (f m) : Action Memory StoreError α) :=
  harmless_of_answers fun m => ⟨f m, rfl⟩

/-- So is entering a storage. -/
theorem harmless_enter (storage : StorageRef) : Harmless (enter storage) := by
  refine harmless_of_answers fun m => ?_
  rw [Action.run, enter]
  cases m.storages.find? storage.id <;> exact ⟨_, rfl⟩

/-- So is a change of a tree. -/
theorem harmless_putTree (id : StorageId) (tree : PathTree) : Harmless (putTree id tree) :=
  harmless_of_answers fun _ => ⟨(), rfl⟩

/-- A storage of another kind is no fault of an argument. -/
theorem harmless_requireKind (storage : StorageRef) (kind : StorageKind) :
    Harmless (.ofExcept (requireKind storage kind) : Action Memory StoreError Unit) := by
  rw [requireKind]
  split
  · exact harmless_answer ()
  · intro m message failed
    cases failed

/-- A single check of the table, and nothing that blames an argument after it. -/
theorem refuses_checked {α : Type} {check : Except Fault Unit} {a : Action Memory StoreError α}
    (h : Harmless a) : Refuses check (.ofExcept (require check) >>= fun _ => a) :=
  .after_last_check (fun _ => trivial) h.refuses

/-- A look into the table makes its check first. -/
theorem refuses_query {α : Type} {check : Except Fault Unit} {op : Memory → Except StoreError α}
    (g : Memory → α) (answers : ∀ m, op m = (require check >>= fun _ => .ok (g m))) :
    Refuses check (query op) := by
  have same : query op = (.ofExcept (require check) >>= fun _ => query fun m => .ok (g m)) := by
    funext m
    rw [query, answers]
    cases check <;> rfl
  rw [same]
  exact refuses_checked (harmless_query g)

/-- Making a storage known. -/
theorem refuses_register (storage : StorageRef) :
    Refuses (Validity.checkStorageId storage.id) (store.register storage) := by
  refine refuses_checked (.bind (harmless_query _) fun known => ?_)
  split
  · exact harmless_requireKind _ _
  · exact .bind (harmless_enter storage) fun _ => harmless_answer ()

/-- Writing rows. -/
theorem refuses_upsert (storage : StorageRef) (rows : List Permission) :
    Refuses (Store.Call.upsert storage rows).check (store.upsert storage rows) := by
  refine refuses_require (refuses_checked ?_)
  refine .bind (harmless_enter storage) fun b => .bind (harmless_requireKind _ _) fun _ => ?_
  refine .bind (harmless_putTree _ _) fun _ => .bind (harmless_log _) fun _ => harmless_answer _

/-- Dropping rows. -/
theorem refuses_delete (id : StorageId) (keys : List PermissionKey) :
    Refuses (Store.Call.delete id keys).check (store.delete id keys) := by
  refine refuses_require (refuses_checked (.bind (harmless_query _) fun known => ?_))
  split
  · exact harmless_answer _
  · exact .bind (harmless_putTree _ _) fun _ => harmless_answer _

/-- Dropping subtrees. -/
theorem refuses_deleteUnder (id : StorageId) (roots : List PathRef) :
    Refuses (Store.Call.deleteUnder id roots).check (store.deleteUnder id roots) := by
  refine refuses_require (refuses_checked (.bind (harmless_query _) fun known => ?_))
  split
  · exact harmless_answer _
  · exact .bind (harmless_putTree _ _) fun _ => .bind (harmless_log _) fun _ => harmless_answer _

/-- Moving rows: an occupied destination is no fault of an argument. -/
theorem refuses_relocate (id : StorageId) (source destination : PathRef) :
    Refuses (Store.Call.relocate id source destination).check
      (store.relocate id source destination) := by
  refine refuses_require (refuses_require (refuses_checked (.bind (harmless_query _) fun known => ?_)))
  split
  · exact harmless_answer _
  · have occupied : Harmless (.fail (.destinationOccupied id destination.path) :
        Action Memory StoreError Nat) := by
      intro m message failed
      cases failed
    refine .ite _ occupied ?_
    exact .bind (harmless_putTree _ _) fun _ => .bind (harmless_log _) fun _ => harmless_answer _

/-- Writing prolongations. -/
theorem refuses_prolong (id : StorageId) (records : List Prolongation) :
    Refuses (Store.Call.prolong id records).check (store.prolong id records) :=
  refuses_require (refuses_checked
    (.bind (harmless_of_answers fun _ => ⟨(), rfl⟩) fun _ => harmless_answer _))

/-- Looking for prolongations of paths. -/
theorem refuses_prolongationsAt (id : StorageId) (paths : List String) :
    Refuses (Validity.checkStorageId id) (store.prolongationsAt id paths) :=
  refuses_query (fun m => paths.filterMap ((m.prolonged.find? id).getD ∅).find?) fun _ => rfl

/-- **The table refuses** a call by what is checked of it. -/
theorem refuses_act (c : Store.Call) : Refuses c.check (store.act c) := by
  cases c with
  | register storage => exact refuses_register storage
  | upsert storage rows => exact refuses_upsert storage rows
  | delete id keys => exact refuses_delete id keys
  | deleteUnder id roots => exact refuses_deleteUnder id roots
  | deleteUnderRoot id root => exact refuses_deleteUnder id [root]
  | relocate id source destination => exact refuses_relocate id source destination
  | prolong id records => exact refuses_prolong id records
  | prolongationsAt id paths => exact refuses_prolongationsAt id paths
  | prolongations id =>
      exact refuses_query (fun m => ((m.prolonged.find? id).getD ∅).values) fun _ => rfl
  | load id places =>
      refine refuses_query (fun m => ((m.storages.find? id).map
        fun b => places.flatMap b.tree.rowsAt).getD []) fun m => ?_
      rw [load]
      cases m.storages.find? id <;> rfl
  | loadHeld id places sids =>
      refine refuses_query (fun m => ((m.storages.find? id).map
        fun b => b.tree.rowsFor places sids).getD []) fun m => ?_
      rw [loadHeld]
      cases m.storages.find? id <;> rfl
  | kindOf id => exact (harmless_query _).refuses
  | storagesHolding sids => exact (harmless_query _).refuses
  | health => exact (harmless_query _).refuses
  | upsertOne storage row => exact Store.refuses_upsertOne (refuses_upsert storage [row])
  | prolongOne record =>
      exact Store.refuses_prolongOne (refuses_prolong record.storageId [record])
  | nearestProlongation id path =>
      exact Store.refuses_nearestProlongation (refuses_prolongationsAt id _)

end PathAcl.Memory
