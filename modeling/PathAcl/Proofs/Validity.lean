import PathAcl.Proofs.KeepLast
import PathAcl.Proofs.Tree.Shape
import PathAcl.Store.Error

/-! # Accepted arguments
What the checks of a store, once passed, say of the arguments. -/

namespace PathAcl

namespace Validity

/-- Two checks in a row pass if both do. -/
theorem andThen_eq_ok_iff {ε : Type} {a b : Except ε Unit} :
    (a >>= fun _ => b) = .ok () ↔ a = .ok () ∧ b = .ok () := by
  cases a with
  | error e => exact iff_of_false nofun (fun h => nomatch h.1)
  | ok x => exact (and_iff_right rfl).symm

/-- Rewording a failure keeps the answers. -/
theorem mapError_eq_ok_iff {ε ζ α : Type} {f : ε → ζ} {a : Except ε α} {x : α} :
    a.mapError f = .ok x ↔ a = .ok x := by
  cases a with
  | error e => exact iff_of_false nofun nofun
  | ok y => exact ⟨fun h => congrArg Except.ok (Except.ok.inj h), fun h => h ▸ rfl⟩

/-- The positive storage ids are accepted. -/
theorem checkStorageId_eq_ok_iff {id : StorageId} : checkStorageId id = .ok () ↔ 0 < id := by
  rw [checkStorageId]
  by_cases h : id ≤ 0
  · rw [if_pos h]
    exact iff_of_false nofun (Int64.not_lt.2 h)
  · rw [if_neg h]
    exact iff_of_true rfl (Int64.not_le.1 h)

/-- The paths that may be stored are accepted. -/
theorem checkPath_eq_ok_iff {path : String} : checkPath path = .ok () ↔ Path.check path = .ok () := by
  rw [checkPath, mapError_eq_ok_iff]

/-- A list is accepted if all its elements are. -/
theorem checkAll_eq_ok_iff {α : Type} {check : α → Except Fault Unit} {xs : List α} :
    checkAll check xs = .ok () ↔ ∀ x ∈ xs, check x = .ok () := by
  induction xs with
  | nil => exact iff_of_true rfl fun x hx => absurd hx List.not_mem_nil
  | cons x xs ih => rw [checkAll, andThen_eq_ok_iff, ih, List.forall_mem_cons]

/-- An accepted row has a named path. -/
theorem isNamed_of_checkPermission {row : Permission} (h : checkPermission row = .ok ()) :
    Path.IsNamed row.path := by
  rw [checkPermission, andThen_eq_ok_iff, checkKey, andThen_eq_ok_iff] at h
  exact Path.isNamed_of_check (checkPath_eq_ok_iff.1 h.1.1)

/-- An accepted prolongation is of the storage it is offered to. -/
theorem storageId_of_checkProlongation {id : StorageId} {p : Prolongation}
    (h : checkProlongation id p = .ok ()) : p.storageId = id := by
  rw [checkProlongation] at h
  by_contra foreign
  rw [if_pos foreign] at h
  cases h

end Validity

/-- A path in normal form may be stored. -/
theorem Path.check_of_normalize {text path : String} (h : Path.normalize text = .ok path) :
    Path.check path = .ok () := by
  simp only [Path.normalize] at h
  split at h
  · cases h
  split at h
  · cases h
  split at h
  · cases h
  next unit checked =>
    obtain rfl := Except.ok.inj h
    exact checked

end PathAcl
