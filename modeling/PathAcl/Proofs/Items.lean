import Mathlib.Data.List.Forall2
import PathAcl.Proofs.Memory.Table

/-! # Lists read item by item
Reading a list reads its items in order and stops at the first that cannot be read. Whether it succeeds,
and what it gives, is told by the items one by one. -/

namespace PathAcl

open Memory (bind_eq_ok_iff)

variable {ε α β : Type} {f : α → Except ε β} {x : α} {xs : List α} {y : β} {ys : List β}

/-- A list is read as the list of what its items are read as. -/
theorem mapM_eq_ok_iff_forall₂ :
    xs.mapM f = .ok ys ↔ List.Forall₂ (fun x y => f x = .ok y) xs ys := by
  induction xs generalizing ys with
  | nil =>
      rw [List.forall₂_nil_left_iff]
      exact ⟨fun h => (Except.ok.inj h).symm, fun h => h ▸ rfl⟩
  | cons x xs ih =>
      rw [List.mapM_cons, bind_eq_ok_iff, List.forall₂_cons_left_iff]
      constructor
      · rintro ⟨y, first, h⟩
        obtain ⟨zs, later, h⟩ := bind_eq_ok_iff.1 h
        exact ⟨y, zs, first, ih.1 later, (Except.ok.inj h).symm⟩
      · rintro ⟨y, zs, first, later, rfl⟩
        exact ⟨y, first, bind_eq_ok_iff.2 ⟨zs, ih.2 later, rfl⟩⟩

/-- One item is read alone as it is in a list. -/
theorem mapM_singleton_eq_ok_iff : [x].mapM f = .ok ys ↔ ∃ y, f x = .ok y ∧ ys = [y] := by
  rw [mapM_eq_ok_iff_forall₂, List.forall₂_cons_left_iff]
  simp only [List.forall₂_nil_left_iff, exists_eq_left, exists_and_left]

/-- What was read is what some item is read as. -/
theorem mem_mapM_iff (h : xs.mapM f = .ok ys) : y ∈ ys ↔ ∃ x ∈ xs, f x = .ok y := by
  have each := mapM_eq_ok_iff_forall₂.1 h
  clear h
  induction each with
  | nil => simp
  | cons first later ih =>
      rw [List.mem_cons, List.exists_mem_cons_iff, first, Except.ok.injEq]
      exact or_congr eq_comm ih

/-- A list is not read just if one of its items is not. -/
theorem mapM_eq_error_iff : (∃ e, xs.mapM f = .error e) ↔ ∃ x ∈ xs, ∃ e, f x = .error e := by
  induction xs with
  | nil => exact iff_of_false nofun nofun
  | cons x xs ih =>
      rw [List.mapM_cons, List.exists_mem_cons_iff, ← ih]
      cases f x with
      | error e => exact iff_of_true ⟨e, rfl⟩ (.inl ⟨e, rfl⟩)
      | ok y =>
          cases xs.mapM f with
          | error e => exact iff_of_true ⟨e, rfl⟩ (.inr ⟨e, rfl⟩)
          | ok ys =>
              apply iff_of_false
              · rintro ⟨e, h⟩
                cases h
              · rintro (⟨e, h⟩ | ⟨e, h⟩) <;> cases h

/-- A list is read if each item is, and what holds of each that is read holds of all. -/
theorem exists_mapM_eq_ok {p : β → Prop} (each : ∀ x ∈ xs, ∃ y, f x = .ok y ∧ p y) :
    ∃ ys, xs.mapM f = .ok ys ∧ ∀ y ∈ ys, p y := by
  cases read : xs.mapM f with
  | error e =>
      obtain ⟨x, hx, e, failed⟩ := mapM_eq_error_iff.1 ⟨e, read⟩
      obtain ⟨y, taken, -⟩ := each x hx
      cases failed.symm.trans taken
  | ok ys =>
      refine ⟨ys, rfl, fun y hy => ?_⟩
      obtain ⟨x, hx, taken⟩ := (mem_mapM_iff read).1 hy
      obtain ⟨z, same, hz⟩ := each x hx
      rw [Except.ok.inj (taken.symm.trans same)]
      exact hz

end PathAcl
