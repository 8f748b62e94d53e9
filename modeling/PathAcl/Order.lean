/-! # Lexicographic orders
Records are ordered by their fields in turn. Two records that compare equal in every field are equal
once the fields determine the record, which is what the sorted maps need of their keys. -/

namespace PathAcl.Order

open Std

variable {α β γ δ : Type} [Ord β] [Ord γ] [Ord δ]

/-- Compares by one field, then by another. -/
def byTwo (f : α → β) (g : α → γ) : α → α → Ordering := compareLex (compareOn f) (compareOn g)

/-- Compares by three fields in turn. -/
def byThree (f : α → β) (g : α → γ) (h : α → δ) : α → α → Ordering :=
  compareLex (compareOn f) (byTwo g h)

theorem byTwo_eq_eq {f : α → β} {g : α → γ} {a b : α} :
    byTwo f g a b = .eq ↔ compare (f a) (f b) = .eq ∧ compare (g a) (g b) = .eq := by
  simp [byTwo, compareLex, compareOn, Ordering.then_eq_eq]

theorem byThree_eq_eq {f : α → β} {g : α → γ} {h : α → δ} {a b : α} :
    byThree f g h a b = .eq ↔
      compare (f a) (f b) = .eq ∧ compare (g a) (g b) = .eq ∧ compare (h a) (h b) = .eq := by
  simp [byThree, byTwo, compareLex, compareOn, Ordering.then_eq_eq]

instance [TransOrd β] [TransOrd γ] {f : α → β} {g : α → γ} : TransCmp (byTwo f g) :=
  inferInstanceAs (TransCmp (compareLex (compareOn f) (compareOn g)))

instance [TransOrd β] [TransOrd γ] [TransOrd δ] {f : α → β} {g : α → γ} {h : α → δ} :
    TransCmp (byThree f g h) :=
  inferInstanceAs (TransCmp (compareLex (compareOn f) (byTwo g h)))

/-- Two fields that determine the record make equality of the order equality of records. -/
theorem lawfulEq_byTwo [LawfulEqOrd β] [LawfulEqOrd γ] {f : α → β} {g : α → γ}
    (h : ∀ a b, f a = f b → g a = g b → a = b) : LawfulEqCmp (byTwo f g) where
  compare_self := byTwo_eq_eq.2 ⟨compare_self, compare_self⟩
  eq_of_compare e :=
    let ⟨e₁, e₂⟩ := byTwo_eq_eq.1 e
    h _ _ (LawfulEqOrd.eq_of_compare e₁) (LawfulEqOrd.eq_of_compare e₂)

/-- Three fields that determine the record make equality of the order equality of records. -/
theorem lawfulEq_byThree [LawfulEqOrd β] [LawfulEqOrd γ] [LawfulEqOrd δ] {f : α → β} {g : α → γ}
    {k : α → δ} (h : ∀ a b, f a = f b → g a = g b → k a = k b → a = b) :
    LawfulEqCmp (byThree f g k) where
  compare_self := byThree_eq_eq.2 ⟨compare_self, compare_self, compare_self⟩
  eq_of_compare e :=
    let ⟨e₁, e₂, e₃⟩ := byThree_eq_eq.1 e
    h _ _ (LawfulEqOrd.eq_of_compare e₁) (LawfulEqOrd.eq_of_compare e₂)
      (LawfulEqOrd.eq_of_compare e₃)

/-- One field that determines the record makes equality of the order equality of records. -/
theorem lawfulEq_on [LawfulEqOrd β] {f : α → β} (h : ∀ a b, f a = f b → a = b) :
    LawfulEqCmp (compareOn f) where
  compare_self := compare_self
  eq_of_compare e := h _ _ (LawfulEqOrd.eq_of_compare e)

end PathAcl.Order

namespace PathAcl

/-- The list in ascending order; elements that compare equal keep their order. -/
def sorted {α : Type} [Ord α] (xs : List α) : List α := xs.mergeSort fun a b => (compare a b).isLE

end PathAcl
