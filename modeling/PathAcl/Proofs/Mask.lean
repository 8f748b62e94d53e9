import Mathlib.Data.List.Basic
import PathAcl.Mask

/-! # Masks as sets of bits
A mask is told by its bits, one for each capability; masks are joined and cut bit by bit. -/

namespace PathAcl

namespace Mask

/-- A bit of a mask. -/
def bit (m : Mask) (i : Nat) : Bool := m.bits.toNat.testBit i

/-- No bit is set in the empty mask. -/
theorem bit_none (i : Nat) : Mask.none.bit i = false := Nat.zero_testBit i

/-- The bits of two masks together. -/
theorem bit_or (a b : Mask) (i : Nat) : (a ||| b).bit i = (a.bit i || b.bit i) := by
  rw [bit, or_bits, UInt32.toNat_or, Nat.testBit_or]
  rfl

/-- The bits that two masks share. -/
theorem bit_and (a b : Mask) (i : Nat) : (a &&& b).bit i = (a.bit i && b.bit i) := by
  rw [bit, and_bits, UInt32.toNat_and, Nat.testBit_and]
  rfl

/-- Masks with the same bits are equal. -/
theorem ext_bit {a b : Mask} (h : ∀ i, a.bit i = b.bit i) : a = b := by
  have bits : a.bits = b.bits := UInt32.toNat_inj.1 (Nat.eq_of_testBit_eq h)
  cases a
  cases b
  exact congrArg Mask.mk bits

/-- The bits of many masks together. -/
theorem bit_foldl_or {α : Type} (f : α → Mask) (xs : List α) (m : Mask) (i : Nat) :
    (xs.foldl (fun mask x => mask ||| f x) m).bit i = true ↔
      m.bit i = true ∨ ∃ x ∈ xs, (f x).bit i = true := by
  induction xs generalizing m with
  | nil => simp
  | cons x xs ih =>
      rw [List.foldl_cons, ih, bit_or, Bool.or_eq_true, or_assoc, List.exists_mem_cons_iff]

/-- Two families of masks that set the same bits make the same mask. -/
theorem foldl_or_congr {α β : Type} {f : α → Mask} {g : β → Mask} {xs : List α} {ys : List β}
    (h : ∀ i, (∃ x ∈ xs, (f x).bit i = true) ↔ ∃ y ∈ ys, (g y).bit i = true) :
    xs.foldl (fun mask x => mask ||| f x) .none = ys.foldl (fun mask y => mask ||| g y) .none := by
  refine ext_bit fun i => Bool.eq_iff_iff.2 ?_
  rw [bit_foldl_or, bit_foldl_or, h]

/-! ## Reading -/

/-- The capability to read is the first bit. -/
theorem bit_read (i : Nat) : Mask.read.bit i = decide (i = 0) := by
  unfold bit
  rw [show Mask.read.bits.toNat = 2 ^ 0 from rfl, Nat.testBit_two_pow]
  exact decide_eq_decide.2 eq_comm

/-- A mask lets read if the first bit is set. -/
theorem contains_read_iff (m : Mask) : m.contains .read = true ↔ m.bit 0 = true := by
  have first : ∀ i, (m &&& .read).bit i = (m.bit i && decide (i = 0)) := fun i => by
    rw [bit_and, bit_read]
  have contained : m.contains .read = true ↔ m &&& .read = .read := by
    rw [contains, beq_iff_eq]
    exact ⟨congrArg Mask.mk, congrArg Mask.bits⟩
  rw [contained]
  constructor
  · intro same
    have here := first 0
    rw [same, bit_read] at here
    simpa using here.symm
  · intro set
    refine ext_bit fun i => ?_
    rw [first, bit_read]
    by_cases zero : i = 0
    · simp [zero, set]
    · simp [zero]

/-- What lets read lets read still if more is added. -/
theorem or_read_of_contains {m : Mask} (h : m.contains .read = true) : m ||| .read = m := by
  refine ext_bit fun i => ?_
  rw [bit_or, bit_read]
  by_cases zero : i = 0
  · simp [zero, (contains_read_iff m).1 h]
  · simp [zero]

/-- Cutting a mask down to reading twice is cutting it once. -/
theorem and_read_and_read (m : Mask) : m &&& .read &&& .read = m &&& .read := by
  refine ext_bit fun i => ?_
  rw [bit_and, bit_and, Bool.and_assoc, Bool.and_self]

end Mask

end PathAcl
