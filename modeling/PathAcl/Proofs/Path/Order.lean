import Mathlib.Data.String.Basic
import PathAcl.Proofs.Path.Ancestors

/-! # Two orders of paths
As texts, paths are compared character by character, and it makes no difference whether the characters or
their bytes are looked at. Segment by segment, they are compared as texts are once the separator comes
before every other character. But as a character it does not: the hyphen and the full stop are among those
before it. The two orders cross where one path goes on with a separator and the other with one of these. -/

namespace PathAcl.Path

open Std (OrientedCmp ReflOrd compare_self)

/-! ## Lists with a common front -/

section Front

variable {α : Type} [Ord α] [ReflOrd α]

/-- A common front does not count. -/
theorem compare_append (under xs ys : List α) :
    compare (under ++ xs) (under ++ ys) = compare xs ys := by
  induction under with
  | nil => rfl
  | cons s under ih => simp [List.compare_cons_cons, compare_self, ih]

/-- A path comes before those beneath it. -/
theorem compare_prefix (under : List α) (s : α) (segs : List α) :
    compare under (under ++ s :: segs) = .lt := by
  have h := compare_append under [] (s :: segs)
  rwa [List.append_nil] at h

/-- The first segments that differ decide. -/
theorem compare_fork (under : List α) {s t : α} (h : compare s t = .lt) (xs ys : List α) :
    compare (under ++ s :: xs) (under ++ t :: ys) = .lt := by
  simp [compare_append, List.compare_cons_cons, h]

end Front

/-! ## Texts, characters and bytes -/

/-- Characters are compared by their code points. -/
theorem compare_char_of_lt {c d : Char} (h : c < d) : compare c d = .lt :=
  compareOfLessAndEq_eq_lt.2 h

/-- Lists of characters are compared character by character. -/
theorem compareOfLessAndEq_chars (xs ys : List Char) : compareOfLessAndEq xs ys = compare xs ys := by
  induction xs generalizing ys with
  | nil => cases ys <;> simp [compareOfLessAndEq]
  | cons x xs ih =>
      cases ys with
      | nil => simp [compareOfLessAndEq]
      | cons y ys =>
          have chars : compare x y = compareOfLessAndEq x y := rfl
          rw [List.compare_cons_cons, ← ih, chars]
          rcases lt_trichotomy x y with h | rfl | h
          · simp [compareOfLessAndEq, List.cons_lt_cons_iff, h]
          · simp [compareOfLessAndEq]
          · simp [compareOfLessAndEq, List.cons_lt_cons_iff, h.not_gt, h.ne']

/-- Texts are compared as their characters. -/
theorem compare_toList (p q : String) : compare p.toList q.toList = compare p q := by
  rw [← compareOfLessAndEq_chars]
  show _ = compareOfLessAndEq p q
  simp only [compareOfLessAndEq, String.lt_iff_toList_lt, String.toList_inj]

/-- The bytes of a text are those of its characters. -/
theorem bytes_eq_flatMap (p : String) : bytes p = p.toList.flatMap String.utf8EncodeChar := by
  obtain ⟨cs, rfl⟩ : ∃ cs, p = String.ofList cs := ⟨p.toList, String.ofList_toList.symm⟩
  simp [bytes, List.utf8Encode]

/-- Small numbers are ordered as the bytes they make. -/
theorem compare_byte {a b : Nat} (h : a < b) (small : b < 256) (xs ys : List UInt8) :
    compare (UInt8.ofNat a :: xs) (UInt8.ofNat b :: ys) = .lt := by
  have less : UInt8.ofNat a < UInt8.ofNat b := by
    rw [UInt8.lt_iff_toNat_lt, UInt8.toNat_ofNat_of_lt' (h.trans small),
      UInt8.toNat_ofNat_of_lt' small]
    exact h
  have first : compare (UInt8.ofNat a) (UInt8.ofNat b) = .lt := compareOfLessAndEq_eq_lt.2 less
  rw [List.compare_cons_cons, first]
  rfl

/-- A code **orders** the numbers below a bound if smaller ones come first, whatever follows. -/
def Orders (bound : Nat) (code : Nat → List UInt8) : Prop :=
  ∀ v w, v < w → w < bound → ∀ xs ys, compare (code v ++ xs) (code w ++ ys) = .lt

/-- A code of one byte does. -/
theorem orders_byte (m k : Nat) (small : m + k ≤ 256) :
    Orders m fun v => [UInt8.ofNat (v % m + k)] := by
  intro v w less bounded xs ys
  refine compare_byte ?_ ?_ xs ys <;> rw [Nat.mod_eq_of_lt bounded]
  · rw [Nat.mod_eq_of_lt (less.trans bounded)]
    omega
  · omega

/-- So does a code that goes on with a byte of six bits more. -/
theorem Orders.continued {bound : Nat} {code : Nat → List UInt8} (h : Orders bound code) :
    Orders (64 * bound) fun v => code (v / 64) ++ [UInt8.ofNat (v % 64 + 128)] := by
  intro v w less bounded xs ys
  simp only [List.append_assoc]
  rcases Nat.lt_or_ge (v / 64) (w / 64) with front | front
  · exact h _ _ front (by omega) _ _
  · have same : v / 64 = w / 64 := by omega
    rw [same, compare_append]
    exact compare_byte (by omega) (by omega) xs ys

/-- **An earlier character has earlier bytes**, whatever follows them. -/
theorem compare_utf8_of_lt {c d : Char} (h : c < d) (xs ys : List UInt8) :
    compare (String.utf8EncodeChar c ++ xs) (String.utf8EncodeChar d ++ ys) = .lt := by
  have less : c.val.toNat < d.val.toNat := h
  have top : d.val.toNat < 64 * (64 * (64 * 8)) := by rcases d.valid with h | h <;> omega
  have two := (orders_byte 32 192 (by omega)).continued
  have three := (orders_byte 16 224 (by omega)).continued.continued
  have four := (orders_byte 8 240 (by omega)).continued.continued.continued
  simp only [Nat.div_div_eq_div_mul, List.cons_append, List.nil_append] at two three four
  simp only [String.utf8EncodeChar]
  generalize c.val.toNat = v at less ⊢
  generalize d.val.toNat = w at less top ⊢
  -- a shorter code begins with a smaller byte, and codes of one length are ordered
  by_cases hv : v ≤ 127
  · rw [if_pos hv]
    split
    · exact compare_byte less (by omega) xs ys
    · split
      · exact compare_byte (by omega) (by omega) xs _
      · split <;> exact compare_byte (by omega) (by omega) xs _
  · rw [if_neg hv, if_neg (by omega : ¬ w ≤ 127)]
    by_cases hv : v ≤ 2047
    · rw [if_pos hv]
      split
      · exact two v w less (by omega) xs ys
      · split <;> exact compare_byte (by omega) (by omega) _ _
    · rw [if_neg hv, if_neg (by omega : ¬ w ≤ 2047)]
      by_cases hv : v ≤ 65535
      · rw [if_pos hv]
        split
        · exact three v w less (by omega) xs ys
        · exact compare_byte (by omega) (by omega) _ _
      · rw [if_neg hv, if_neg (by omega : ¬ w ≤ 65535)]
        exact four v w less top xs ys
/-- **Texts are compared as their bytes.** -/
theorem compare_bytes (p q : String) : compare (bytes p) (bytes q) = compare p q := by
  rw [← compare_toList, bytes_eq_flatMap, bytes_eq_flatMap]
  generalize p.toList = cs
  generalize q.toList = ds
  induction cs generalizing ds with
  | nil =>
      cases ds with
      | nil => rfl
      | cons d ds =>
          obtain ⟨b, code, hd⟩ := List.exists_cons_of_ne_nil (String.utf8EncodeChar_ne_nil (c := d))
          rw [List.flatMap_cons, hd]
          rfl
  | cons c cs ih =>
      cases ds with
      | nil =>
          obtain ⟨b, code, hc⟩ := List.exists_cons_of_ne_nil (String.utf8EncodeChar_ne_nil (c := c))
          rw [List.flatMap_cons, hc]
          rfl
      | cons d ds =>
          rw [List.flatMap_cons, List.flatMap_cons, List.compare_cons_cons]
          rcases lt_trichotomy c d with h | rfl | h
          · rw [compare_utf8_of_lt h, compare_char_of_lt h]
            rfl
          · rw [compare_append, ih, compare_self]
            rfl
          · rw [OrientedCmp.gt_iff_lt.2 (compare_utf8_of_lt h _ _),
              OrientedCmp.gt_iff_lt.2 (compare_char_of_lt h)]
            rfl

/-! ## Segments -/

/-- Compares characters, with the **separator first**. -/
def separatorFirst (c d : Char) : Ordering :=
  if c = d then .eq else if c = separator then .lt else if d = separator then .gt else compare c d

/-- Lists of texts are compared as lists of their characters. -/
theorem compare_map_ofList (xs ys : List (List Char)) :
    compare (xs.map String.ofList) (ys.map String.ofList) = compare xs ys := by
  induction xs generalizing ys with
  | nil => cases ys <;> rfl
  | cons x xs ih =>
      cases ys with
      | nil => rfl
      | cons y ys =>
          rw [List.map_cons, List.map_cons, List.compare_cons_cons, List.compare_cons_cons, ih,
            ← compare_toList, String.toList_ofList, String.toList_ofList]

/-- A character in front of both first segments is compared first. -/
theorem compare_modifyHead (c d : Char) {xs ys : List (List Char)} (hx : xs ≠ []) (hy : ys ≠ []) :
    compare (xs.modifyHead (c :: ·)) (ys.modifyHead (d :: ·)) =
      (compare c d).then (compare xs ys) := by
  obtain ⟨x, xs, rfl⟩ := List.exists_cons_of_ne_nil hx
  obtain ⟨y, ys, rfl⟩ := List.exists_cons_of_ne_nil hy
  simp only [List.modifyHead_cons, List.compare_cons_cons, Ordering.then_assoc]

/-- **Paths are compared segment by segment as texts with the separator first.** -/
theorem compare_segments (p q : String) :
    compare (segments p) (segments q) = List.compareLex separatorFirst p.toList q.toList := by
  rw [segments, segments, compare_map_ofList]
  generalize p.toList = cs
  generalize q.toList = ds
  induction cs generalizing ds with
  | nil =>
      cases ds with
      | nil => rfl
      | cons d ds =>
          obtain ⟨y, ys, split⟩ := List.exists_cons_of_ne_nil (List.splitOn_ne_nil separator ds)
          rw [List.splitOn_cons_eq_if_modifyHead, split]
          split <;> rfl
  | cons c cs ih =>
      obtain ⟨x, xs, hx⟩ := List.exists_cons_of_ne_nil (List.splitOn_ne_nil separator cs)
      cases ds with
      | nil =>
          rw [List.splitOn_cons_eq_if_modifyHead, hx]
          split <;> rfl
      | cons d ds =>
          obtain ⟨y, ys, hy⟩ := List.exists_cons_of_ne_nil (List.splitOn_ne_nil separator ds)
          rw [List.splitOn_cons_eq_if_modifyHead, List.splitOn_cons_eq_if_modifyHead,
            List.compareLex_cons_cons, ← ih]
          by_cases hc : c = separator <;> by_cases hd : d = separator
          · simp [hc, hd, separatorFirst, List.compare_cons_cons]
          · simp [hc, hd, hy, separatorFirst, List.compare_cons_cons, Ne.symm hd]
          · simp [hc, hd, hx, separatorFirst, List.compare_cons_cons]
          · -- neither ends its segment, so both are compared and both go on
            have first : separatorFirst c d = compare c d := by
              by_cases same : c = d
              · simp [separatorFirst, same, compare_self]
              · simp [separatorFirst, same, hc, hd]
            simp only [beq_iff_eq, hc, hd, if_false]
            rw [first, compare_modifyHead c d (List.splitOn_ne_nil _ _) (List.splitOn_ne_nil _ _)]

/-! ## Where the orders cross -/

/-- The orders **cross** at two paths if one goes on with a separator where the other goes on with a
character before it. -/
def Cross (p q : String) : Prop :=
  ∃ (root rest tail : String) (c : Char), c < separator ∧
    p = root ++ String.singleton separator ++ rest ∧ q = root ++ String.singleton c ++ tail

/-- Where the lists of their characters part. -/
theorem compareLex_cross {cs ds : List Char} :
    (List.compareLex separatorFirst cs ds = .lt ∧ compare cs ds = .gt) ↔
      ∃ root rest tail c, c < separator ∧ cs = root ++ separator :: rest ∧ ds = root ++ c :: tail := by
  constructor
  · rintro ⟨listed, text⟩
    induction cs generalizing ds with
    | nil => cases ds <;> cases text
    | cons c cs ih =>
        cases ds with
        | nil => cases listed
        | cons d ds =>
            rw [List.compareLex_cons_cons] at listed
            rw [List.compare_cons_cons] at text
            rcases lt_trichotomy c d with h | rfl | h
            · rw [compare_char_of_lt h] at text
              cases text
            · simp only [separatorFirst, if_pos, compare_self, Ordering.then] at listed text
              obtain ⟨root, rest, tail, c', before, rfl, rfl⟩ := ih listed text
              exact ⟨c :: root, rest, tail, c', before, rfl, rfl⟩
            · -- only a separator is listed before a smaller character
              by_cases hc : c = separator
              · subst hc
                exact ⟨[], cs, ds, d, h, rfl, rfl⟩
              · have later : separatorFirst c d = .gt := by
                  simp [separatorFirst, h.ne', hc, OrientedCmp.gt_iff_lt.2 (compare_char_of_lt h)]
                rw [later] at listed
                cases listed
  · rintro ⟨root, rest, tail, c, before, rfl, rfl⟩
    induction root with
    | nil =>
        have apart : separator ≠ c := before.ne'
        simp [List.compareLex_cons_cons, List.compare_cons_cons, separatorFirst, apart,
          OrientedCmp.gt_iff_lt.2 (compare_char_of_lt before)]
    | cons d root ih =>
        simpa [List.compareLex_cons_cons, List.compare_cons_cons, separatorFirst, compare_self]

/-- **The orders cross** just where a path comes first segment by segment and later as a text. -/
theorem cross_iff {p q : String} :
    Cross p q ↔ compare (segments p) (segments q) = .lt ∧ compare p q = .gt := by
  rw [compare_segments, ← compare_toList, compareLex_cross]
  constructor
  · rintro ⟨root, rest, tail, c, before, rfl, rfl⟩
    exact ⟨root.toList, rest.toList, tail.toList, c, before, by simp, by simp⟩
  · rintro ⟨root, rest, tail, c, before, hp, hq⟩
    refine ⟨String.ofList root, String.ofList rest, String.ofList tail, c, before, ?_, ?_⟩
    · apply String.toList_inj.1
      simp [hp]
    · apply String.toList_inj.1
      simp [hq]

end PathAcl.Path
