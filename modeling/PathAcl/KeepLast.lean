/-! # Repeats in a batch
A batch may name one key several times. The last element that names it counts, and it stands where
the key first occurred. -/

namespace PathAcl

variable {α κ : Type} [DecidableEq κ]

/-- Puts `x` in the place of the element that shares its key; at the end if there is none. -/
def replaceOrAppend (key : α → κ) (x : α) : List α → List α
  | [] => [x]
  | y :: ys => if key y = key x then x :: ys else y :: replaceOrAppend key x ys

/-- The key takes a place at the end if it has none yet. -/
theorem map_key_replaceOrAppend (key : α → κ) (x : α) (xs : List α) :
    (replaceOrAppend key x xs).map key =
      if key x ∈ xs.map key then xs.map key else xs.map key ++ [key x] := by
  induction xs with
  | nil => simp [replaceOrAppend]
  | cons y ys ih =>
    simp only [replaceOrAppend]
    by_cases h : key y = key x
    · simp [h]
    · simp only [h, if_false, List.map_cons, ih, List.mem_cons, Ne.symm h, false_or]
      split <;> simp

/-- One element for each key, in the order in which the keys first occur: the last that has it. -/
def keepLast (key : α → κ) (xs : List α) : List α :=
  xs.foldl (fun kept x => replaceOrAppend key x kept) []

end PathAcl
