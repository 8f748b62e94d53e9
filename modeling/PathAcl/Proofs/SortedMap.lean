import PathAcl.SortedMap

/-! # More on sorted maps
What the operations that are not plain writes do to a look-up, and when two maps or two sets are
one. -/

namespace PathAcl

open Std

universe u v w

variable {κ : Type u} {ν : Type v} [Ord κ] [LawfulEqOrd κ] [DecidableEq κ]

/-- A known key is bound to what the change makes of its value. -/
theorem SortedMap.find?_modify [TransOrd κ] (m : SortedMap κ ν) (k : κ) (f : ν → ν) (j : κ) :
    (m.modify k f).find? j = if j = k then (m.find? k).map f else m.find? j := by
  rw [modify]
  cases h : m.find? k with
  | none =>
      by_cases e : j = k
      · rw [if_pos e, e]
        exact h
      · rw [if_neg e]
  | some v => exact m.find?_insert k (f v) j

/-- A map filled key by key binds each key of the list to its value. -/
theorem SortedMap.find?_foldl_insert [TransOrd κ] (f : κ → ν) (ks : List κ) (m : SortedMap κ ν)
    (j : κ) :
    (ks.foldl (fun m k => m.insert k (f k)) m).find? j =
      if j ∈ ks then some (f j) else m.find? j := by
  induction ks generalizing m with
  | nil => rfl
  | cons k ks ih =>
      rw [List.foldl_cons, ih, SortedMap.find?_insert]
      simp only [List.mem_cons]
      by_cases later : j ∈ ks
      · simp [later]
      · by_cases here : j = k <;> simp [later, here]

/-- A map filled from a list binds each key to the value of the last element that has it. -/
theorem SortedMap.find?_foldl_insert_last [TransOrd κ] {α : Type w} (key : α → κ) (value : α → ν)
    (xs : List α) (m : SortedMap κ ν) (k : κ) :
    (xs.foldl (fun m x => m.insert (key x) (value x)) m).find? k =
      ((xs.reverse.find? fun x => key x = k).map value).or (m.find? k) := by
  induction xs generalizing m with
  | nil => rfl
  | cons x xs ih =>
      rw [List.foldl_cons, ih, List.reverse_cons, List.find?_append, Option.map_or, Option.or_assoc,
        SortedMap.find?_insert]
      by_cases here : k = key x
      · simp [here]
      · simp [here, Ne.symm here]

namespace SortedMap

omit [DecidableEq κ] in
/-- No binding is listed twice. -/
theorem nodup_toList (m : SortedMap κ ν) : m.toList.Nodup := by
  refine m.increasing.imp fun {a b} less e => ?_
  subst e
  rw [compare_self] at less
  cases less

/-- **Maps that find the same are equal.** -/
theorem ext_find? [TransOrd κ] {m m' : SortedMap κ ν} (h : ∀ k, m.find? k = m'.find? k) :
    m = m' := by
  have perm : m.toList.Perm m'.toList := by
    rw [List.perm_ext_iff_of_nodup m.nodup_toList m'.nodup_toList]
    rintro ⟨k, v⟩
    rw [← m.find?_eq_some_iff, ← m'.find?_eq_some_iff, h k]
  refine SortedMap.ext (perm.eq_of_pairwise ?_ m.increasing m'.increasing)
  intro a b _ _ hab hba
  -- two keys cannot both come first
  have after : compare a.1 b.1 = .gt := OrientedCmp.gt_iff_lt.2 hba
  rw [hab] at after
  cases after

/-- A key that is bound twice is bound to the later value. -/
theorem insert_insert [TransOrd κ] (m : SortedMap κ ν) (k : κ) (v w : ν) :
    (m.insert k v).insert k w = m.insert k w := by
  refine ext_find? fun j => ?_
  rw [find?_insert, find?_insert, find?_insert]
  by_cases e : j = k
  · rw [if_pos e, if_pos e]
  · rw [if_neg e, if_neg e, if_neg e]

/-- Different keys are bound in either order. -/
theorem insert_comm [TransOrd κ] (m : SortedMap κ ν) {k l : κ} (apart : k ≠ l) (v w : ν) :
    (m.insert k v).insert l w = (m.insert l w).insert k v := by
  refine ext_find? fun j => ?_
  rw [find?_insert, find?_insert, find?_insert, find?_insert]
  by_cases e : j = k
  · have other : j ≠ l := e ▸ apart
    rw [if_neg other, if_pos e, if_pos e]
  · rw [if_neg e, if_neg e]

/-- Binding a key and changing its value binds it to the changed value. -/
theorem modify_insert [TransOrd κ] (m : SortedMap κ ν) (k : κ) (v : ν) (f : ν → ν) :
    (m.insert k v).modify k f = m.insert k (f v) := by
  refine ext_find? fun j => ?_
  rw [find?_modify, find?_insert, find?_insert, find?_insert, if_pos rfl]
  by_cases e : j = k
  · rw [if_pos e, if_pos e]
    rfl
  · rw [if_neg e, if_neg e, if_neg e]

end SortedMap

namespace SortedSet

/-- An erased set has the other members. -/
theorem mem_members_erase (s : SortedSet κ) (k j : κ) :
    j ∈ members (SortedMap.erase s k) ↔ j ≠ k ∧ j ∈ members s := by
  rw [mem_members_iff, mem_members_iff, SortedMap.find?_erase]
  by_cases e : j = k
  · rw [if_pos e]
    exact iff_of_false nofun fun both => both.1 e
  · rw [if_neg e]
    exact (and_iff_right e).symm

/-- The set contains its members. -/
theorem contains_iff (s : SortedSet κ) {k : κ} : SortedMap.contains s k = true ↔ k ∈ members s := by
  rw [mem_members_iff, SortedMap.contains]
  cases SortedMap.find? s k with
  | none => exact iff_of_false Bool.false_ne_true (Option.some_ne_none _).symm
  | some _ => exact iff_of_true rfl rfl

omit [LawfulEqOrd κ] [DecidableEq κ] in
/-- The empty set is the one without members. -/
theorem isEmpty_iff (s : SortedSet κ) : SortedMap.isEmpty s = true ↔ members s = [] := by
  rw [SortedMap.isEmpty, List.isEmpty_iff, members, SortedMap.keys, List.map_eq_nil_iff]

/-- The set of a list has members unless the list is empty. -/
theorem members_ofList_eq_nil_iff [TransOrd κ] {ks : List κ} : members (ofList ks) = [] ↔ ks = [] := by
  simp only [List.eq_nil_iff_forall_not_mem, mem_members_ofList]

/-- Sets with the same members are equal. -/
theorem ext_mem [TransOrd κ] {s t : SortedSet κ} (h : ∀ k, k ∈ members s ↔ k ∈ members t) :
    s = t := by
  refine SortedMap.ext_find? fun k => Option.ext fun u => ?_
  cases u
  exact (mem_members_iff s).symm.trans ((h k).trans (mem_members_iff t))

/-- The members of a set give the set. -/
theorem ofList_members [TransOrd κ] (s : SortedSet κ) : ofList (members s) = s :=
  ext_mem fun k => mem_members_ofList _ k

omit [LawfulEqOrd κ] [DecidableEq κ] in
/-- The members increase. -/
theorem pairwise_members (s : SortedSet κ) :
    (members s).Pairwise fun a b => compare a b = .lt :=
  List.pairwise_map.2 s.increasing

end SortedSet

end PathAcl
