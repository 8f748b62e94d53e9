/-! # Sorted finite maps
A finite map is a list of bindings in strictly increasing key order. The order is part of the type,
so a map lists its keys sorted, two maps with the same bindings are equal, and no operation has to
be told that its argument is well formed. -/

namespace PathAcl

open Std

universe u v

variable {κ : Type u} {ν : Type v} [Ord κ]

namespace Bindings

/-- Keys increase strictly along the list. -/
def Increasing (bs : List (κ × ν)) : Prop := bs.Pairwise fun a b => compare a.1 b.1 = .lt

/-- The value bound to a key, scanning from the front. -/
def find? (k : κ) : List (κ × ν) → Option ν
  | [] => none
  | (j, v) :: rest => if compare k j = .eq then some v else find? k rest

/-- Binds a key: replaces its binding, or adds one where the key order wants it. -/
def insert (k : κ) (v : ν) : List (κ × ν) → List (κ × ν)
  | [] => [(k, v)]
  | (j, w) :: rest =>
    match compare k j with
    | .lt => (k, v) :: (j, w) :: rest
    | .eq => (k, v) :: rest
    | .gt => (j, w) :: insert k v rest

/-- Drops the binding of a key. -/
def erase (k : κ) (bs : List (κ × ν)) : List (κ × ν) := bs.filter fun b => compare k b.1 != .eq

theorem mem_insert {k : κ} {v : ν} {b : κ × ν} {bs : List (κ × ν)} (h : b ∈ insert k v bs) :
    b = (k, v) ∨ b ∈ bs := by
  induction bs with
  | nil => simpa [insert] using h
  | cons a rest ih =>
    simp only [insert] at h
    split at h <;> simp only [List.mem_cons] at h ⊢
    · exact h
    · exact h.imp_right .inr
    · rcases h with h | h
      · exact .inr (.inl h)
      · exact (ih h).imp_right .inr

theorem Increasing.insert [TransOrd κ] [LawfulEqOrd κ] {bs : List (κ × ν)}
    (h : Increasing bs) (k : κ) (v : ν) : Increasing (insert k v bs) := by
  induction bs with
  | nil => simp [Increasing, Bindings.insert]
  | cons a rest ih =>
    obtain ⟨ha, hr⟩ := List.pairwise_cons.1 h
    simp only [Bindings.insert]
    split
    next hk =>
      refine List.pairwise_cons.2 ⟨fun b hb => ?_, h⟩
      rcases List.mem_cons.1 hb with rfl | hb
      · exact hk
      · exact TransCmp.lt_trans hk (ha b hb)
    next hk => exact List.pairwise_cons.2 ⟨fun b hb => LawfulEqOrd.eq_of_compare hk ▸ ha b hb, hr⟩
    next hk =>
      refine List.pairwise_cons.2 ⟨fun b hb => ?_, ih hr⟩
      rcases mem_insert hb with rfl | hb
      · exact OrientedCmp.gt_iff_lt.1 hk
      · exact ha b hb

theorem Increasing.erase {bs : List (κ × ν)} (h : Increasing bs) (k : κ) :
    Increasing (erase k bs) :=
  List.Pairwise.filter _ h

section Laws

variable [LawfulEqOrd κ] [DecidableEq κ]

/-- The first binding answers for its own key, the others for every other key. -/
theorem find?_cons {k j : κ} {v : ν} {rest : List (κ × ν)} :
    find? k ((j, v) :: rest) = if k = j then some v else find? k rest := by
  by_cases h : k = j <;> simp [find?, h]

theorem find?_insert (k : κ) (v : ν) (bs : List (κ × ν)) (j : κ) :
    find? j (insert k v bs) = if j = k then some v else find? j bs := by
  induction bs with
  | nil => simp [insert, find?_cons, find?]
  | cons b rest ih =>
    obtain ⟨i, w⟩ := b
    simp only [insert]
    split
    next => exact find?_cons
    next hk =>
      obtain rfl := LawfulEqOrd.eq_of_compare hk
      by_cases h : j = k <;> simp [find?_cons, h]
    next hk =>
      simp only [find?_cons, ih]
      by_cases h : j = i
      · subst h
        have : j ≠ k := fun e => by subst e; simp at hk
        simp [this]
      · simp [h]

theorem find?_erase (k : κ) (bs : List (κ × ν)) (j : κ) :
    find? j (erase k bs) = if j = k then none else find? j bs := by
  induction bs with
  | nil => simp [erase, find?]
  | cons b rest ih =>
    simp only [erase] at ih ⊢
    by_cases hk : k = b.1
    · rw [List.filter_cons_of_neg (by simp [hk]), ih, find?_cons, hk]
      by_cases h : j = b.1 <;> simp [h]
    · rw [List.filter_cons_of_pos (by simp [hk]), find?_cons, find?_cons, ih]
      by_cases h : j = b.1
      · simp [h, Ne.symm hk]
      · simp [h]

/-- In increasing bindings a binding is found under its key. -/
theorem Increasing.find?_eq_some_iff {bs : List (κ × ν)} (h : Increasing bs) {k : κ} {v : ν} :
    find? k bs = some v ↔ (k, v) ∈ bs := by
  induction bs with
  | nil => simp [find?]
  | cons b rest ih =>
    obtain ⟨j, w⟩ := b
    obtain ⟨hj, hr⟩ := List.pairwise_cons.1 h
    rw [find?_cons, List.mem_cons]
    by_cases e : k = j
    · subst e
      have : (k, v) ∉ rest := fun m => by simpa using hj _ m
      simp [this, eq_comm]
    · simp [e, ih hr]

end Laws

end Bindings

/-- A **sorted map**: bindings in strictly increasing key order. -/
@[ext] structure SortedMap (κ : Type u) (ν : Type v) [Ord κ] where
  /-- The bindings, in key order. -/
  toList : List (κ × ν)
  /-- No key repeats and none is out of order. -/
  increasing : Bindings.Increasing toList

namespace SortedMap

instance [DecidableEq κ] [DecidableEq ν] : DecidableEq (SortedMap κ ν) := fun a b =>
  decidable_of_iff (a.toList = b.toList) ⟨SortedMap.ext, fun h => h ▸ rfl⟩

/-- The map without bindings. -/
def empty : SortedMap κ ν := ⟨[], List.Pairwise.nil⟩

instance : EmptyCollection (SortedMap κ ν) := ⟨empty⟩

instance : Inhabited (SortedMap κ ν) := ⟨empty⟩

/-- The value bound to `k`, if any. -/
def find? (m : SortedMap κ ν) (k : κ) : Option ν := Bindings.find? k m.toList

/-- Whether `k` is bound. -/
def contains (m : SortedMap κ ν) (k : κ) : Bool := (m.find? k).isSome

/-- The keys, in order. -/
def keys (m : SortedMap κ ν) : List κ := m.toList.map (·.1)

/-- The values, in the order of their keys. -/
def values (m : SortedMap κ ν) : List ν := m.toList.map (·.2)

/-- The number of bindings. -/
def size (m : SortedMap κ ν) : Nat := m.toList.length

/-- Whether nothing is bound. -/
def isEmpty (m : SortedMap κ ν) : Bool := m.toList.isEmpty

/-- Drops the binding of `k`. -/
def erase (m : SortedMap κ ν) (k : κ) : SortedMap κ ν :=
  ⟨Bindings.erase k m.toList, m.increasing.erase k⟩

variable [TransOrd κ] [LawfulEqOrd κ]

/-- Binds `k` to `v`, whatever it was bound to before. -/
def insert (m : SortedMap κ ν) (k : κ) (v : ν) : SortedMap κ ν :=
  ⟨Bindings.insert k v m.toList, m.increasing.insert k v⟩

/-- Binds `k` to what `f` makes of its present value; keeps the map if `k` is free. -/
def modify (m : SortedMap κ ν) (k : κ) (f : ν → ν) : SortedMap κ ν :=
  match m.find? k with
  | some v => m.insert k (f v)
  | none => m

variable [DecidableEq κ]

omit [TransOrd κ] [LawfulEqOrd κ] [DecidableEq κ] in
@[simp] theorem find?_empty (k : κ) : (∅ : SortedMap κ ν).find? k = none := rfl

theorem find?_insert (m : SortedMap κ ν) (k : κ) (v : ν) (j : κ) :
    (m.insert k v).find? j = if j = k then some v else m.find? j :=
  Bindings.find?_insert k v m.toList j

omit [TransOrd κ] in
theorem find?_erase (m : SortedMap κ ν) (k j : κ) :
    (m.erase k).find? j = if j = k then none else m.find? j :=
  Bindings.find?_erase k m.toList j

omit [TransOrd κ] in
/-- The map finds exactly its bindings. -/
theorem find?_eq_some_iff (m : SortedMap κ ν) {k : κ} {v : ν} :
    m.find? k = some v ↔ (k, v) ∈ m.toList :=
  m.increasing.find?_eq_some_iff

end SortedMap

/-- A **sorted set**: a sorted map without values. -/
abbrev SortedSet (κ : Type u) [Ord κ] : Type u := SortedMap κ PUnit

namespace SortedSet

/-- The members, in order. -/
def members (s : SortedSet κ) : List κ := SortedMap.keys s

/-- Sets are ordered by their members, as lists are. -/
instance : Ord (SortedSet κ) := ⟨compareOn members⟩

instance [TransOrd κ] : TransOrd (SortedSet κ) :=
  inferInstanceAs (TransCmp (compareOn (members (κ := κ))))

theorem members_injective {s t : SortedSet κ} (h : members s = members t) : s = t :=
  SortedMap.ext ((List.map_inj_right fun _ _ e => Prod.ext e rfl).1 h)

instance [LawfulEqOrd κ] : LawfulEqOrd (SortedSet κ) where
  compare_self := compare_self (α := List κ)
  eq_of_compare e := members_injective (LawfulEqOrd.eq_of_compare e)

variable [TransOrd κ] [LawfulEqOrd κ]

/-- Adds a member. -/
def add (s : SortedSet κ) (k : κ) : SortedSet κ := SortedMap.insert s k ⟨⟩

/-- The set of the elements of a list: sorted, each once. -/
def ofList (ks : List κ) : SortedSet κ := ks.foldl add ∅

/-- The members of either set. -/
def union (s t : SortedSet κ) : SortedSet κ := (members t).foldl add s

variable [DecidableEq κ]

omit [TransOrd κ] in
/-- The members are the keys that are found. -/
theorem mem_members_iff (s : SortedSet κ) {k : κ} :
    k ∈ members s ↔ SortedMap.find? s k = some ⟨⟩ := by
  rw [SortedMap.find?_eq_some_iff]
  simp only [members, SortedMap.keys, List.mem_map]
  exact ⟨fun ⟨_, h, e⟩ => e ▸ h, fun h => ⟨_, h, rfl⟩⟩

@[simp] theorem mem_members_add (s : SortedSet κ) (k j : κ) :
    j ∈ members (s.add k) ↔ j = k ∨ j ∈ members s := by
  simp only [mem_members_iff, add, SortedMap.find?_insert]
  by_cases h : j = k <;> simp [h]

@[simp] theorem mem_members_foldl_add (ks : List κ) (s : SortedSet κ) (j : κ) :
    j ∈ members (ks.foldl add s) ↔ j ∈ ks ∨ j ∈ members s := by
  induction ks generalizing s with
  | nil => simp
  | cons k ks ih => simp [ih, or_assoc, or_left_comm]

/-- The members of the set of a list are its elements. -/
@[simp] theorem mem_members_ofList (ks : List κ) (j : κ) : j ∈ members (ofList ks) ↔ j ∈ ks := by
  rw [ofList, mem_members_foldl_add]
  simp [members, SortedMap.keys, EmptyCollection.emptyCollection, SortedMap.empty]

@[simp] theorem mem_members_union (s t : SortedSet κ) (j : κ) :
    j ∈ members (s.union t) ↔ j ∈ members s ∨ j ∈ members t := by
  rw [union, mem_members_foldl_add, or_comm]

end SortedSet

end PathAcl
