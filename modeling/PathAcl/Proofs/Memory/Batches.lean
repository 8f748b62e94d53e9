import PathAcl.Proofs.Memory.Table

/-! # Batches on one tree
A batch of rows, keys or roots is worked off one after the other. What is left is the listing without
what was dropped, or with what was written. -/

namespace PathAcl

open Std

variable {t : PathTree}

/-- A tree is **sound** if it is well formed and its counters are right. -/
structure PathTree.Sound (t : PathTree) : Prop where
  wellFormed : t.WellFormed
  counted : t.Counted

/-- The tree without rows is sound. -/
theorem PathTree.sound_empty : (∅ : PathTree).Sound := ⟨wellFormed_empty, counted_empty⟩

/-! ## Dropping keys -/

/-- Dropping keys keeps whatever a removal keeps. -/
theorem Memory.dropKeys_keeps {p : PathTree → Prop}
    (step : ∀ t key left, p t → t.remove? key = some left → p left) (h : p t)
    (keys : List PermissionKey) : p (dropKeys keys t).2 := by
  induction keys generalizing t with
  | nil => exact h
  | cons key keys ih =>
      rw [dropKeys]
      cases hr : t.remove? key with
      | none => exact ih h
      | some left => exact ih (step t key left h hr)

/-- Dropping keys keeps a tree well formed. -/
theorem PathTree.WellFormed.dropKeys (h : t.WellFormed) (keys : List PermissionKey) :
    (Memory.dropKeys keys t).2.WellFormed :=
  Memory.dropKeys_keeps (fun _ _ _ h hr => h.remove? hr) h keys

/-- Dropping keys keeps a tree sound. -/
theorem PathTree.Sound.dropKeys (h : t.Sound) (keys : List PermissionKey) :
    (Memory.dropKeys keys t).2.Sound :=
  Memory.dropKeys_keeps
    (fun _ _ _ h hr => ⟨h.wellFormed.remove? hr, h.counted.remove? h.wellFormed hr⟩) h keys

/-- A removal leaves the rows of all other keys. -/
theorem Memory.mem_rows_remove? (h : t.WellFormed) {key : PermissionKey} {left : PathTree}
    (hr : t.remove? key = some left) {row : Permission} :
    row ∈ left.rows ↔ row ∈ t.rows ∧ row.key ≠ key := by
  rw [(h.remove? hr).mem_rows, h.grant?_remove? hr, h.mem_rows]
  by_cases e : row.key = key
  · rw [if_pos e]
    exact iff_of_false nofun fun both => both.2 e
  · rw [if_neg e]
    exact (and_iff_left e).symm

/-- The rows that are left are those whose keys were not dropped. -/
theorem Memory.mem_rows_dropKeys (h : t.WellFormed) (keys : List PermissionKey) {row : Permission} :
    row ∈ (dropKeys keys t).2.rows ↔ row ∈ t.rows ∧ row.key ∉ (dropKeys keys t).1 := by
  induction keys generalizing t with
  | nil => exact (and_iff_left List.not_mem_nil).symm
  | cons key keys ih =>
      rw [dropKeys]
      cases hr : t.remove? key with
      | none => exact ih h
      | some left =>
          refine (ih (h.remove? hr)).trans ?_
          rw [mem_rows_remove? h hr, List.mem_cons, not_or, and_assoc]

/-- Dropping keys empties the table at these keys alone. -/
theorem PathTree.WellFormed.grant?_dropKeys (h : t.WellFormed) (keys : List PermissionKey)
    (k : PermissionKey) :
    (Memory.dropKeys keys t).2.grant? k = if k ∈ keys then none else t.grant? k := by
  induction keys generalizing t with
  | nil => exact (if_neg List.not_mem_nil).symm
  | cons key keys ih =>
      rw [Memory.dropKeys]
      cases hr : t.remove? key with
      | none =>
          refine (ih h).trans ?_
          by_cases e : k = key
          · rw [e, remove?_eq_none_iff.1 hr, ite_self, ite_self]
          · simp only [List.mem_cons, e, false_or]
      | some left =>
          refine (ih (h.remove? hr)).trans ?_
          rw [h.grant?_remove? hr]
          by_cases e : k = key
          · simp only [e, List.mem_cons, true_or, if_true, ite_self]
          · simp only [List.mem_cons, e, false_or, if_false]

/-- The keys that are dropped are those that held a grant, each where it first occurs. -/
theorem PathTree.WellFormed.dropKeys_fst (h : t.WellFormed) (keys : List PermissionKey) :
    (Memory.dropKeys keys t).1 = (keys.filter fun k => (t.grant? k).isSome).eraseDups := by
  induction keys generalizing t with
  | nil => rfl
  | cons key keys ih =>
      rw [Memory.dropKeys]
      cases hr : t.remove? key with
      | none =>
          rw [List.filter_cons_of_neg (by rw [remove?_eq_none_iff.1 hr]; exact Bool.false_ne_true)]
          exact ih h
      | some left =>
          have held : (t.grant? key).isSome = true := by
            rw [Option.isSome_iff_ne_none]
            intro free
            rw [remove?_eq_none_iff.2 free] at hr
            cases hr
          have found : (key :: keys).filter (fun k => (t.grant? k).isSome) =
              key :: keys.filter fun k => (t.grant? k).isSome := List.filter_cons_of_pos held
          rw [found, List.eraseDups_cons, List.filter_filter]
          refine congrArg (key :: ·) ((ih (h.remove? hr)).trans (congrArg List.eraseDups ?_))
          -- once it is dropped a key is not found again
          refine List.filter_congr fun k _ => ?_
          rw [h.grant?_remove? hr]
          by_cases e : k = key
          · simp [e]
          · simp [e]

/-! ## Dropping subtrees -/

/-- Dropping what roots govern keeps whatever taking one of them out keeps. -/
theorem Memory.dropTrees_keeps {p : PathTree → Prop}
    (step : ∀ t root, p t → p (t.takeUnder root).2) (h : p t) (roots : List PathRef) :
    p (dropTrees roots t).2 := by
  induction roots generalizing t with
  | nil => exact h
  | cons root roots ih => exact ih (step t root h)

/-- Dropping what roots govern keeps a tree well formed. -/
theorem PathTree.WellFormed.dropTrees (h : t.WellFormed) (roots : List PathRef) :
    (Memory.dropTrees roots t).2.WellFormed :=
  Memory.dropTrees_keeps (fun _ root h => (h.takeUnder root).1) h roots

/-- Dropping what roots govern keeps a tree sound. -/
theorem PathTree.Sound.dropTrees (h : t.Sound) (roots : List PathRef) :
    (Memory.dropTrees roots t).2.Sound :=
  Memory.dropTrees_keeps
    (fun _ root h => ⟨(h.wellFormed.takeUnder root).1, h.counted.takeUnder h.wellFormed root⟩) h roots

/-- The rows that are left are those that were not dropped. -/
theorem Memory.mem_rows_dropTrees (h : t.WellFormed) (roots : List PathRef) {row : Permission} :
    row ∈ (dropTrees roots t).2.rows ↔ row ∈ t.rows ∧ row ∉ (dropTrees roots t).1 := by
  induction roots generalizing t with
  | nil => exact (and_iff_left List.not_mem_nil).symm
  | cons root roots ih =>
      have left : row ∈ (t.takeUnder root).2.rows ↔
          row ∈ t.rows ∧ row ∉ (t.takeUnder root).1 := by
        rw [(h.rows_takeUnder_perm root).mem_iff, List.mem_filter, h.mem_takeUnder,
          Bool.not_eq_true']
        constructor
        · rintro ⟨hrow, outside⟩
          refine ⟨hrow, fun taken => ?_⟩
          rw [outside] at taken
          cases taken.2
        · rintro ⟨hrow, untaken⟩
          refine ⟨hrow, ?_⟩
          rw [← Bool.not_eq_true]
          exact fun governed => untaken ⟨hrow, governed⟩
      rw [dropTrees]
      refine (ih (h.takeUnder root).1).trans ?_
      rw [left, List.mem_append, not_or, and_assoc]

/-! ## Writing rows -/

/-- Writing accepted rows keeps a tree sound. -/
theorem PathTree.Sound.upsertAll (h : t.Sound) {rows : List Permission}
    (hp : ∀ row ∈ rows, Path.IsNamed row.path) : (rows.foldl PathTree.upsert t).Sound :=
  ⟨h.wellFormed.foldl_upsert hp, h.counted.foldl_upsert h.wellFormed hp⟩

/-- Writing accepted rows does not make a listing shorter. -/
theorem PathTree.Sound.length_le_upsertAll (h : t.Sound) {rows : List Permission}
    (hp : ∀ row ∈ rows, Path.IsNamed row.path) :
    t.rows.length ≤ (rows.foldl PathTree.upsert t).rows.length := by
  induction rows generalizing t with
  | nil => exact Nat.le_refl _
  | cons row rows ih =>
      have named : Path.IsNamed row.path := hp row List.mem_cons_self
      have later := fun r hr => hp r (List.mem_cons_of_mem row hr)
      have next : (t.upsert row).Sound :=
        ⟨h.wellFormed.upsert named, h.counted.upsert h.wellFormed named⟩
      refine Nat.le_trans ?_ (ih next later)
      rw [← List.length_map Permission.key, ← List.length_map Permission.key]
      cases hg : t.grant? row.key with
      | some grant =>
          have there : (t.grant? row.key).isSome = true := by rw [hg]; rfl
          exact Nat.le_of_eq (h.wellFormed.keys_upsert_perm_of_isSome named there).length_eq.symm
      | none =>
          rw [(h.wellFormed.keys_upsert_perm_of_eq_none named hg).length_eq]
          exact Nat.le_succ _

/-! ## Moving rows -/

/-- A move to a free destination that buries nothing keeps a tree sound. -/
theorem PathTree.Sound.relocate (h : t.Sound) {source destination : PathRef}
    (hd : Path.check destination.path = .ok ()) (free : t.isTaken destination = false)
    (shallow : ¬ source.Buries destination t.rows) : (t.relocate source destination).2.Sound :=
  have named := Path.isNamed_of_check hd
  ⟨h.wellFormed.relocate source named, h.counted.relocate h.wellFormed named free shallow⟩

/-- A move to a free destination keeps the number of rows exactly if it buries nothing. -/
theorem PathTree.Sound.length_relocate_iff (h : t.Sound) {source destination : PathRef}
    (hd : Path.check destination.path = .ok ()) (free : t.isTaken destination = false) :
    t.rows.length ≤ (t.relocate source destination).2.rows.length ↔
      ¬ source.Buries destination t.rows := by
  have named := Path.isNamed_of_check hd
  constructor
  · intro hle buries
    exact absurd hle (Nat.not_le.2 (h.wellFormed.length_rows_relocate_lt named buries))
  · intro shallow
    have same := (h.wellFormed.rows_relocate_perm named free shallow).length_eq
    rw [List.length_map] at same
    exact Nat.le_of_eq same.symm

end PathAcl
