import PathAcl.Proofs.Tree.Shape

/-! # Trees as tables of grants
A node is read as a table: the grant it holds for a key at the end of a list of segments. Each
operation on nodes is one equation on this table, and the rest of the theory uses nothing else. -/

namespace PathAcl.Node

open Std

/-- The grant for a key at the end of the segments. -/
def grant? (n : Node) (segs : List String) (key : GrantKey) : Option Grant :=
  (n.find? segs).bind fun m => m.grants.find? key

@[simp] theorem grant?_nil (n : Node) (key : GrantKey) : n.grant? [] key = n.grants.find? key := rfl

theorem grant?_cons (n : Node) (s : String) (segs : List String) (key : GrantKey) :
    n.grant? (s :: segs) key = (n.beneath.find? s).bind fun child => child.grant? segs key := by
  rw [grant?, find?, Option.bind_assoc]
  rfl

/-- The segments lead to a node in two stages. -/
theorem find?_append (n : Node) (xs ys : List String) :
    n.find? (xs ++ ys) = (n.find? xs).bind (find? ys) := by
  induction xs generalizing n with
  | nil => rfl
  | cons x xs ih =>
      rw [List.cons_append, find?, find?, Option.bind_assoc]
      exact Option.bind_congr fun child _ => ih child

theorem grant?_append (n : Node) (xs ys : List String) (key : GrantKey) :
    n.grant? (xs ++ ys) key = (n.find? xs).bind fun m => m.grant? ys key := by
  rw [grant?, find?_append, Option.bind_assoc]
  rfl

/-- The bare node holds no grant. -/
@[simp] theorem grant?_empty (segs : List String) (key : GrantKey) :
    empty.grant? segs key = none := by
  cases segs <;> rfl

/-! ## Growing -/

/-- Under the end of an altered path stands what was put there. -/
theorem grant?_alter_append (f : Node → Node) (segs rest : List String) (n : Node)
    (key : GrantKey) :
    (n.alter f segs).grant? (segs ++ rest) key =
      (f ((n.find? segs).getD empty)).grant? rest key := by
  rw [grant?_append, find?_alter, Option.bind_some]

/-- An alteration concerns nothing but what is at or under the end of its path. -/
theorem grant?_alter_of_not_prefix (f : Node → Node) {segs place : List String}
    (h : ¬ segs <+: place) (n : Node) (key : GrantKey) :
    (n.alter f segs).grant? place key = n.grant? place key := by
  induction segs generalizing n place with
  | nil => exact absurd List.nil_prefix h
  | cons s segs ih =>
      cases place with
      | nil => rfl
      | cons t place =>
          -- the place leaves the path here, or further down under the same segment
          rw [alter, grant?_cons, grant?_cons, Forest.find?_insert]
          by_cases e : s = t
          · subst e
            have apart : ¬ segs <+: place := fun hp =>
              h (List.cons_prefix_cons.2 ⟨rfl, hp⟩)
            rw [if_pos rfl, Option.bind_some, ih apart]
            cases n.beneath.find? s with
            | none => rw [Option.getD_none, grant?_empty, Option.bind_none]
            | some child => rfl
          · rw [if_neg e]

/-! ## Shrinking -/

/-- What a settled node holds: the child answers at its segment, bare or not. -/
theorem WellFormed.grant?_settle {n : Node} (h : n.WellFormed) (s : String) (child : Node)
    (t : String) (segs : List String) (key : GrantKey) :
    (n.settle s child).grant? (t :: segs) key =
      if s = t then child.grant? segs key else n.grant? (t :: segs) key := by
  rw [grant?_cons, grant?_cons, Node.settle]
  by_cases bare : child.isEmpty = true
  -- a bare child is pruned, and the table does not show it: both hold no grant
  · rw [if_pos bare, isEmpty_iff.1 bare, Forest.WellFormed.find?_erase h, grant?_empty]
    by_cases e : s = t
    · rw [if_pos e, if_pos e, Option.bind_none]
    · rw [if_neg e, if_neg e]
  · rw [if_neg bare, Forest.find?_insert]
    by_cases e : s = t
    · rw [if_pos e, if_pos e, Option.bind_some]
    · rw [if_neg e, if_neg e]

/-- A grant is dropped exactly if it is there. -/
theorem dropGrant?_eq_none_iff {key : GrantKey} {segs : List String} {n : Node} :
    n.dropGrant? key segs = none ↔ n.grant? segs key = none := by
  induction segs generalizing n with
  | nil =>
      rw [dropGrant?, grant?_nil]
      cases h : n.grants.find? key <;> simp [SortedMap.contains, h]
  | cons s segs ih =>
      rw [dropGrant?, grant?_cons]
      cases hchild : n.beneath.find? s with
      | none => exact iff_of_true rfl rfl
      | some child =>
          rw [Option.bind_some, ← ih]
          cases hdrop : child.dropGrant? key segs with
          | none => simp [hdrop]
          | some left => simp [hdrop]

/-- Dropping a grant changes the table at that grant alone. -/
theorem WellFormed.grant?_dropGrant? {key : GrantKey} {segs : List String} {n left : Node}
    (h : n.WellFormed) (hd : n.dropGrant? key segs = some left) (place : List String)
    (k : GrantKey) :
    left.grant? place k = if place = segs ∧ k = key then none else n.grant? place k := by
  induction segs generalizing n left place with
  | nil =>
      rw [Node.dropGrant?] at hd
      split at hd
      · obtain rfl := Option.some.inj hd
        cases place with
        | nil => simp [SortedMap.find?_erase]
        | cons t place => simp [grant?_cons]
      · cases hd
  | cons s segs ih =>
      rw [Node.dropGrant?] at hd
      obtain ⟨child, hchild, hd⟩ := Option.bind_eq_some_iff.1 hd
      obtain ⟨rest, hrest, hd⟩ := Option.bind_eq_some_iff.1 hd
      obtain rfl := Option.some.inj hd
      cases place with
      | nil => simp [Node.settle]
      | cons t place =>
          rw [h.grant?_settle]
          by_cases e : s = t
          · subst e
            have below : child.WellFormed := (Forest.WellFormed.found h hchild).2.2
            rw [if_pos rfl, ih below hrest, grant?_cons, hchild, Option.bind_some]
            simp
          · rw [if_neg e, if_neg fun both => e (List.cons.inj both.1).1.symm]

/-- A node is taken out exactly if it is there, and it is the node the segments lead to. -/
theorem map_fst_takeOut? (segs : List String) (n : Node) :
    (n.takeOut? segs).map Prod.fst = n.find? segs := by
  induction segs generalizing n with
  | nil => rfl
  | cons s segs ih =>
      rw [takeOut?, find?]
      cases n.beneath.find? s with
      | none => rfl
      | some child =>
          rw [Option.bind_some, ← ih child]
          cases htake : child.takeOut? segs <;> simp [htake]

/-- Taking a node out changes the table at and under its path alone. -/
theorem WellFormed.grant?_takeOut? {segs : List String} {n taken left : Node} (h : n.WellFormed)
    (ht : n.takeOut? segs = some (taken, left)) (place : List String) (key : GrantKey) :
    left.grant? place key = if segs <+: place then none else n.grant? place key := by
  induction segs generalizing n left place with
  | nil =>
      obtain ⟨-, rfl⟩ := Prod.mk.inj (Option.some.inj ht)
      rw [if_pos List.nil_prefix, grant?_empty]
  | cons s segs ih =>
      rw [Node.takeOut?] at ht
      obtain ⟨child, hchild, ht⟩ := Option.bind_eq_some_iff.1 ht
      obtain ⟨⟨taken', rest⟩, hrest, ht⟩ := Option.bind_eq_some_iff.1 ht
      obtain ⟨rfl, rfl⟩ := Prod.mk.inj (Option.some.inj ht)
      cases place with
      | nil => simp [Node.settle]
      | cons t place =>
          rw [h.grant?_settle]
          by_cases e : s = t
          · subst e
            have below : child.WellFormed := (Forest.WellFormed.found h hchild).2.2
            rw [if_pos rfl, ih below hrest, grant?_cons, hchild, Option.bind_some]
            simp [List.cons_prefix_cons]
          · rw [if_neg e, if_neg fun hp => e (List.cons_prefix_cons.1 hp).1]

/-- A well-formed node that is not bare holds a grant somewhere. -/
theorem WellFormed.exists_grant {n : Node} (h : n.WellFormed) (inhabited : n.isEmpty = false) :
    ∃ segs key grant, n.grant? segs key = some grant := by
  obtain ⟨grants, beneath⟩ := n
  change beneath.WellFormed at h
  -- along the first children, of which none is bare, to a node that has grants of its own
  induction h generalizing grants with
  | nil =>
      obtain ⟨key, grant, held⟩ | ⟨s, child, hchild⟩ := isEmpty_eq_false_iff.1 inhabited
      · exact ⟨[], key, grant, held⟩
      · cases hchild
  | @cons s childGrants childBeneath rest _ _ childInhabited _ _ ih _ =>
      obtain ⟨segs, key, grant, hgrant⟩ := ih childGrants childInhabited
      refine ⟨s :: segs, key, grant, ?_⟩
      rw [grant?_cons, Forest.find?, if_pos rfl, Option.bind_some, hgrant]

end PathAcl.Node
