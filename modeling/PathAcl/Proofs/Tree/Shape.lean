import Mathlib.Tactic.ByContra
import PathAcl.Proofs.Path.Segments
import PathAcl.Tree

/-! # The shape of path trees
A forest is well formed if its segments are names in increasing order and none of its nodes is bare.
Every operation on nodes keeps this shape: growing puts a grant at the end of a path, and whatever
takes grants away prunes the nodes it empties on its way back. -/

namespace PathAcl

open Std

/-- A **name** is a text that stands as one segment of a stored path: not empty, no separator. -/
def Path.IsName (s : String) : Prop := s ≠ "" ∧ Path.IsSegment s

/-- A path is **named** if all its segments are names. -/
def Path.IsNamed (path : String) : Prop := ∀ s ∈ Path.segments path, Path.IsName s

/-- A path that may be stored is named. -/
theorem Path.isNamed_of_check {path : String} (h : Path.check path = .ok ()) :
    Path.IsNamed path := by
  rw [Path.check] at h
  split at h
  · cases h
  split at h
  · cases h
  split at h
  · cases h
  next full =>
    intro s hs
    refine ⟨?_, Path.isSegment_of_mem_segments hs⟩
    rintro rfl
    exact full (List.any_eq_true.2 ⟨"", hs, beq_self_eq_true ""⟩)

namespace Forest

/-- The segments at the top of a forest, in order. -/
def segments : Forest → List String
  | nil => []
  | cons s _ _ rest => s :: rest.segments

/-- **Well-formed** forests: names in increasing order, and no node that is bare. -/
inductive WellFormed : Forest → Prop
  | nil : WellFormed nil
  | cons {s : String} {grants : Grants} {beneath rest : Forest} (name : Path.IsName s)
      (first : ∀ t ∈ rest.segments, compare s t = .lt)
      (inhabited : (Node.mk grants beneath).isEmpty = false) (below : beneath.WellFormed)
      (beside : rest.WellFormed) : WellFormed (cons s grants beneath rest)

/-- A forest finds a node at exactly its segments. -/
theorem find?_eq_none_iff {f : Forest} {s : String} : f.find? s = none ↔ s ∉ f.segments := by
  induction f with
  | nil => simp [find?, segments]
  | cons t grants beneath rest _ ih =>
      rw [find?, segments, List.mem_cons, not_or]
      by_cases h : t = s
      · simp [h]
      · rw [if_neg h, ih]
        exact ⟨fun h' => ⟨Ne.symm h, h'⟩, And.right⟩

/-- A forest that finds a node has its segment. -/
theorem mem_segments_of_find? {f : Forest} {s : String} {n : Node} (h : f.find? s = some n) :
    s ∈ f.segments := by
  by_contra absent
  rw [find?_eq_none_iff.2 absent] at h
  cases h

/-- A segment in front of others is none of them. -/
theorem notMem_of_first {s : String} {ts : List String} (first : ∀ t ∈ ts, compare s t = .lt) :
    s ∉ ts := by
  intro h
  have := first s h
  rw [compare_self] at this
  cases this

/-- A node found in a well-formed forest stands at a name, is not bare, and is well formed below. -/
theorem WellFormed.found {f : Forest} (h : f.WellFormed) {s : String} {n : Node}
    (hn : f.find? s = some n) : Path.IsName s ∧ n.isEmpty = false ∧ n.beneath.WellFormed := by
  induction h with
  | nil => exact absurd hn (by simp [find?])
  | cons name first inhabited below beside _ ih =>
      rw [find?] at hn
      split at hn
      next e =>
        obtain rfl := Option.some.inj hn
        exact ⟨e ▸ name, inhabited, below⟩
      next => exact ih hn

/-- An insertion adds its own segment to those at the top. -/
theorem mem_segments_insert {s t : String} {n : Node} {f : Forest} :
    t ∈ (f.insert s n).segments ↔ t = s ∨ t ∈ f.segments := by
  have h := find?_insert s n f t
  rw [← not_iff_not, ← find?_eq_none_iff, h, not_or, ← find?_eq_none_iff]
  by_cases e : s = t
  · simp [e]
  · simp [e, Ne.symm e]

/-- Inserting a node that is not bare at a name keeps the shape. -/
theorem WellFormed.insert {f : Forest} (h : f.WellFormed) {s : String} (hs : Path.IsName s)
    {n : Node} (hn : n.isEmpty = false) (hb : n.beneath.WellFormed) :
    (f.insert s n).WellFormed := by
  induction h with
  | nil => exact .cons hs (by simp [segments]) hn hb .nil
  | @cons t grants beneath rest name first inhabited below beside _ ih =>
      -- the new segment goes in front of the first, takes its place, or goes behind it
      rw [Forest.insert]
      split
      next hlt =>
        refine .cons hs (fun u hu => ?_) hn hb (.cons name first inhabited below beside)
        rw [segments, List.mem_cons] at hu
        rcases hu with rfl | hu
        · exact hlt
        · exact TransCmp.lt_trans hlt (first u hu)
      next heq =>
        obtain rfl := LawfulEqOrd.eq_of_compare heq
        exact .cons hs first hn hb beside
      next hgt =>
        refine .cons name (fun u hu => ?_) inhabited below ih
        rcases mem_segments_insert.1 hu with rfl | hu
        · exact OrientedCmp.gt_iff_lt.1 hgt
        · exact first u hu

/-- An erasure leaves no segment that was not there. -/
theorem mem_segments_of_mem_erase {s t : String} {f : Forest} (h : t ∈ (f.erase s).segments) :
    t ∈ f.segments := by
  induction f with
  | nil => exact h
  | cons u grants beneath rest _ ih =>
      rw [erase] at h
      split at h
      · exact List.mem_cons_of_mem u h
      · rw [segments, List.mem_cons] at h ⊢
        exact h.imp_right ih

/-- Erasing a node keeps the shape. -/
theorem WellFormed.erase {f : Forest} (h : f.WellFormed) (s : String) : (f.erase s).WellFormed := by
  induction h with
  | nil => exact .nil
  | cons name first inhabited below beside _ ih =>
      rw [Forest.erase]
      split
      · exact beside
      · exact .cons name (fun u hu => first u (mem_segments_of_mem_erase hu)) inhabited below ih

/-- An erasure answers for its own segment, a well-formed forest for every other. -/
theorem WellFormed.find?_erase {f : Forest} (h : f.WellFormed) (s t : String) :
    (f.erase s).find? t = if s = t then none else f.find? t := by
  induction h with
  | nil => simp [Forest.erase, find?]
  | @cons u grants beneath rest name first inhabited below beside _ ih =>
      rw [Forest.erase]
      by_cases hu : u = s
      · subst hu
        rw [if_pos rfl]
        by_cases ht : u = t
        · subst ht
          -- the order keeps a segment from standing behind itself
          rw [if_pos rfl, find?_eq_none_iff]
          exact notMem_of_first first
        · rw [if_neg ht, find?, if_neg ht]
      · rw [if_neg hu, find?, find?, ih]
        by_cases ht : u = t
        · subst ht
          rw [if_pos rfl, if_neg (Ne.symm hu), if_pos rfl]
        · rw [if_neg ht, if_neg ht]

end Forest

namespace Node

/-- A node is **well formed** if the forest beneath it is. -/
def WellFormed (n : Node) : Prop := n.beneath.WellFormed

/-- The bare node is the one without grants and children. -/
theorem isEmpty_iff {n : Node} : n.isEmpty = true ↔ n = empty := by
  obtain ⟨grants, beneath⟩ := n
  rw [isEmpty, Bool.and_eq_true]
  constructor
  · rintro ⟨hg, hb⟩
    cases beneath with
    | cons => cases hb
    | nil =>
        have : grants = ∅ := SortedMap.ext (List.isEmpty_iff.1 hg)
        rw [this]
        rfl
  · intro h
    obtain ⟨rfl, rfl⟩ := Node.mk.inj h
    exact ⟨rfl, rfl⟩

/-- The bare node is well formed. -/
theorem wellFormed_empty : empty.WellFormed := Forest.WellFormed.nil

/-- A node with a child is not bare. -/
theorem isEmpty_of_find? {n child : Node} {s : String} (h : n.beneath.find? s = some child) :
    n.isEmpty = false := by
  rw [← Bool.not_eq_true, isEmpty_iff]
  rintro rfl
  exact absurd h (by simp [empty, Forest.find?])

/-- A node that is not bare holds a grant or has a child. -/
theorem isEmpty_eq_false_iff {n : Node} : n.isEmpty = false ↔
    (∃ key grant, n.grants.find? key = some grant) ∨ ∃ s child, n.beneath.find? s = some child := by
  constructor
  · intro inhabited
    obtain ⟨grants, beneath⟩ := n
    cases beneath with
    | cons s childGrants childBeneath rest => exact .inr ⟨s, _, if_pos rfl⟩
    | nil =>
        -- without a child it has to be a grant that keeps the node
        cases held : grants.toList with
        | nil => simp [isEmpty, SortedMap.isEmpty, Forest.isEmpty, held] at inhabited
        | cons g rest =>
            refine .inl ⟨g.1, g.2, (SortedMap.find?_eq_some_iff _).2 ?_⟩
            rw [held]
            exact List.mem_cons_self
  · rintro (⟨key, grant, held⟩ | ⟨s, child, hchild⟩)
    · rw [← Bool.not_eq_true, isEmpty_iff]
      rintro rfl
      cases held
    · exact isEmpty_of_find? hchild

/-- Settling a well-formed child at a name keeps the shape: a bare child is pruned. -/
theorem WellFormed.settle {n : Node} (h : n.WellFormed) {s : String} (hs : Path.IsName s)
    {child : Node} (hc : child.WellFormed) : (n.settle s child).WellFormed := by
  rw [Node.settle, WellFormed]
  split
  next => exact Forest.WellFormed.erase h s
  next hne => exact Forest.WellFormed.insert h hs (Bool.not_eq_true _ ▸ hne) hc

/-- Altering the end of a path keeps the shape, if what is put there is well formed and not bare. -/
theorem WellFormed.alter {f : Node → Node}
    (hf : ∀ m : Node, m.WellFormed → (f m).WellFormed ∧ (f m).isEmpty = false)
    {segs : List String} (hs : ∀ s ∈ segs, Path.IsName s) {n : Node} (h : n.WellFormed) :
    (n.alter f segs).WellFormed ∧ (n.alter f segs).isEmpty = false := by
  induction segs generalizing n with
  | nil => exact hf n h
  | cons s segs ih =>
      -- an absent child starts bare, but what the rest of the path grows under it is not
      have child : ((n.beneath.find? s).getD empty).WellFormed := by
        cases hfind : n.beneath.find? s with
        | none => exact wellFormed_empty
        | some m => exact (Forest.WellFormed.found h hfind).2.2
      obtain ⟨wellFormed, inhabited⟩ := ih (fun t ht => hs t (List.mem_cons_of_mem s ht)) child
      rw [Node.alter]
      constructor
      · exact Forest.WellFormed.insert h (hs s List.mem_cons_self) inhabited wellFormed
      · exact isEmpty_of_find? (s := s) (by rw [Forest.find?_insert, if_pos rfl])

/-- Dropping a grant keeps the shape. -/
theorem WellFormed.dropGrant? {key : GrantKey} {segs : List String} {n left : Node}
    (h : n.WellFormed) (hd : n.dropGrant? key segs = some left) : left.WellFormed := by
  induction segs generalizing n left with
  | nil =>
      rw [Node.dropGrant?] at hd
      split at hd
      · obtain rfl := Option.some.inj hd
        exact h
      · cases hd
  | cons s segs ih =>
      rw [Node.dropGrant?] at hd
      obtain ⟨child, hchild, hd⟩ := Option.bind_eq_some_iff.1 hd
      obtain ⟨rest, hrest, hd⟩ := Option.bind_eq_some_iff.1 hd
      obtain rfl := Option.some.inj hd
      obtain ⟨name, -, below⟩ := Forest.WellFormed.found h hchild
      exact h.settle name (ih below hrest)

/-- Taking a node out keeps the shape of what is left, and the node taken is well formed too. -/
theorem WellFormed.takeOut? {segs : List String} {n taken left : Node} (h : n.WellFormed)
    (ht : n.takeOut? segs = some (taken, left)) : taken.WellFormed ∧ left.WellFormed := by
  induction segs generalizing n left with
  | nil =>
      obtain ⟨rfl, rfl⟩ := Prod.mk.inj (Option.some.inj ht)
      exact ⟨h, wellFormed_empty⟩
  | cons s segs ih =>
      rw [Node.takeOut?] at ht
      obtain ⟨child, hchild, ht⟩ := Option.bind_eq_some_iff.1 ht
      obtain ⟨⟨taken', rest⟩, hrest, ht⟩ := Option.bind_eq_some_iff.1 ht
      obtain ⟨rfl, rfl⟩ := Prod.mk.inj (Option.some.inj ht)
      obtain ⟨name, -, below⟩ := Forest.WellFormed.found h hchild
      obtain ⟨htaken, hleft⟩ := ih below hrest
      exact ⟨htaken, h.settle name hleft⟩

end Node

end PathAcl
