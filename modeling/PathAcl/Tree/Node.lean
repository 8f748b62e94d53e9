import PathAcl.Permission

/-! # Nodes of a path tree
The rows of one storage hang in a tree whose edges are path segments. A node holds the grants at its
own path; its children hold those beneath. A node is kept only as long as it or a node beneath it
holds a grant, so that the presence of a node answers whether anything is granted at or under its
path. -/

namespace PathAcl

open Std

/-- What names a grant at one path. -/
structure GrantKey where
  type : PathType
  sid : Sid
  deriving Repr, DecidableEq

namespace GrantKey

instance : Ord GrantKey := ⟨Order.byTwo type sid⟩

instance : TransOrd GrantKey := inferInstanceAs (TransCmp (Order.byTwo type sid))

instance : LawfulEqOrd GrantKey :=
  Order.lawfulEq_byTwo fun a b h₁ h₂ => by cases a; cases b; cases h₁; cases h₂; rfl

end GrantKey

/-- What is granted. -/
structure Grant where
  mask : Mask
  created : Instant
  deriving DecidableEq

/-- The grants at one path. -/
abbrev Grants : Type := SortedMap GrantKey Grant

/-- A **forest**: the nodes right under one path, in the order of their segments. Each comes with
the grants at its path and the forest beneath it. -/
inductive Forest
  | nil
  | cons (segment : String) (grants : Grants) (beneath rest : Forest)

/-- A **node**: the grants at a path and the forest beneath it (`TrieNode`). -/
structure Node where
  grants : Grants
  beneath : Forest

namespace Forest

/-- The node at a segment. -/
def find? (segment : String) : Forest → Option Node
  | nil => none
  | cons s grants beneath rest => if s = segment then some ⟨grants, beneath⟩ else rest.find? segment

/-- Puts a node at a segment, in the place of the one that is there. -/
def insert (segment : String) (node : Node) : Forest → Forest
  | nil => cons segment node.grants node.beneath nil
  | cons s grants beneath rest =>
    match compare segment s with
    | .lt => cons segment node.grants node.beneath (cons s grants beneath rest)
    | .eq => cons segment node.grants node.beneath rest
    | .gt => cons s grants beneath (insert segment node rest)

/-- Takes the node at a segment away. -/
def erase (segment : String) : Forest → Forest
  | nil => nil
  | cons s grants beneath rest =>
    if s = segment then rest else cons s grants beneath (rest.erase segment)

/-- Whether there is no node. -/
def isEmpty : Forest → Bool
  | nil => true
  | cons .. => false

/-- The number of grants in the forest. -/
def rowCount : Forest → Nat
  | nil => 0
  | cons _ grants beneath rest => grants.size + beneath.rowCount + rest.rowCount

/-- An insertion answers for its own segment, the forest for every other. -/
theorem find?_insert (segment : String) (node : Node) (f : Forest) (s : String) :
    (f.insert segment node).find? s = if segment = s then some node else f.find? s := by
  induction f with
  | nil => simp [insert, find?]
  | cons t grants beneath rest _ ih =>
    simp only [insert]
    split
    next => simp [find?]
    next h =>
      obtain rfl := LawfulEqOrd.eq_of_compare h
      simp only [find?]
      split <;> rfl
    next h =>
      simp only [find?, ih]
      by_cases e : t = s
      · have : segment ≠ s := fun e' => by subst e; subst e'; simp at h
        simp [e, this]
      · simp [e]

end Forest

/-- A grant at a path as a row. -/
def Grant.row (path : String) (key : GrantKey) (grant : Grant) : Permission :=
  ⟨path, key.type, key.sid, grant.mask, grant.created⟩

/-- The grants at a path as rows, files before folders and then by sid. -/
def Grants.rows (path : String) (grants : Grants) : List Permission :=
  grants.toList.map fun g => g.2.row path g.1

/-- The rows of a forest that stands under the path with the given segments: for each node its own
rows and then those beneath it, the nodes in the order of their segments. -/
def Forest.rows (under : List String) : Forest → List Permission
  | nil => []
  | cons s grants beneath rest =>
    grants.rows (Path.join (under ++ [s])) ++ beneath.rows (under ++ [s]) ++ rest.rows under

namespace Node

/-- The node without grants and without children. -/
def empty : Node := ⟨∅, .nil⟩

instance : Inhabited Node := ⟨empty⟩

/-- Whether neither a grant nor a child is there. -/
def isEmpty (n : Node) : Bool := n.grants.isEmpty && n.beneath.isEmpty

/-- The number of grants at and beneath the node. -/
def rowCount (n : Node) : Nat := n.grants.size + n.beneath.rowCount

/-- The rows of a node that stands at the path with the given segments. -/
def rows (segs : List String) (n : Node) : List Permission :=
  n.grants.rows (Path.join segs) ++ n.beneath.rows segs

/-- The node that the segments lead to. -/
def find? : List String → Node → Option Node
  | [], n => some n
  | s :: segs, n => (n.beneath.find? s).bind (find? segs)

/-- Replaces the node that the segments lead to by what `f` makes of it; missing nodes are put there
empty first (`descend_or_insert`). -/
def alter (f : Node → Node) : List String → Node → Node
  | [], n => f n
  | s :: segs, n =>
    { n with beneath := n.beneath.insert s (alter f segs ((n.beneath.find? s).getD empty)) }

/-- What stands at the end of the segments is what `f` made of it. -/
theorem find?_alter (f : Node → Node) (segs : List String) (n : Node) :
    (n.alter f segs).find? segs = some (f ((n.find? segs).getD empty)) := by
  induction segs generalizing n with
  | nil => rfl
  | cons s segs ih =>
    simp only [alter, find?, Forest.find?_insert, if_true, Option.bind_some, ih]
    cases n.beneath.find? s with
    | some child => rfl
    | none => cases segs <;> rfl

/-- The node with another child at a segment; an empty child is pruned. -/
def settle (n : Node) (segment : String) (child : Node) : Node :=
  { n with beneath :=
      if child.isEmpty then n.beneath.erase segment else n.beneath.insert segment child }

/-- Drops a grant at the end of the segments and prunes the nodes this empties; nothing if the grant is
not there (`remove_grant`). -/
def dropGrant? (key : GrantKey) : List String → Node → Option Node
  | [], n => if n.grants.contains key then some { n with grants := n.grants.erase key } else none
  | s :: segs, n => do
    let child ← n.beneath.find? s
    let left ← dropGrant? key segs child
    some (n.settle s left)

/-- Takes the node out that the segments lead to and prunes the nodes this empties: the node taken and
what is left; nothing if there is no such node (`detach`). -/
def takeOut? : List String → Node → Option (Node × Node)
  | [], n => some (n, empty)
  | s :: segs, n => do
    let child ← n.beneath.find? s
    let (taken, left) ← takeOut? segs child
    some (taken, n.settle s left)

end Node

end PathAcl
