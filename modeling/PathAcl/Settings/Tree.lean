import PathAcl.Settings.Name
import PathAcl.Settings.Scalar

/-! # Trees of values
What sources give is a tree of tables and lists over scalars. A tree is laid over another one table by
table; what is no table hides all that was there. -/

namespace PathAcl

/-- A **tree** of values. -/
inductive Tree
  | leaf (v : Scalar)
  | table (entries : List (String × Tree))
  | list (items : List Tree)

namespace Tree

/-- The entries of a tree that has some. -/
def entries : Tree → List (String × Tree)
  | table es => es
  | _ => []

/-- The items of a tree that has some. -/
def items : Tree → List Tree
  | list ts => ts
  | _ => []

/-- Binds a name: in its place, or behind all others. -/
def bound (name : String) (t : Tree) : List (String × Tree) → List (String × Tree)
  | [] => [(name, t)]
  | e :: es => if e.1 = name then (name, t) :: es else e :: bound name t es

mutual

/-- A tree laid over another one, if there is one. -/
def laidOver : Tree → Option Tree → Tree
  | table es, below => table (layAll es ((below.map entries).getD []))
  | leaf v, _ => leaf v
  | list ts, _ => list ts

/-- Entries laid over others, one by one. Names are bound in lower case. -/
def layAll : List (String × Tree) → List (String × Tree) → List (String × Tree)
  | [], all => all
  | (name, t) :: es, all =>
    let name := SettingName.inLowerCase name
    layAll es (bound name (t.laidOver (all.lookup name)) all)

end

/-- Changes one item of a list. A list that ends before the item grows at its end, and one that begins
behind it grows at its front. -/
def setItem (items : List Tree) (index : Int) (f : Option Tree → Tree) : List Tree :=
  let blanks (n : Nat) : List Tree := List.replicate n (leaf .null)
  let place : Int := if 0 ≤ index then index else items.length + index
  if place < 0 then f none :: blanks ((-place).toNat - 1) ++ items
  else (items ++ blanks (place.toNat + 1 - items.length)).modify place.toNat fun t => f (some t)

/-- What is there once a tree has been given for what some steps lead to. -/
def give (t : Tree) : List Step → Option Tree → Tree
  | [], below => t.laidOver below
  | .field name :: steps, below =>
    let es := (below.map entries).getD []
    table (bound name (t.give steps (es.lookup name)) es)
  | .item index :: steps, below =>
    list (setItem ((below.map items).getD []) index (t.give steps))

/-- Gives a tree for what a name stands for. -/
def set (es : List (String × Tree)) (name : SettingName) (t : Tree) : List (String × Tree) :=
  bound name.heading (t.give name.steps (es.lookup name.heading)) es

end Tree

end PathAcl
