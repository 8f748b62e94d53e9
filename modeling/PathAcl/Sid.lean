import PathAcl.Order

/-! # Security identifiers
A sid names a principal: a user, or a group or role the user belongs to. -/

namespace PathAcl

open Std

/-- What a sid names. -/
inductive SidType
  | user
  | group
  deriving Repr, DecidableEq, Inhabited

namespace SidType

/-- The name on the wire and in the database. -/
def name : SidType → String
  | user => "USER"
  | group => "GROUP"

/-- The sid type of a name. -/
def ofName? : String → Option SidType
  | "USER" => some user
  | "GROUP" => some group
  | _ => none

@[simp] theorem ofName?_name (t : SidType) : ofName? t.name = some t := by cases t <;> rfl

/-- The place of a sid type in the order. -/
def rank : SidType → Nat
  | user => 0
  | group => 1

instance : Ord SidType := ⟨compareOn rank⟩

instance : TransOrd SidType := inferInstanceAs (TransCmp (compareOn rank))

instance : LawfulEqOrd SidType :=
  Order.lawfulEq_on fun a b h => by cases a <;> cases b <;> first | rfl | cases h

end SidType

/-- A **sid**: the name of a principal and what it names. -/
structure Sid where
  name : String
  type : SidType
  deriving Repr, DecidableEq, Inhabited

namespace Sid

instance : Ord Sid := ⟨Order.byTwo name type⟩

instance : TransOrd Sid := inferInstanceAs (TransCmp (Order.byTwo name type))

instance : LawfulEqOrd Sid :=
  Order.lawfulEq_byTwo fun a b h₁ h₂ => by cases a; cases b; cases h₁; cases h₂; rfl

/-- The sid of a user. -/
def user (name : String) : Sid := ⟨name, .user⟩

/-- The sid of a group or role. -/
def group (name : String) : Sid := ⟨name, .group⟩

/-- A sid in messages: its type in lower case and its name. -/
def text : Sid → String
  | ⟨name, .user⟩ => "user:" ++ name
  | ⟨name, .group⟩ => "group:" ++ name

end Sid

/-- A user and the groups and roles it belongs to. -/
structure Principal where
  name : String
  groups : List String
  deriving Repr, DecidableEq, Inhabited

/-- The sids a principal acts under: its own first, then one for each group. -/
def Principal.sids (p : Principal) : List Sid := Sid.user p.name :: p.groups.map Sid.group

end PathAcl
