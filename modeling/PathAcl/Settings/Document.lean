import PathAcl.Settings.Tree
import PathAcl.Yaml.Node

/-! # Documents of settings
A document gives settings as a mapping from names to values: sections with their fields, or single
settings. No key comes twice in a mapping. -/

namespace PathAcl.Document

/-- What a text stands for. In quotes it stands for itself. -/
def scalarOf? (quoted : Bool) (text : String) : Option Scalar :=
  if quoted then some (.text text) else Scalar.ofPlain? text

/-- The scalar a key stands for. -/
def key? : Yaml.Node → Option Scalar
  | .scalar quoted text => scalarOf? quoted text
  | .mapping _ => none

/-- The text of a key: a text, or a whole number. -/
def keyText? : Scalar → Option String
  | .text s => some s
  | .int n => some (toString n.toInt)
  | _ => none

/-- The entries with the texts of their keys; nothing if a key comes twice, or is no key. -/
def named? {α : Type} : List (Scalar × α) → Option (List (String × α))
  | [] => some []
  | (key, a) :: es => do
    if es.any (·.1 == key) then none
    else return (← keyText? key, a) :: (← named? es)

mutual

/-- The tree of a node. -/
def tree? : Yaml.Node → Option Tree
  | .scalar quoted text => (scalarOf? quoted text).map .leaf
  | .mapping es => do return .table (← named? (← keyed? es))

/-- The trees of entries, by the scalars of their keys. -/
def keyed? : List (Yaml.Node × Yaml.Node) → Option (List (Scalar × Tree))
  | [] => some []
  | (key, value) :: es => do return (← key? key, ← tree? value) :: (← keyed? es)

end

/-- The entries of a document. A document that is there is a mapping. -/
def entries? (text : String) : Option (List (String × Tree)) := do
  match ← Yaml.Node.ofText? text with
  | none => return []
  | some (.scalar _ _) => none
  | some (.mapping es) => named? (← keyed? es)

end PathAcl.Document
