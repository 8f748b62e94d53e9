import PathAcl.Settings.Document
import PathAcl.Settings.Load

/-! # A reader of settings
A library of configurations that runs. Of documents it reads block mappings of plain and quoted scalars. -/

namespace PathAcl

namespace Tree

/-- What a tree consists of. -/
def shape : Tree → Shape Tree
  | leaf .null => .null
  | leaf _ => .single
  | table es => .table es
  | list ts => .list ts

/-- A tree as a field asks for it. -/
def convert? {α : Type} : FieldType α → Tree → Option α
  | .text, leaf v => v.toText?
  | .truth, leaf v => v.toBool?
  | .word32, leaf v => (v.toNat? UInt32.size).map UInt32.ofNat
  | .word64, leaf v => (v.toNat? UInt64.size).map UInt64.ofNat
  | _, _ => none

/-- The tree that a field is written as. -/
def write {α : Type} : FieldType α → α → Tree
  | .text, s => leaf (.text s)
  | .truth, b => leaf (.bool b)
  | .word32, n => leaf (.int (Int64.ofNat n.toNat))
  | .word64, n => leaf (.int (Int64.ofNat n.toNat))

end Tree

/-- The **reader**. -/
@[reducible] def Settings.reader : ConfigLibrary where
  Value := Tree
  shape := Tree.shape
  convert? := Tree.convert?
  null := .leaf .null
  write := Tree.write
  table := .table
  Config := List (String × Tree)
  empty := []
  find? es heading := es.lookup heading
  set es key t := Tree.set es (SettingName.ofKey key) t
  lowerCase := SettingName.inLowerCase
  path := SettingName.ofKey
  build sources := sources.flatten.foldl (fun es e => Tree.set es (SettingName.ofKey e.1) e.2) []
  document? := Document.entries?
  environment lead leadEnd separator environment := environment.filterMap fun v =>
    (SettingName.keyBehind? separator (SettingName.inLowerCase (lead ++ leadEnd))
      (SettingName.inLowerCase v.1)).map fun key => (key, .leaf (.text v.2))

end PathAcl
