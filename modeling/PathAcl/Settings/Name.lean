import PathAcl.Number.Numeral
import PathAcl.Settings.Library

/-! # Reading names of settings
A key is read as a heading and steps below it: words behind points are fields, numbers in brackets are
items. The case of letters does not count. -/

namespace PathAcl.SettingName

open Numeral

/-- A step in lower case. -/
def stepInLowerCase : Step → Step
  | .field name => .field (inLowerCase name)
  | .item index => .item index

/-- The characters that headings and fields consist of. -/
def isNameChar (c : Char) : Bool := c.isAlphanum || c == ' ' || c == '_' || c == '-'

/-- A blank around the number of an item. -/
def isBlankInItem (c : Char) : Bool := c == ' ' || c == '\t' || c == '\r' || c == '\n'

/-- The word in front, and what follows it. -/
def word? (cs : List Char) : Option (String × List Char) :=
  let word := cs.takeWhile isNameChar
  if word.isEmpty then none else some (String.ofList word, cs.drop word.length)

/-- The number of an item up to the closing bracket, and what follows it. -/
def index? (cs : List Char) : Option (Int × List Char) :=
  let cs := cs.dropWhile isBlankInItem
  let (sign, cs) := if cs.head? = some '-' then (['-'], cs.drop 1) else ([], cs)
  let digits := cs.takeWhile Char.isDigit
  match (cs.drop digits.length).dropWhile isBlankInItem with
  | ']' :: rest => (intInBase? 10 (sign ++ digits)).map fun n => (n.toInt, rest)
  | _ => none

/-- Reads steps to the end; the fuel bounds their number. -/
def steps? : Nat → List Char → Option (List Step)
  | _, [] => some []
  | fuel + 1, '.' :: cs => do
    let (name, rest) ← word? cs
    some (.field name :: (← steps? fuel rest))
  | fuel + 1, '[' :: cs => do
    let (index, rest) ← index? cs
    some (.item index :: (← steps? fuel rest))
  | _, _ => none

/-- Reads a heading and the steps below it. -/
def read? (s : String) : Option SettingName := do
  let (heading, rest) ← word? s.toList
  some ⟨heading, ← steps? s.length rest⟩

/-- The name a key stands for. A key that cannot be read as one is a heading as a whole. -/
def ofKey (key : String) : SettingName :=
  let name := (read? key).getD ⟨key, []⟩
  ⟨inLowerCase name.heading, name.steps.map stepInLowerCase⟩

end PathAcl.SettingName
