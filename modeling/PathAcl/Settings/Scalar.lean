import PathAcl.Number.Numeral
import PathAcl.Number.Shortest

/-! # Scalars
The values of settings as their sources spell them. A setting that needs another kind of value takes
what can be understood as one: words for truth values, texts for numbers, and the reverse. -/

namespace PathAcl

/-- A **scalar** in a source of settings. -/
inductive Scalar
  | null
  | bool (b : Bool)
  | int (n : Int64)
  /-- A number with a point or an exponent, or one that is too large to be whole. -/
  | real (x : Binary64)
  | text (s : String)
  deriving Repr, DecidableEq

namespace Scalar

open Numeral

/-! ## Spellings -/

/-- The whole number behind a mark of its base, or behind a plus sign; it may have a sign of its
own. -/
def markedInt? : List Char → Option Int64
  | '0' :: 'x' :: cs => intInBase? 16 cs
  | '0' :: 'o' :: cs => intInBase? 8 cs
  | '+' :: cs => intInBase? 10 cs
  | _ => none

/-- The words that stand for a value of their own. -/
def ofWord? : String → Option Scalar
  | "" => some null
  | "~" => some null
  | "null" => some null
  | "true" => some (bool true)
  | "false" => some (bool false)
  | _ => none

/-- The words for numbers that no source can give. -/
def outlawed : List String :=
  [".inf", ".Inf", ".INF", "+.inf", "+.Inf", "+.INF", "-.inf", "-.Inf", "-.INF", ".nan", ".NAN"]

/-- What a text without quotes stands for; nothing for a word that no source can give. -/
def ofPlain? (s : String) : Option Scalar :=
  match (markedInt? s.toList).map int, ofWord? s, (intInBase? 10 s.toList).map int with
  | some v, _, _ => some v
  | none, some v, _ => some v
  | none, none, some v => some v
  | none, none, none =>
    if s ∈ outlawed then none
    else some (((binary64? s.toList).map real).getD (text s))

/-! ## Conversions -/

/-- The truth value a word stands for. -/
def boolOfWord? (word : String) : Option Bool :=
  if word ∈ ["true", "on", "yes"] then some true
  else if word ∈ ["false", "off", "no"] then some false
  else none

/-- The scalar as a truth value. -/
def toBool? : Scalar → Option Bool
  | bool b => some b
  | int n => some (n ≠ 0)
  | real x => some !x.isZero
  | text s =>
    match s.toLower with
    | "1" => some true
    | "0" => some false
    | word => boolOfWord? word
  | null => none

/-- The scalar as a number below `bound`. A number with a point is rounded and stays within 64
bits. -/
def toNat? (bound : Nat) (v : Scalar) : Option Nat := do
  let n ← match v with
    | bool b => some b.toNat
    | int n => if 0 ≤ n.toInt then some n.toInt.toNat else none
    | real x => some (x.toNat (UInt64.size - 1))
    | text s => ((boolOfWord? s.toLower).map Bool.toNat).or (nat? s.toList)
    | null => none
  if n < bound then some n else none

/-- The scalar as a text. -/
def toText? : Scalar → Option String
  | text s => some s
  | bool b => some (if b then "true" else "false")
  | int n => some (toString n.toInt)
  | real x => some x.toText
  | null => none

end Scalar

end PathAcl
