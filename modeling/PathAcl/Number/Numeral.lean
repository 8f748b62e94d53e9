import PathAcl.Number.Binary64

/-! # Numerals
How numbers are written: digits of a base, whole numbers of 64 bits, and decimal numbers with a
point or an exponent. -/

namespace PathAcl.Numeral

open Text

/-! ## Digits -/

/-- The value of a hexadecimal digit. -/
def hexValue? (c : Char) : Option Nat :=
  if c.isDigit then some (c.toNat - 48)
  else if 'a' ≤ c ∧ c ≤ 'f' then some (c.toNat - 87)
  else if 'A' ≤ c ∧ c ≤ 'F' then some (c.toNat - 55)
  else none

/-- The number written with digits of a base. -/
def valueInBase? (base : Nat) (cs : List Char) : Option Nat :=
  if cs.isEmpty then none
  else cs.foldlM (fun n c => do
    let d ← hexValue? c
    if d < base then some (base * n + d) else none) 0

/-- The sign in front, and the rest; no sign counts as plus. -/
def splitSign : List Char → Bool × List Char
  | '-' :: cs => (true, cs)
  | '+' :: cs => (false, cs)
  | cs => (false, cs)

/-! ## Whole numbers -/

/-- The number of 64 bits that digits of a base stand for, a sign before them allowed. -/
def intInBase? (base : Nat) (cs : List Char) : Option Int64 := do
  let (negative, digits) := splitSign cs
  let size ← valueInBase? base digits
  let n : Int := if negative then -size else size
  if Int64.minValue.toInt ≤ n ∧ n ≤ Int64.maxValue.toInt then some (Int64.ofInt n) else none

/-- The number a text stands for: digits, a plus sign before them allowed. -/
def nat? : List Char → Option Nat
  | '+' :: cs => valueInBase? 10 cs
  | cs => valueInBase? 10 cs

/-! ## Decimal numbers -/

/-- The power of ten behind the digits. -/
def exponent? : List Char → Option Int
  | [] => some 0
  | c :: cs =>
    if c = 'e' ∨ c = 'E' then do
      let (negative, digits) := splitSign cs
      let size ← valueInBase? 10 digits
      some (if negative then -size else size)
    else none

/-- The digits in front of a text and behind a point that may follow, and what follows them. -/
def splitPoint (cs : List Char) : List Char × List Char × List Char :=
  let whole := cs.takeWhile Char.isDigit
  match cs.drop whole.length with
  | '.' :: rest => (whole, rest.takeWhile Char.isDigit, rest.dropWhile Char.isDigit)
  | rest => (whole, [], rest)

/-- The word for a number that digits cannot tell, in any case of letters. -/
def ofWord? (negative : Bool) (cs : List Char) : Option Binary64 :=
  match String.ofList (cs.map Char.toLower) with
  | "inf" => some (.infinite negative)
  | "infinity" => some (.infinite negative)
  | "nan" => some .nan
  | _ => none

/-- The number nearest to what a text stands for: digits with a point before, among or behind them
and an exponent, a word, or one of these with a sign. -/
def binary64? (cs : List Char) : Option Binary64 :=
  let (negative, cs) := splitSign cs
  let (whole, fraction, rest) := splitPoint cs
  if whole.isEmpty && fraction.isEmpty then ofWord? negative cs
  else (exponent? rest).map fun e =>
    .ofDecimal negative (valueOfDigits (whole ++ fraction)) (e - fraction.length)

end PathAcl.Numeral
