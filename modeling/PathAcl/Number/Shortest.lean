import PathAcl.Number.Binary64

/-! # Shortest decimal text
A number of the format binary64 is written with the fewest decimal digits that read back as the same
number, and never with an exponent. -/

namespace PathAcl.Binary64

open Text

/-- A number among the decimals at one distance from each other, all in units so small that every
field is whole. -/
structure Grid where
  /-- The number itself. -/
  value : Nat
  /-- The middle between the number and the one below it. -/
  low : Nat
  /-- The middle between the number and the one above it. -/
  high : Nat
  /-- The distance between decimals. -/
  step : Nat
  /-- Whether the middles read back as the number. -/
  closed : Bool

/-- The decimals at distance ten to the power `shift`, around a number. Below a power of two the
numbers lie twice as close. -/
def grid (mantissa : Nat) (exponent shift : Int) : Grid :=
  let scale (quarters : Nat) : Nat :=
    (quarters <<< (exponent - 2).toNat) * powerOfTen (-shift).toNat
  let lower := if 2 * mantissa = mantissaBound ∧ leastExponent < exponent then 1 else 2
  { value := scale (4 * mantissa)
    low := scale (4 * mantissa - lower)
    high := scale (4 * mantissa + 2)
    step := (1 <<< (2 - exponent).toNat) * powerOfTen shift.toNat
    closed := mantissa % 2 = 0 }

namespace Grid

/-- Whether the decimal with this number of steps reads back as the number. -/
def hits (g : Grid) (n : Nat) : Bool :=
  if g.closed then g.low ≤ n * g.step && n * g.step ≤ g.high
  else g.low < n * g.step && n * g.step < g.high

/-- The nearest decimal that reads back, the upper one of two. -/
def nearest? (g : Grid) : Option Nat :=
  let below := g.value / g.step
  match g.hits below, g.hits (below + 1) with
  | true, true => some (if 2 * (g.value % g.step) < g.step then below else below + 1)
  | true, false => some below
  | false, true => some (below + 1)
  | false, false => none

end Grid

/-- The power of ten that is just above a number. -/
def magnitude (mantissa : Nat) (exponent : Int) : Int :=
  let places := 330
  let g := grid mantissa exponent (-places)
  (Nat.toDigits 10 (g.value / g.step)).length - places

/-- The shortest decimal that reads back as a number above zero: its digits, and the power of ten
they count. -/
def shortest (mantissa : Nat) (exponent : Int) : Nat × Int :=
  let size := magnitude mantissa exponent
  let found := (List.range 17).findSome? fun k =>
    let shift := size - (k + 1 : Nat)
    ((grid mantissa exponent shift).nearest?).map (·, shift)
  -- not reached: 17 digits always read back
  found.getD (0, 0)

/-- The text of `n` times ten to the power `shift`. -/
def positional (n : Nat) (shift : Int) : List Char :=
  let places := (-shift).toNat
  let whole := Nat.toDigits 10 (n * powerOfTen shift.toNat / powerOfTen places)
  let fraction := ((fixedDigits places n).reverse.dropWhile (· == '0')).reverse
  if fraction.isEmpty then whole else whole ++ '.' :: fraction

/-- The text of a number. -/
def toText : Binary64 → String
  | nan => "NaN"
  | infinite negative => if negative then "-inf" else "inf"
  | finite negative mantissa exponent =>
    let digits :=
      if mantissa = 0 then ['0']
      else
        let (n, shift) := shortest mantissa exponent
        positional n shift
    String.ofList (if negative then '-' :: digits else digits)

end PathAcl.Binary64
