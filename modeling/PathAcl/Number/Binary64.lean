import PathAcl.Text.Digits

/-! # Numbers of 64 bits with a point
The format **binary64**: multiples of powers of two whose mantissa has at most 53 bits, with a sign,
the two infinities, and one value that is not a number. A ratio becomes the nearest of them, and of
two that are equally near the one with the even mantissa. -/

namespace PathAcl

/-- A value of the format **binary64**. -/
inductive Binary64
  | nan
  | infinite (negative : Bool)
  /-- The mantissa times two to the exponent; zero has a sign too. -/
  | finite (negative : Bool) (mantissa : Nat) (exponent : Int)
  deriving Repr, DecidableEq

namespace Binary64

open Text

/-- Every mantissa is below this: it has 53 bits. -/
def mantissaBound : Nat := 1 <<< 53

/-- The exponent of the smallest numbers, which may have fewer bits. -/
def leastExponent : Int := -1074

/-- The exponent of the largest numbers. -/
def greatestExponent : Int := 971

/-! ## Rounding to a number -/

/-- The whole number nearest to a ratio, of two the even one. -/
def nearestEven (num den : Nat) : Nat :=
  let below := num / den
  let rest := 2 * (num % den)
  if rest < den ∨ rest = den ∧ below % 2 = 0 then below else below + 1

/-- A ratio in units of two to the exponent. -/
def inUnits (exponent : Int) (num den : Nat) : Nat × Nat :=
  (num <<< (-exponent).toNat, den <<< exponent.toNat)

/-- The exponent with which a ratio has 53 bits in front of the point, or the least one. -/
def exponentOf (num den : Nat) : Int :=
  let low : Int := (num.log2 : Int) - den.log2 - 53
  let units := inUnits low num den
  max leastExponent (if units.1 / units.2 < mantissaBound then low else low + 1)

/-- The number nearest to a ratio above zero. -/
def ofRatio (negative : Bool) (num den : Nat) : Binary64 :=
  let exponent := exponentOf num den
  let units := inUnits exponent num den
  let mantissa := nearestEven units.1 units.2
  let (mantissa, exponent) :=
    if mantissa < mantissaBound then (mantissa, exponent) else (mantissa / 2, exponent + 1)
  if exponent ≤ greatestExponent then finite negative mantissa exponent else infinite negative

/-- The number nearest to `n` times ten to the power `shift`. What lies far outside the format is
told by its size alone, so that no power grows beyond need. -/
def ofDecimal (negative : Bool) (n : Nat) (shift : Int) : Binary64 :=
  let size : Int := (Nat.toDigits 10 n).length + shift
  if n = 0 ∨ size < -330 then finite negative 0 leastExponent
  else if 310 < size then infinite negative
  else ofRatio negative (n * powerOfTen shift.toNat) (powerOfTen (-shift).toNat)

/-! ## What a number stands for -/

/-- Whether the number is a zero. -/
def isZero : Binary64 → Bool
  | finite _ mantissa _ => mantissa = 0
  | _ => false

/-- The nearest whole number from zero to `most`, a half going up. What is not a number goes to
zero. -/
def toNat (most : Nat) : Binary64 → Nat
  | nan => 0
  | infinite negative => if negative then 0 else most
  | finite negative mantissa exponent =>
    if negative then 0
    else
      let unit := 1 <<< (-exponent).toNat
      min most (((2 * mantissa) <<< exponent.toNat + unit) / (2 * unit))

end Binary64

end PathAcl
