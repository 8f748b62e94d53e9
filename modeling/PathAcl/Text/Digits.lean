/-! # Decimal digits
Numbers of a fixed width, written with leading zeros, and the reading of a run of digits. -/

namespace PathAcl.Text

/-- The last `width` decimal digits of a number, leading zeros included. -/
def fixedDigits : Nat → Nat → List Char
  | 0, _ => []
  | width + 1, n => fixedDigits width (n / 10) ++ [Nat.digitChar (n % 10)]

/-- The decimal digits of a number, with leading zeros up to a width. -/
def padded (width n : Nat) : List Char := (Nat.toDigits 10 n).leftpad width '0'

/-- The number that shifts another by some decimal digits. -/
def powerOfTen (digits : Nat) : Nat := Nat.pow 10 digits

/-- The value of a digit. -/
def digitValue (c : Char) : Nat := c.toNat - '0'.toNat

/-- The value of a run of digits. -/
def valueOfDigits (ds : List Char) : Nat := ds.foldl (fun n c => 10 * n + digitValue c) 0

/-- Reads at most `most` digits from the front; fails if fewer than `least` stand there. -/
def readDigits (least most : Nat) (cs : List Char) : Option (List Char × List Char) :=
  let ds := (cs.take most).takeWhile Char.isDigit
  if ds.length < least then none else some (ds, cs.drop ds.length)

end PathAcl.Text
