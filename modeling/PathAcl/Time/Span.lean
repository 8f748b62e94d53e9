import PathAcl.Text.Digits

/-! # Spans of time
A span is shown in the largest of the units second, millisecond, microsecond and nanosecond that it
reaches, with the fewest decimals that lose nothing. -/

namespace PathAcl

/-- A length of time. -/
structure Span where
  seconds : Nat
  /-- Nanoseconds into the second. -/
  nanos : Nat
  deriving Repr, DecidableEq, Inhabited

namespace Span

/-- A whole number of seconds. -/
def ofSeconds (n : Nat) : Span := ⟨n, 0⟩

/-- A number of seconds and one of nanoseconds together. -/
def ofParts (seconds nanos : Nat) : Span := ⟨seconds + nanos / 1000000000, nanos % 1000000000⟩

/-- A whole number and `digits` decimals, of which trailing zeros are left out. -/
def decimalText (whole digits fraction : Nat) : String :=
  let ds := ((Text.fixedDigits digits fraction).reverse.dropWhile (· == '0')).reverse
  toString whole ++ if ds.isEmpty then "" else String.ofList ('.' :: ds)

/-- The text of a span. -/
def text (t : Span) : String :=
  if 0 < t.seconds then decimalText t.seconds 9 t.nanos ++ "s"
  else if 1000000 ≤ t.nanos then decimalText (t.nanos / 1000000) 6 (t.nanos % 1000000) ++ "ms"
  else if 1000 ≤ t.nanos then decimalText (t.nanos / 1000) 3 (t.nanos % 1000) ++ "µs"
  else decimalText t.nanos 0 0 ++ "ns"

end Span

end PathAcl
