import PathAcl.Text.Blank
import PathAcl.Text.Digits
import PathAcl.Time.Instant

/-! # Instants as RFC 3339 text
An instant is written in UTC, with `Z` and with no, three, six or nine digits of a second, the
fewest that lose nothing. Reading is wider: blanks may stand around the numbers of the date and of
the time, a space may part the date from the time, and an offset is taken off to reach UTC. -/

namespace PathAcl.Rfc3339

open Text

/-! ## Writing -/

/-- A year: four digits, or a sign and at least four digits outside the years 0 to 9999. -/
def writeYear (year : Int) : List Char :=
  if 0 ≤ year ∧ year ≤ 9999 then fixedDigits 4 year.toNat
  else (if year < 0 then '-' else '+') :: padded 4 year.natAbs

/-- A part of a second: the fewest groups of three digits that lose nothing. -/
def writeFraction (nanos : Nat) : List Char :=
  if nanos = 0 then []
  else if nanos % 1000000 = 0 then '.' :: fixedDigits 3 (nanos / 1000000)
  else if nanos % 1000 = 0 then '.' :: fixedDigits 6 (nanos / 1000)
  else '.' :: fixedDigits 9 nanos

/-- The characters of an instant. A leap second is written as second 60 of its minute. -/
def write (t : Instant) : List Char :=
  let date := t.date
  let s := t.secondOfDay
  let leap := if t.nanos < 1000000000 then 0 else 1
  writeYear date.year ++ '-' :: fixedDigits 2 date.month ++ '-' :: fixedDigits 2 date.day ++
    'T' :: fixedDigits 2 (s / 3600) ++ ':' :: fixedDigits 2 (s / 60 % 60) ++
    ':' :: fixedDigits 2 (s % 60 + leap) ++ writeFraction (t.nanos % 1000000000) ++ ['Z']

/-- The text of an instant. -/
def render (t : Instant) : String := String.ofList (write t)

/-! ## Reading -/

/-- Reads a number of one to `most` digits that fits 63 bits. -/
def readNumber (most : Nat) (cs : List Char) : Option (Nat × List Char) := do
  let (ds, rest) ← readDigits 1 most (trimStart cs)
  let n := valueOfDigits ds
  if n ≤ Int64.maxValue.toInt then some (n, rest) else none

/-- Reads a year: four digits at most, or any number of digits after a sign. -/
def readYear (cs : List Char) : Option (Int × List Char) :=
  match trimStart cs with
  | '-' :: rest => do
    let (ds, rest) ← readDigits 1 rest.length rest
    some (-(valueOfDigits ds : Int), rest)
  | '+' :: rest => do
    let (ds, rest) ← readDigits 1 rest.length rest
    some (valueOfDigits ds, rest)
  | cs => do
    let (ds, rest) ← readDigits 1 4 cs
    some (valueOfDigits ds, rest)

/-- Reads one given character, blanks before it allowed. -/
def readMark (mark : Char) (cs : List Char) : Option (List Char) :=
  match trimStart cs with
  | c :: rest => if c = mark then some rest else none
  | [] => none

/-- Reads the fraction of a second in nanoseconds; digits past the ninth do not count. -/
def readFraction : List Char → Option (Nat × List Char)
  | '.' :: cs => do
    let (ds, rest) ← readDigits 1 9 cs
    some (valueOfDigits ds * powerOfTen (9 - ds.length), rest.dropWhile Char.isDigit)
  | cs => some (0, cs)

/-- Reads the minutes of an offset, between the hours and the end of the text. -/
def readOffsetMinutes : List Char → Option (Nat × List Char)
  | a :: b :: rest =>
    if a.isDigit && b.isDigit && digitValue a < 6 then
      some (10 * digitValue a + digitValue b, rest)
    else none
  | _ => none

/-- Reads an offset from UTC in seconds: a `Z`, the letters UTC, or a sign, two digits of hours and
two of minutes with colons or blanks between them. -/
def readOffset (cs : List Char) : Option (Int × List Char) :=
  if (cs.take 3).map Char.toUpper = ['U', 'T', 'C'] then some (0, cs.drop 3)
  else match cs with
    | 'Z' :: rest => some (0, rest)
    | 'z' :: rest => some (0, rest)
    | sign :: a :: b :: rest =>
      if (sign = '+' ∨ sign = '-' ∨ sign = '−') ∧ a.isDigit ∧ b.isDigit then do
        let (minutes, rest) ← readOffsetMinutes (rest.dropWhile fun c => c = ':' || isBlank c)
        let seconds : Int := (10 * digitValue a + digitValue b) * 3600 + minutes * 60
        some (if sign = '+' then seconds else -seconds, rest)
      else none
    | _ => none

/-- The instant of a date and a time of day at an offset, if all three exist. Second 60 is the leap
second after second 59. -/
def assemble (date : Calendar.Date) (hour minute second nanos : Nat) (offset : Int) :
    Option Instant :=
  if hour ≤ 23 ∧ minute ≤ 59 ∧ second ≤ 60 ∧ offset.natAbs < 86400 then
    -- a leap second is second 59 with a part of one second or more
    let leap := if second = 60 then 1 else 0
    let clock : Int := (hour * 3600 + minute * 60 + (second - leap) : Nat)
    Instant.ofParts? (Calendar.dayNumber date * secondsPerDay + clock - offset)
      (nanos + leap * 1000000000)
  else none

/-- Reads an instant. -/
def read (cs : List Char) : Option Instant := do
  let (year, cs) ← readYear cs
  let (month, cs) ← readNumber 2 (← readMark '-' cs)
  let (day, cs) ← readNumber 2 (← readMark '-' cs)
  let cs ← match cs with
    | 'T' :: rest => some rest
    | 't' :: rest => some rest
    | ' ' :: rest => some rest
    | _ => none
  let (hour, cs) ← readNumber 2 cs
  let (minute, cs) ← readNumber 2 (← readMark ':' cs)
  let (second, cs) ← readNumber 2 (← readMark ':' cs)
  let (nanos, cs) ← readFraction cs
  let (offset, cs) ← readOffset (trimStart cs)
  if trimStart cs = [] then
    assemble (← Calendar.date? year month day) hour minute second nanos offset
  else none

/-- The instant a text names. -/
def parse? (text : String) : Option Instant := read text.toList

end PathAcl.Rfc3339
