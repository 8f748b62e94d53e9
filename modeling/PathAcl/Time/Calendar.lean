/-! # The Gregorian calendar
Dates are counted in days from 1970-01-01. Years are taken to begin in March, so that the leap day
is the last of its year and the days before a month follow one linear formula. -/

namespace PathAcl.Calendar

/-- A day of the proleptic Gregorian calendar. -/
structure Date where
  year : Int
  /-- One to twelve. -/
  month : Nat
  /-- One to the length of the month. -/
  day : Nat
  deriving Repr, DecidableEq

/-- Whether a year has a leap day. -/
def isLeap (year : Int) : Bool := year % 4 == 0 && (year % 100 != 0 || year % 400 == 0)

/-- The length of a month. -/
def daysInMonth (year : Int) : Nat → Nat
  | 2 => if isLeap year then 29 else 28
  | 4 | 6 | 9 | 11 => 30
  | _ => 31

/-- The first year of the calendar. -/
def firstYear : Int := -262143

/-- The last year of the calendar. -/
def lastYear : Int := 262142

/-- The date with the given numbers, if the calendar has it. -/
def date? (year : Int) (month day : Nat) : Option Date :=
  if firstYear ≤ year ∧ year ≤ lastYear ∧ 1 ≤ month ∧ month ≤ 12 ∧ 1 ≤ day ∧
      day ≤ daysInMonth year month then
    some ⟨year, month, day⟩
  else none

/-- The days from the first of March of year zero to 1970-01-01. -/
def epochOffset : Int := 719468

/-- The number of a date, counted from 1970-01-01. -/
def dayNumber (d : Date) : Int :=
  let year := if d.month ≤ 2 then d.year - 1 else d.year
  let month : Int := if d.month ≤ 2 then d.month + 9 else d.month - 3
  365 * year + year / 4 - year / 100 + year / 400 + (153 * month + 2) / 5 + d.day - 1 - epochOffset

/-- The date with a number, counted from 1970-01-01: whole spans of 400, 100, 4 and 1 years are
taken off in turn, the last day of a span of 100 or of 1 years staying in it. -/
def dateOfDay (n : Int) : Date :=
  -- 146097, 36524, 1461 and 365 days make 400, 100, 4 and 1 years
  let era := (n + epochOffset) / 146097
  let inEra := ((n + epochOffset) % 146097).toNat
  let century := min 3 (inEra / 36524)
  let inCentury := inEra - 36524 * century
  let inFour := inCentury % 1461
  let single := min 3 (inFour / 365)
  let inYear := inFour - 365 * single
  let month := (5 * inYear + 2) / 153
  let year := 400 * era + 100 * century + 4 * ((inCentury / 1461 : Nat) : Int) + single
  { year := if month < 10 then year else year + 1
    month := if month < 10 then month + 3 else month - 9
    day := inYear - (153 * month + 2) / 5 + 1 }

/-- The number of the first day of the calendar. -/
def firstDay : Int := dayNumber ⟨firstYear, 1, 1⟩

/-- The number of the last day of the calendar. -/
def lastDay : Int := dayNumber ⟨lastYear, 12, 31⟩

end PathAcl.Calendar
