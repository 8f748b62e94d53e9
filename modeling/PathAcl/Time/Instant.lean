import PathAcl.Time.Calendar

/-! # Instants
An instant is a second of the calendar in UTC and a part of that second in nanoseconds. A part of a
whole second or more stands for the leap second that follows. -/

namespace PathAcl

/-- The seconds of a day. -/
def secondsPerDay : Int := 86400

/-- An **instant** inside the calendar. -/
structure Instant where
  /-- Seconds from 1970-01-01, leap seconds not counted. -/
  seconds : Int
  /-- Nanoseconds into the second. -/
  nanos : Nat
  /-- The calendar has the day of the instant. -/
  inCalendar : Calendar.firstDay * secondsPerDay ≤ seconds ∧
    seconds < (Calendar.lastDay + 1) * secondsPerDay
  /-- At most a leap second follows. -/
  nanos_lt : nanos < 2000000000
  deriving DecidableEq

namespace Instant

/-- The instant with the given parts, if the calendar has it. -/
def ofParts? (seconds : Int) (nanos : Nat) : Option Instant :=
  if h : (Calendar.firstDay * secondsPerDay ≤ seconds ∧
      seconds < (Calendar.lastDay + 1) * secondsPerDay) ∧ nanos < 2000000000 then
    some ⟨seconds, nanos, h.1, h.2⟩
  else none

/-- The first instant of 1970. -/
def epoch : Instant := ⟨0, 0, by decide, by decide⟩

instance : Inhabited Instant := ⟨epoch⟩

/-- The instant a number of days later, if the calendar reaches that far. A leap second is not carried
to another day. -/
def addDays? (t : Instant) (days : Nat) : Option Instant :=
  ofParts? (t.seconds + days * secondsPerDay) (if days = 0 then t.nanos else t.nanos % 1000000000)

/-- The whole days from `t` to `later`. -/
def daysUntil (t later : Instant) : Int := (later.seconds - t.seconds).tdiv secondsPerDay

/-- The date of an instant in UTC. -/
def date (t : Instant) : Calendar.Date := Calendar.dateOfDay (t.seconds / secondsPerDay)

/-- The second of its day. -/
def secondOfDay (t : Instant) : Nat := (t.seconds % secondsPerDay).toNat

/-- The first second of the year 2000, from which a database counts its microseconds. -/
def millennium : Int := 946684800

/-- The instant as a database keeps it: in whole microseconds, the rest cut off towards the first
second of 2000. -/
def toMicros (t : Instant) : Instant :=
  let micros := ((t.seconds - millennium) * 1000000000 + t.nanos).tdiv 1000
  (ofParts? (millennium + micros / 1000000) (micros % 1000000 * 1000).toNat).getD t

end Instant

end PathAcl
