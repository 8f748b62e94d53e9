import Mathlib.Tactic.IntervalCases
import PathAcl.Time.Calendar

/-! # Days and dates
Every day number is the number of its date, and that date is one of the calendar: its month is one of
twelve and its day is within the month. -/

namespace PathAcl.Calendar

/-- A year is a leap year if it is divisible by 4, and not by 100 unless by 400. -/
theorem isLeap_iff {year : Int} :
    isLeap year = true ↔ year % 4 = 0 ∧ (year % 100 ≠ 0 ∨ year % 400 = 0) := by
  simp only [isLeap, Bool.and_eq_true, Bool.or_eq_true, beq_iff_eq, bne_iff_ne]

/-! ## Spans of years -/

/-- The **spans** that a day number is taken into, counted from the first of March of year zero: so
many of 400, 100, 4 and 1 years, and the days that are left. -/
structure Spans where
  era : Int
  century : Nat
  four : Nat
  single : Nat
  inYear : Nat

namespace Spans

/-- The spans are those of a day: each is within the next larger one. A span of 100 or of 1 years may
have a day more, its leap day. -/
structure Of (s : Spans) (n : Int) : Prop where
  sum : n + epochOffset = 146097 * s.era +
    (36524 * s.century + 1461 * s.four + 365 * s.single + s.inYear : Nat)
  century_le : s.century ≤ 3
  four_le : s.four ≤ 24
  single_le : s.single ≤ 3
  inYear_le : s.inYear ≤ 365
  leapDay : s.inYear = 365 → s.single = 3 ∧ (s.four = 24 → s.century = 3)

/-- The year that begins in March. -/
def year (s : Spans) : Int := 400 * s.era + 100 * s.century + 4 * (s.four : Int) + s.single

/-- The month, counted from March. -/
def month (s : Spans) : Nat := (5 * s.inYear + 2) / 153

/-- The date of a day in its spans. -/
def date (s : Spans) : Date where
  year := if s.month < 10 then s.year else s.year + 1
  month := if s.month < 10 then s.month + 3 else s.month - 9
  day := s.inYear - (153 * s.month + 2) / 5 + 1

end Spans

/-- **Every day has its spans**, and its date is theirs. -/
theorem exists_spans (n : Int) : ∃ s : Spans, s.Of n ∧ dateOfDay n = s.date := by
  have sum : n + epochOffset =
      146097 * ((n + epochOffset) / 146097) + ((n + epochOffset) % 146097).toNat := by omega
  have inEra_lt : ((n + epochOffset) % 146097).toNat < 146097 := by omega
  generalize hera : (n + epochOffset) / 146097 = era at sum
  generalize hin : ((n + epochOffset) % 146097).toNat = inEra at sum inEra_lt
  -- The last century of an era and the last year of four are a day longer than the others.
  let century := min 3 (inEra / 36524)
  let inCentury := inEra - 36524 * century
  let single := min 3 (inCentury % 1461 / 365)
  let spans : Spans :=
    ⟨era, century, inCentury / 1461, single, inCentury % 1461 - 365 * single⟩
  refine ⟨spans, ?_, ?_⟩
  · have hc : century = min 3 (inEra / 36524) := rfl
    have hi : inCentury = inEra - 36524 * century := rfl
    have hs : single = min 3 (inCentury % 1461 / 365) := rfl
    clear_value century inCentury single
    constructor <;> dsimp only [spans] <;> omega
  · rw [dateOfDay]
    simp only [hera, hin]
    rfl

namespace Spans

variable {s : Spans} {n : Int}

/-- There are twelve months. -/
theorem Of.month_le (h : s.Of n) : s.month ≤ 11 := by
  have := h.inYear_le
  rw [month]
  omega

/-- **The number of the date** is the number of the day. -/
theorem Of.dayNumber_date (h : s.Of n) : dayNumber s.date = n := by
  have months := h.month_le
  obtain ⟨sum, century_le, four_le, single_le, inYear_le, -⟩ := h
  have quarter : s.year / 4 = 100 * s.era + 25 * s.century + s.four := by rw [year]; omega
  have hundred : s.year / 100 = 4 * s.era + s.century := by rw [year]; omega
  have whole : s.year / 400 = s.era := by rw [year]; omega
  have days : (153 * s.month + 2) / 5 ≤ s.inYear := by rw [month]; omega
  have total : n + epochOffset = 365 * s.year + 100 * s.era + 25 * s.century + s.four -
      (4 * s.era + s.century) + s.era + s.inYear := by
    rw [sum, year]
    omega
  rw [dayNumber, date]
  -- January and February belong to the year that began the March before.
  by_cases early : s.month < 10
  · simp only [if_pos early, if_neg (by omega : ¬ s.month + 3 ≤ 2), quarter, hundred, whole]
    omega
  · simp only [if_neg early, if_pos (by omega : s.month - 9 ≤ 2), Int.add_sub_cancel, quarter,
      hundred, whole]
    omega

/-- The leap day is in leap years only. -/
theorem Of.isLeap_of_inYear (h : s.Of n) (last : s.inYear = 365) : isLeap (s.year + 1) = true := by
  obtain ⟨-, century_le, four_le, -, -, leapDay⟩ := h
  obtain ⟨single, century⟩ := leapDay last
  rw [isLeap_iff, year]
  omega

/-- The month is one of twelve. -/
theorem Of.month_date (h : s.Of n) : 1 ≤ s.date.month ∧ s.date.month ≤ 12 := by
  have months := h.month_le
  rw [date]
  dsimp only
  split
  · omega
  · omega

/-- **The day is within its month.** -/
theorem Of.day_date (h : s.Of n) :
    1 ≤ s.date.day ∧ s.date.day ≤ daysInMonth s.date.year s.date.month := by
  refine ⟨Nat.le_add_left 1 _, ?_⟩
  have months := h.month_le
  have leap := h.isLeap_of_inYear
  have inYear_le := h.inYear_le
  have month_eq : s.month = (5 * s.inYear + 2) / 153 := rfl
  rw [date]
  dsimp only
  generalize s.month = month at months month_eq ⊢
  -- February is the last month, so its length depends on the year and it ends with the year.
  by_cases february : month = 11
  · subst february
    change s.inYear - (153 * 11 + 2) / 5 + 1 ≤ if isLeap (s.year + 1) then 29 else 28
    by_cases last : s.inYear = 365
    · rw [if_pos (leap last), last]
    · split
      · omega
      · omega
  · -- The other months have one length in every year.
    have fixed : ∀ year, (153 * (month + 1) + 2) / 5 - (153 * month + 2) / 5 =
        daysInMonth year (if month < 10 then month + 3 else month - 9) := by
      intro year
      interval_cases month <;> first | rfl | exact absurd rfl february
    rw [← fixed]
    omega

end Spans

/-! ## Days and their dates -/

/-- **Every day is the day of its date.** -/
theorem dayNumber_dateOfDay (n : Int) : dayNumber (dateOfDay n) = n := by
  obtain ⟨s, spans, date⟩ := exists_spans n
  rw [date, spans.dayNumber_date]

/-- The month and the day of a date are those of a date. -/
theorem valid_dateOfDay (n : Int) :
    1 ≤ (dateOfDay n).month ∧ (dateOfDay n).month ≤ 12 ∧ 1 ≤ (dateOfDay n).day ∧
      (dateOfDay n).day ≤ daysInMonth (dateOfDay n).year (dateOfDay n).month := by
  obtain ⟨s, spans, date⟩ := exists_spans n
  rw [date]
  exact ⟨spans.month_date.1, spans.month_date.2, spans.day_date.1, spans.day_date.2⟩

/-- No month is longer than 31 days. -/
theorem daysInMonth_le (year : Int) (month : Nat) : daysInMonth year month ≤ 31 := by
  unfold daysInMonth
  split
  · split <;> decide
  all_goals decide

/-- **The date of a day is in the calendar** if its year is. -/
theorem date?_dateOfDay {n : Int} (first : firstYear ≤ (dateOfDay n).year)
    (last : (dateOfDay n).year ≤ lastYear) :
    date? (dateOfDay n).year (dateOfDay n).month (dateOfDay n).day = some (dateOfDay n) := by
  rw [date?, if_pos ⟨first, last, valid_dateOfDay n⟩]

end PathAcl.Calendar
