import PathAcl.Proofs.Time.Calendar
import PathAcl.Time.Rfc3339

/-! # Instants read back
What is written of an instant is read as that instant, to the nanosecond, whatever the number of digits
of its fraction. Leap seconds and the years that take more than four digits are left aside. -/

namespace PathAcl

namespace Text

/-! ## Digits -/

/-- Digits of a fixed width are that many. -/
@[simp] theorem length_fixedDigits (width n : Nat) : (fixedDigits width n).length = width := by
  induction width generalizing n with
  | zero => rfl
  | succ width ih => rw [fixedDigits, List.length_append, ih, List.length_singleton]

/-- A digit is a digit. -/
theorem isDigit_digitChar {d : Nat} (h : d < 10) : (Nat.digitChar d).isDigit = true := by
  interval_cases d <;> rfl

/-- It has its value. -/
theorem digitValue_digitChar {d : Nat} (h : d < 10) : digitValue (Nat.digitChar d) = d := by
  interval_cases d <;> rfl

/-- What is written as digits are digits. -/
theorem isDigit_of_mem_fixedDigits {width n : Nat} {c : Char} (h : c ∈ fixedDigits width n) :
    c.isDigit = true := by
  induction width generalizing n with
  | zero => exact absurd h List.not_mem_nil
  | succ width ih =>
      rw [fixedDigits, List.mem_append, List.mem_singleton] at h
      rcases h with h | rfl
      · exact ih h
      · exact isDigit_digitChar (Nat.mod_lt n (by decide))

/-- **The value of the last digits** of a number is what is left of it. -/
theorem valueOfDigits_fixedDigits (width n : Nat) :
    valueOfDigits (fixedDigits width n) = n % 10 ^ width := by
  induction width generalizing n with
  | zero => rw [Nat.pow_zero, Nat.mod_one]; rfl
  | succ width ih =>
      -- The last digit is the last one written: what is before it are the digits of the quotient.
      rw [fixedDigits, valueOfDigits, List.foldl_append, ← valueOfDigits, ih]
      change 10 * (n / 10 % 10 ^ width) + digitValue (Nat.digitChar (n % 10)) = _
      rw [digitValue_digitChar (Nat.mod_lt n (by decide)), Nat.pow_succ', Nat.mod_mul]
      omega

/-- A digit is not blank. -/
theorem isBlank_of_isDigit {c : Char} (h : c.isDigit = true) : isBlank c = false := by
  simp only [Char.isDigit, Bool.and_eq_true, decide_eq_true_eq, ge_iff_le, UInt32.le_iff_toNat_le] at h
  have low : 48 ≤ c.toNat := h.1
  have high : c.toNat ≤ 57 := h.2
  simp only [isBlank, Bool.or_eq_false_iff, Bool.and_eq_false_iff, decide_eq_false_iff_not,
    beq_eq_false_iff_ne]
  omega

/-- No blanks stand before a character that is not blank. -/
theorem trimStart_cons {c : Char} (h : isBlank c = false) (cs : List Char) :
    trimStart (c :: cs) = c :: cs := by
  rw [trimStart, List.dropWhile_cons, h]
  rfl

/-- Digits of a width that is not zero begin with a digit. -/
theorem exists_fixedDigits_eq_cons (width n : Nat) :
    ∃ c cs, fixedDigits (width + 1) n = c :: cs ∧ c.isDigit = true := by
  have length := length_fixedDigits (width + 1) n
  cases ds : fixedDigits (width + 1) n with
  | nil =>
      rw [ds] at length
      cases length
  | cons c cs => exact ⟨c, cs, rfl, isDigit_of_mem_fixedDigits (ds ▸ List.mem_cons_self)⟩

/-- No blanks stand before digits. -/
theorem trimStart_fixedDigits (width n : Nat) (rest : List Char) :
    trimStart (fixedDigits (width + 1) n ++ rest) = fixedDigits (width + 1) n ++ rest := by
  obtain ⟨c, cs, digits, digit⟩ := exists_fixedDigits_eq_cons width n
  rw [digits]
  exact trimStart_cons (isBlank_of_isDigit digit) _

/-- A run of digits that has the greatest length, or that no digit follows, is read to its end. -/
theorem readDigits_append {least most : Nat} {ds rest : List Char} (digits : ∀ c ∈ ds, c.isDigit)
    (enough : least ≤ ds.length) (few : ds.length ≤ most)
    (ends : ds.length = most ∨ ∀ c ∈ rest.head?, c.isDigit = false) :
    readDigits least most (ds ++ rest) = some (ds, rest) := by
  have stops : (rest.take (most - ds.length)).takeWhile Char.isDigit = [] := by
    rcases ends with full | ends
    · rw [full, Nat.sub_self, List.take_zero, List.takeWhile_nil]
    · cases rest with
      | nil => rw [List.take_nil, List.takeWhile_nil]
      | cons c rest =>
          cases most - ds.length with
          | zero => rfl
          | succ more => rw [List.take_succ_cons, List.takeWhile_cons, ends c rfl]; rfl
  have run : ((ds ++ rest).take most).takeWhile Char.isDigit = ds := by
    rw [List.take_append, List.take_of_length_le few, List.takeWhile_append_of_pos digits, stops,
      List.append_nil]
  rw [readDigits, run, if_neg (Nat.not_lt.2 enough), List.drop_left]

end Text

namespace Rfc3339

open Text

/-! ## Parts -/

/-- A number of two digits is read as it was written. -/
theorem readNumber_fixedDigits {n : Nat} (h : n < 100) (rest : List Char) :
    readNumber 2 (fixedDigits 2 n ++ rest) = some (n, rest) := by
  have run : readDigits 1 2 (fixedDigits 2 n ++ rest) = some (fixedDigits 2 n, rest) :=
    readDigits_append (fun c => isDigit_of_mem_fixedDigits) (by simp) (by simp) (.inl (by simp))
  have value : valueOfDigits (fixedDigits 2 n) = n := by
    rw [valueOfDigits_fixedDigits]
    exact Nat.mod_eq_of_lt h
  have fits : (n : Int) ≤ Int64.maxValue.toInt := by
    have most : Int64.maxValue.toInt = 9223372036854775807 := rfl
    omega
  rw [readNumber, trimStart_fixedDigits, run]
  change (if (valueOfDigits (fixedDigits 2 n) : Int) ≤ Int64.maxValue.toInt then
    some (valueOfDigits (fixedDigits 2 n), rest) else none) = _
  rw [value, if_pos fits]

/-- A mark is read. -/
theorem readMark_cons {mark : Char} (h : isBlank mark = false) (rest : List Char) :
    readMark mark (mark :: rest) = some rest := by
  rw [readMark, trimStart_cons h]
  exact if_pos rfl

/-- A year of four digits is read as it was written. -/
theorem readYear_writeYear {year : Int} (first : 0 ≤ year) (last : year ≤ 9999)
    (rest : List Char) : readYear (writeYear year ++ rest) = some (year, rest) := by
  have run : readDigits 1 4 (fixedDigits 4 year.toNat ++ rest) =
      some (fixedDigits 4 year.toNat, rest) :=
    readDigits_append (fun c => isDigit_of_mem_fixedDigits) (by simp) (by simp) (.inl (by simp))
  have value : valueOfDigits (fixedDigits 4 year.toNat) = year.toNat := by
    rw [valueOfDigits_fixedDigits]
    omega
  -- Years of four digits are written without a sign, so none is taken off.
  have unsigned : ∀ sign more, fixedDigits 4 year.toNat ++ rest = sign :: more →
      sign.isDigit = true := by
    intro sign more same
    obtain ⟨c, cs, digits, digit⟩ := exists_fixedDigits_eq_cons 3 year.toNat
    rw [digits] at same
    obtain ⟨rfl, -⟩ := List.cons.inj same
    exact digit
  rw [writeYear, if_pos ⟨first, last⟩, readYear, trimStart_fixedDigits]
  split
  next more same => exact absurd (unsigned '-' more same) (by decide)
  next more same => exact absurd (unsigned '+' more same) (by decide)
  next =>
      rw [run]
      change some (((valueOfDigits (fixedDigits 4 year.toNat) : Nat) : Int), rest) = _
      rw [value, Int.toNat_of_nonneg first]

/-- The digits of a part of a second are read, up to the end of the instant. -/
theorem readFraction_fixedDigits {width n : Nat} (one : 1 ≤ width) (few : width ≤ 9)
    (h : n < 10 ^ width) :
    readFraction ('.' :: fixedDigits width n ++ ['Z']) =
      some (n * powerOfTen (9 - width), ['Z']) := by
  have run : readDigits 1 9 (fixedDigits width n ++ ['Z']) = some (fixedDigits width n, ['Z']) := by
    refine readDigits_append (fun c => isDigit_of_mem_fixedDigits) ?_ ?_ (.inr ?_)
    · rwa [length_fixedDigits]
    · rwa [length_fixedDigits]
    · intro c hc
      cases hc
      rfl
  rw [List.cons_append, readFraction, run]
  change some (valueOfDigits (fixedDigits width n) *
    powerOfTen (9 - (fixedDigits width n).length), _) = _
  rw [valueOfDigits_fixedDigits, length_fixedDigits, Nat.mod_eq_of_lt h]
  rfl

/-- A part of a second takes no digits, or a point and three, six or nine. -/
theorem length_writeFraction (nanos : Nat) : (writeFraction nanos).length ∈ [0, 4, 7, 10] := by
  rw [writeFraction]
  split
  · decide
  split
  · rw [List.length_cons, length_fixedDigits]
    decide
  split
  · rw [List.length_cons, length_fixedDigits]
    decide
  · rw [List.length_cons, length_fixedDigits]
    decide

/-- **A part of a second** is read as it was written, whatever the number of its digits. -/
theorem readFraction_writeFraction {nanos : Nat} (h : nanos < 1000000000) :
    readFraction (writeFraction nanos ++ ['Z']) = some (nanos, ['Z']) := by
  rw [writeFraction]
  split
  next none =>
      rw [none]
      rfl
  split
  next millis =>
      rw [readFraction_fixedDigits (by decide) (by decide) (by omega)]
      have shifted : nanos / 1000000 * powerOfTen (9 - 3) = nanos := by
        change nanos / 1000000 * 1000000 = nanos
        omega
      rw [shifted]
  split
  next micros =>
      rw [readFraction_fixedDigits (by decide) (by decide) (by omega)]
      have shifted : nanos / 1000 * powerOfTen (9 - 6) = nanos := by
        change nanos / 1000 * 1000 = nanos
        omega
      rw [shifted]
  next =>
      rw [readFraction_fixedDigits (by decide) (by decide) h]
      exact congrArg (fun n => some (n, ['Z'])) (Nat.mul_one nanos)

/-- UTC is read. -/
theorem readOffset_utc : readOffset ['Z'] = some (0, []) := rfl

end Rfc3339

/-! ## Instants -/

/-- An instant is **ordinary** if its year has four digits and it is in no leap second. -/
def Instant.Ordinary (t : Instant) : Prop :=
  0 ≤ t.date.year ∧ t.date.year ≤ 9999 ∧ t.nanos < 1000000000

namespace Rfc3339

open Text

/-- An instant is put together of its date and its time of day. -/
theorem assemble_parts (t : Instant) :
    assemble t.date (t.secondOfDay / 3600) (t.secondOfDay / 60 % 60) (t.secondOfDay % 60) t.nanos 0 =
      some t := by
  have clock : t.secondOfDay < 86400 := by
    rw [Instant.secondOfDay, secondsPerDay]
    omega
  have parts : t.seconds / secondsPerDay * secondsPerDay + t.secondOfDay = t.seconds := by
    rw [Instant.secondOfDay, secondsPerDay]
    omega
  have sum : t.secondOfDay / 3600 * 3600 + t.secondOfDay / 60 % 60 * 60 + t.secondOfDay % 60 =
      t.secondOfDay := by
    omega
  -- A leap second would be read as a second 60, and none is written so.
  have no_leap : t.secondOfDay % 60 ≠ 60 := by omega
  have sound : t.secondOfDay / 3600 ≤ 23 ∧ t.secondOfDay / 60 % 60 ≤ 59 ∧
      t.secondOfDay % 60 ≤ 60 ∧ (0 : Int).natAbs < 86400 := by
    omega
  rw [assemble, if_pos sound]
  simp only [if_neg no_leap, Nat.sub_zero, Nat.zero_mul, Nat.add_zero, Int.sub_zero, sum]
  rw [Instant.date, Calendar.dayNumber_dateOfDay, parts, Instant.ofParts?,
    dif_pos ⟨t.inCalendar, t.nanos_lt⟩]

/-- **An ordinary instant is read** as it was written. -/
theorem read_write {t : Instant} (h : t.Ordinary) : read (write t) = some t := by
  obtain ⟨first, last, nanos⟩ := h
  have dated : Calendar.date? t.date.year t.date.month t.date.day = some t.date :=
    Calendar.date?_dateOfDay (Int.le_trans (by decide) first) (Int.le_trans last (by decide))
  obtain ⟨-, month_le, -, day_le⟩ := Calendar.valid_dateOfDay (t.seconds / secondsPerDay)
  have month : t.date.month < 100 := Nat.lt_of_le_of_lt month_le (by decide)
  have day : t.date.day < 100 :=
    Nat.lt_of_le_of_lt (Nat.le_trans day_le (Calendar.daysInMonth_le _ _)) (by decide)
  have clock : t.secondOfDay < 86400 := by
    rw [Instant.secondOfDay, secondsPerDay]
    omega
  have whole : t.nanos % 1000000000 = t.nanos := Nat.mod_eq_of_lt nanos
  have dash : isBlank '-' = false := by decide
  have colon : isBlank ':' = false := by decide
  rw [write]
  simp only [if_pos nanos, Nat.add_zero, whole, List.append_assoc, List.cons_append]
  rw [Rfc3339.read]
  refine Option.bind_eq_some_iff.2 ⟨_, readYear_writeYear first last _, ?_⟩
  refine Option.bind_eq_some_iff.2 ⟨_, readMark_cons dash _, ?_⟩
  refine Option.bind_eq_some_iff.2 ⟨_, readNumber_fixedDigits month _, ?_⟩
  refine Option.bind_eq_some_iff.2 ⟨_, readMark_cons dash _, ?_⟩
  refine Option.bind_eq_some_iff.2 ⟨_, readNumber_fixedDigits day _, ?_⟩
  -- The date ends with a T.
  refine Option.bind_eq_some_iff.2 ⟨_, rfl, ?_⟩
  refine Option.bind_eq_some_iff.2 ⟨_, readNumber_fixedDigits (by omega) _, ?_⟩
  refine Option.bind_eq_some_iff.2 ⟨_, readMark_cons colon _, ?_⟩
  refine Option.bind_eq_some_iff.2 ⟨_, readNumber_fixedDigits (by omega) _, ?_⟩
  refine Option.bind_eq_some_iff.2 ⟨_, readMark_cons colon _, ?_⟩
  refine Option.bind_eq_some_iff.2 ⟨_, readNumber_fixedDigits (by omega) _, ?_⟩
  refine Option.bind_eq_some_iff.2 ⟨_, readFraction_writeFraction nanos, ?_⟩
  refine Option.bind_eq_some_iff.2 ⟨_, readOffset_utc, ?_⟩
  refine Option.bind_eq_some_iff.2 ⟨_, dated, ?_⟩
  exact assemble_parts t

/-- The text of an ordinary instant names it. -/
theorem parse?_render {t : Instant} (h : t.Ordinary) : parse? (render t) = some t := by
  rw [parse?, render, String.toList_ofList, read_write h]

end Rfc3339

end PathAcl
