import PathAcl.Time.Instant

/-! # Whole days later
A span of days that begins at an instant ends so many days of 86400 seconds later, or beyond the calendar.
Only the far end of the calendar can be in the way. -/

namespace PathAcl.Instant

variable {now till : Instant} {days : Nat}

/-- Parts are those of an instant if the calendar has them. -/
theorem ofParts?_eq_some_iff {seconds : Int} {nanos : Nat} {t : Instant} :
    ofParts? seconds nanos = some t ↔ t.seconds = seconds ∧ t.nanos = nanos := by
  rw [ofParts?]
  constructor
  · intro h
    split at h
    · obtain rfl := Option.some.inj h
      exact ⟨rfl, rfl⟩
    · cases h
  · rintro ⟨rfl, rfl⟩
    rw [dif_pos ⟨t.inCalendar, t.nanos_lt⟩]

/-- **Which instant lies some days later**: in the same part of the second, and out of a leap second. -/
theorem addDays?_eq_some_iff (some_days : 0 < days) :
    now.addDays? days = some till ↔
      till.seconds = now.seconds + days * secondsPerDay ∧ till.nanos = now.nanos % 1000000000 := by
  rw [addDays?, ofParts?_eq_some_iff, if_neg (Nat.ne_of_gt some_days)]

/-- **The days lead out of the calendar** if it ends before them. -/
theorem addDays?_eq_none_iff :
    now.addDays? days = none ↔
      (Calendar.lastDay + 1) * secondsPerDay ≤ now.seconds + days * secondsPerDay := by
  have first := now.inCalendar.1
  have nanos : (if days = 0 then now.nanos else now.nanos % 1000000000) < 2000000000 := by
    have := now.nanos_lt
    split <;> omega
  rw [addDays?, ofParts?]
  -- the days lead forward, so the start of the calendar is behind
  have after : Calendar.firstDay * secondsPerDay ≤ now.seconds + days * secondsPerDay := by
    simp only [secondsPerDay] at first ⊢
    omega
  by_cases inside : now.seconds + days * secondsPerDay < (Calendar.lastDay + 1) * secondsPerDay
  · rw [dif_pos ⟨⟨after, inside⟩, nanos⟩]
    exact iff_of_false nofun (Int.not_le.2 inside)
  · rw [dif_neg fun h => inside h.1.2]
    exact iff_of_true rfl (Int.not_lt.1 inside)

/-- A day that the calendar has is near enough for the column of days. -/
theorem le_of_addDays? (h : now.addDays? days = some till) :
    (days : Int) ≤ Int32.maxValue.toInt := by
  have span : Calendar.lastDay + 1 - Calendar.firstDay ≤ Int32.maxValue.toInt := by decide
  have first := now.inCalendar.1
  have inside : ¬ (Calendar.lastDay + 1) * secondsPerDay ≤ now.seconds + days * secondsPerDay := by
    rw [← addDays?_eq_none_iff, h]
    exact nofun
  simp only [secondsPerDay] at first inside
  omega

end PathAcl.Instant
