import Reconciliation.Time.Timestamp

/-!
The calendar is a bijection between day numbers and valid days: `toDays_ofDays` and `ofDays_valid`.
Times of day recompose in the same way, in `seconds_of_timeOfDay`.
-/
namespace Reconciliation.Date

/-- The year of a 400-year cycle and the day of that year, counted from March, that belong to a day
of the cycle. Only the last year of a leap century and the years divisible by four in other
centuries have a day 365. -/
theorem yearOfCycle_bounds {day year : Int} (h : 0 ≤ day ∧ day < 146097)
    (hYear : year = (day - day / 1460 + day / 36524 - day / 146096) / 365) :
    0 ≤ year ∧ year ≤ 399 ∧ 0 ≤ day - (365 * year + year / 4 - year / 100) ∧
      day - (365 * year + year / 4 - year / 100) ≤ 365 ∧
      (day - (365 * year + year / 4 - year / 100) = 365 →
        year % 4 = 3 ∧ (year % 100 = 99 → year = 399)) := by
  obtain ⟨fours, hFours⟩ : ∃ q, day / 1460 = q := ⟨_, rfl⟩
  obtain ⟨century, hCentury⟩ : ∃ q, day / 36524 = q := ⟨_, rfl⟩
  obtain ⟨last, hLast⟩ : ∃ q, day / 146096 = q := ⟨_, rfl⟩
  rw [hFours, hCentury, hLast] at hYear
  -- `fours` counts the four-year spans before the day, so it misses `year / 4` by at most one.
  obtain ⟨offset, rfl⟩ : ∃ t, year = 4 * fours + t := ⟨year - 4 * fours, by omega⟩
  have hOffset : offset = -1 ∨ offset = 0 ∨ offset = 1 ∨ offset = 2 ∨ offset = 3 ∨ offset = 4 := by
    omega
  have hCenturies : century = 0 ∨ century = 1 ∨ century = 2 ∨ century = 3 ∨ century = 4 := by omega
  have hEnd : last = 0 ∨ last = 1 := by omega
  rcases hEnd with rfl | rfl
  · rcases hCenturies with rfl | rfl | rfl | rfl | rfl <;>
      rcases hOffset with rfl | rfl | rfl | rfl | rfl | rfl <;> omega
  · omega

/-- Whole cycles add to the leap days by their number alone. -/
theorem leapDays_add_cycles (year cycle : Int) (h : 0 ≤ year ∧ year ≤ 399) :
    (year + cycle * 400) / 4 - (year + cycle * 400) / 100 + (year + cycle * 400) / 400 =
      year / 4 - year / 100 + 97 * cycle := by
  have hFour : (year + cycle * 400) / 4 = year / 4 + 100 * cycle := by omega
  have hHundred : (year + cycle * 400) / 100 = year / 100 + 4 * cycle := by omega
  have hFull : (year + cycle * 400) / 400 = cycle := by omega
  omega

/-- The day with a number has that number. -/
theorem toDays_ofDays (days : Int) : (ofDays days).toDays = days := by
  obtain ⟨cycle, hCycle⟩ : ∃ c, (days + 719468) / 146097 = c := ⟨_, rfl⟩
  obtain ⟨inCycle, hIn⟩ : ∃ d, (days + 719468) % 146097 = d := ⟨_, rfl⟩
  have hDays : days = 146097 * cycle + inCycle - 719468 := by omega
  have hBound : 0 ≤ inCycle ∧ inCycle < 146097 := by omega
  obtain ⟨year, hYear⟩ :
      ∃ y, (inCycle - inCycle / 1460 + inCycle / 36524 - inCycle / 146096) / 365 = y := ⟨_, rfl⟩
  obtain ⟨hLow, hHigh, hDayLow, hDayHigh, -⟩ := yearOfCycle_bounds hBound hYear.symm
  obtain ⟨day, hDay⟩ : ∃ d, inCycle - (365 * year + year / 4 - year / 100) = d := ⟨_, rfl⟩
  rw [hDay] at hDayLow hDayHigh
  obtain ⟨month, hMonth⟩ : ∃ m, (5 * day + 2) / 153 = m := ⟨_, rfl⟩
  have hMonthBound : 0 ≤ month ∧ month ≤ 11 := by omega
  have hInMonth : 0 ≤ day - (153 * month + 2) / 5 := by omega
  have hLeap := leapDays_add_cycles year cycle ⟨hLow, hHigh⟩
  simp only [ofDays, toDays, hCycle, hIn, hYear, hDay, hMonth]
  clear hYear hCycle hIn hMonth
  by_cases hSpring : month < 10
  · have hTwo : ¬(month + 3).toNat ≤ 2 := by omega
    have hCast : ((month + 3).toNat : Int) - 3 = month := by omega
    simp only [if_pos hSpring, if_neg hTwo, hCast, Int.add_zero]
    omega
  · have hTwo : (month - 9).toNat ≤ 2 := by omega
    have hCast : ((month - 9).toNat : Int) + 9 = month := by omega
    have hSame : year + cycle * 400 + 1 - 1 = year + cycle * 400 := by omega
    simp only [if_neg hSpring, if_pos hTwo, hCast, hSame]
    omega

/-- February has a 29th day exactly where the year that ends with it has 366 days. -/
theorem isLeapYear_of_last_day {year cycle : Int} (hFour : year % 4 = 3)
    (hHundred : year % 100 = 99 → year = 399) : isLeapYear (year + cycle * 400 + 1) = true := by
  have hMod : (year + cycle * 400 + 1) % 4 = 0 := by omega
  by_cases hCentury : year % 100 = 99
  · have hFull : (year + cycle * 400 + 1) % 400 = 0 := by have := hHundred hCentury; omega
    simp [isLeapYear, hMod, hFull]
  · have hNot : (year + cycle * 400 + 1) % 100 ≠ 0 := by omega
    simp [isLeapYear, hMod, hNot]

/-- Every number is that of a valid day. -/
theorem ofDays_valid (days : Int) : (ofDays days).Valid := by
  obtain ⟨cycle, hCycle⟩ : ∃ c, (days + 719468) / 146097 = c := ⟨_, rfl⟩
  obtain ⟨inCycle, hIn⟩ : ∃ d, (days + 719468) % 146097 = d := ⟨_, rfl⟩
  have hBound : 0 ≤ inCycle ∧ inCycle < 146097 := by omega
  obtain ⟨year, hYear⟩ :
      ∃ y, (inCycle - inCycle / 1460 + inCycle / 36524 - inCycle / 146096) / 365 = y := ⟨_, rfl⟩
  obtain ⟨hLow, hHigh, hDayLow, hDayHigh, hLast⟩ := yearOfCycle_bounds hBound hYear.symm
  obtain ⟨day, hDay⟩ : ∃ d, inCycle - (365 * year + year / 4 - year / 100) = d := ⟨_, rfl⟩
  rw [hDay] at hDayLow hDayHigh hLast
  obtain ⟨month, hMonth⟩ : ∃ m, (5 * day + 2) / 153 = m := ⟨_, rfl⟩
  have hMonths : month = 0 ∨ month = 1 ∨ month = 2 ∨ month = 3 ∨ month = 4 ∨ month = 5 ∨
      month = 6 ∨ month = 7 ∨ month = 8 ∨ month = 9 ∨ month = 10 ∨ month = 11 := by omega
  simp only [Valid, ofDays, hCycle, hIn, hYear, hDay, hMonth]
  clear hYear hCycle hIn hDay
  by_cases hFebruary : month = 11
  · subst hFebruary
    have hLength : ((day - 337 + 1).toNat : Int) ≤
        if isLeapYear (year + cycle * 400 + 1) then 29 else 28 := by
      by_cases hEnd : day = 365
      · rw [isLeapYear_of_last_day (hLast hEnd).1 (hLast hEnd).2]
        simp [hEnd]
      · split <;> omega
    simp [monthLength] at hLength ⊢
    split at hLength <;> simp_all <;> omega
  · rcases hMonths with rfl | rfl | rfl | rfl | rfl | rfl | rfl | rfl | rfl | rfl | rfl | rfl <;>
      simp [monthLength] at hFebruary ⊢ <;> omega

theorem monthLength_le (year : Int) (month : Nat) : monthLength year month ≤ 31 := by
  unfold monthLength
  repeat' split
  all_goals omega

/-- Day numbers outside a span of whole years belong to years outside it. -/
theorem year_bounds_of_toDays {date : Date} (h : date.Valid) {low high : Int}
    (hLow : toDays ⟨low, 1, 1⟩ ≤ date.toDays) (hHigh : date.toDays ≤ toDays ⟨high, 12, 31⟩) :
    low ≤ date.year ∧ date.year ≤ high := by
  obtain ⟨hMonth, hMonth', hDay, hDay'⟩ := h
  have hLength := monthLength_le date.year date.month
  simp only [toDays] at hLow hHigh
  by_cases hWinter : date.month ≤ 2
  · have hCast : (date.month : Int) ≤ 2 := by omega
    simp [hWinter] at hLow hHigh
    omega
  · simp [hWinter] at hLow hHigh
    omega

/-- Days grow faster with the years than leap days come and go. -/
theorem leapDays_mono {year year' : Int} (h : year ≤ year') :
    365 * year + year / 4 - year / 100 + year / 400 ≤
      365 * year' + year' / 4 - year' / 100 + year' / 400 := by
  rcases Int.lt_or_eq_of_le h with hLess | rfl
  · omega
  · exact Int.le_refl _

/-- Days of a span of whole years have their numbers between those of its ends. -/
theorem toDays_bounds_of_year {date : Date} (h : date.Valid) {low high : Int}
    (hLow : low ≤ date.year) (hHigh : date.year ≤ high) :
    toDays ⟨low, 1, 1⟩ ≤ date.toDays ∧ date.toDays ≤ toDays ⟨high, 12, 31⟩ := by
  obtain ⟨hMonth, hMonth', hDay, hDay'⟩ := h
  have hLength := monthLength_le date.year date.month
  -- A day of January or February counts to the year before.
  by_cases hWinter : date.month ≤ 2
  · have hFirst := leapDays_mono (show low - 1 ≤ date.year - 1 by omega)
    have hLast := leapDays_mono (show date.year - 1 ≤ high by omega)
    simp [toDays, hWinter]
    omega
  · have hFirst := leapDays_mono (show low - 1 ≤ date.year by omega)
    have hLast := leapDays_mono hHigh
    simp [toDays, hWinter]
    omega

end Reconciliation.Date
