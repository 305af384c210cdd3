import Mathlib.Tactic.IntervalCases
import DeclarativeSql.Calendar.Date

/-!
# Day numbers

Day numbers and valid dates stand for each other: `ofDayNumber_dayNumber` and
`dayNumber_ofDayNumber`.
-/

namespace DeclarativeSql.Date

-- ---------------------------------------------------------------------------
-- Years of an era, from March on
-- ---------------------------------------------------------------------------

/-- The first day of a year within its era. -/
def yearStart (yearOfEra : Nat) : Nat :=
  yearOfEra * 365 + yearOfEra / 4 - yearOfEra / 100

/-- A day of a year of an era. Only years that end with a leap day have a day 365. -/
structure IsDayOf (yearOfEra dayOfYear : Nat) : Prop where
  year_lt : yearOfEra < 400
  day_le : dayOfYear ≤ 365
  leap : dayOfYear = 365 → yearOfEra % 4 = 3 ∧ (yearOfEra % 100 = 99 → yearOfEra = 399)

theorem yearStart_add {century cycle year : Nat} (hc : cycle < 25) (hy : year < 4) :
    yearStart (century * 100 + cycle * 4 + year) = century * 36524 + cycle * 1461 + year * 365 := by
  unfold yearStart
  omega

theorem splitEra_yearStart {yearOfEra dayOfYear : Nat} (h : IsDayOf yearOfEra dayOfYear) :
    splitEra (yearStart yearOfEra + dayOfYear) = (yearOfEra, dayOfYear) := by
  obtain ⟨hy, hd, hl⟩ := h
  obtain ⟨century, cycle, year, rfl, hcentury, hcycle, hyear⟩ : ∃ century cycle year,
      yearOfEra = century * 100 + cycle * 4 + year ∧ century < 4 ∧ cycle < 25 ∧ year < 4 :=
    ⟨yearOfEra / 100, yearOfEra % 100 / 4, yearOfEra % 4, by omega, by omega, by omega, by omega⟩
  rw [yearStart_add hcycle hyear]
  have hlast : dayOfYear ≤ 364 ∨ year = 3 ∧ (cycle ≤ 23 ∨ century = 3) := by
    by_cases h365 : dayOfYear = 365
    · obtain ⟨hyears, hcenturies⟩ := hl h365
      omega
    · omega
  have hfirst : min ((century * 36524 + cycle * 1461 + year * 365 + dayOfYear) / 36524) 3 =
      century := by omega
  have hsecond : (century * 36524 + cycle * 1461 + year * 365 + dayOfYear - century * 36524) /
      1461 = cycle := by omega
  simp only [splitEra, hfirst, hsecond]
  have hthird : min ((century * 36524 + cycle * 1461 + year * 365 + dayOfYear - century * 36524 -
      cycle * 1461) / 365) 3 = year := by omega
  rw [hthird, Prod.mk.injEq]
  omega

theorem splitEra_spec {dayOfEra : Nat} (h : dayOfEra < 146097) :
    IsDayOf (splitEra dayOfEra).1 (splitEra dayOfEra).2 ∧
      yearStart (splitEra dayOfEra).1 + (splitEra dayOfEra).2 = dayOfEra := by
  obtain ⟨century, hcentury⟩ : ∃ century, min (dayOfEra / 36524) 3 = century := ⟨_, rfl⟩
  obtain ⟨cycle, hcycle⟩ : ∃ cycle, (dayOfEra - century * 36524) / 1461 = cycle := ⟨_, rfl⟩
  obtain ⟨year, hyear⟩ : ∃ year,
      min ((dayOfEra - century * 36524 - cycle * 1461) / 365) 3 = year := ⟨_, rfl⟩
  simp only [splitEra, hcentury, hcycle, hyear]
  rw [yearStart_add (by omega) (by omega)]
  exact ⟨⟨by omega, by omega, by omega⟩, by omega⟩

-- ---------------------------------------------------------------------------
-- Months of a year, from March on
-- ---------------------------------------------------------------------------

/-- The date of a day of a year of an era. -/
def ofYearDay (era : Int) (yearOfEra dayOfYear : Nat) : Date :=
  let month := (5 * dayOfYear + 2) / 153
  let year := era * 400 + yearOfEra
  { year := if month < 10 then year else year + 1
    month := if month < 10 then month + 3 else month - 9
    day := dayOfYear - monthStart month + 1 }

theorem ofDayNumber_eq (number : Int) :
    ofDayNumber number =
      ofYearDay ((number + epochShift) / 146097)
        (splitEra ((number + epochShift) % 146097).toNat).1
        (splitEra ((number + epochShift) % 146097).toNat).2 :=
  rfl

theorem isLeapYear_iff (year : Int) :
    isLeapYear year = true ↔ year % 4 = 0 ∧ (year % 100 ≠ 0 ∨ year % 400 = 0) := by
  simp [isLeapYear]

theorem isValid_iff (date : Date) :
    date.isValid = true ↔ 1 ≤ date.month ∧ date.month ≤ 12 ∧ 1 ≤ date.day ∧
      date.day ≤ daysInMonth date.year date.month := by
  simp [isValid, and_assoc]

theorem isValid_ofYearDay (era : Int) {yearOfEra dayOfYear : Nat}
    (h : IsDayOf yearOfEra dayOfYear) : (ofYearDay era yearOfEra dayOfYear).isValid = true := by
  obtain ⟨hy, hd, hl⟩ := h
  obtain ⟨month, hm⟩ : ∃ month, (5 * dayOfYear + 2) / 153 = month := ⟨_, rfl⟩
  have hlt : month < 12 := by omega
  simp only [isValid_iff, ofYearDay, hm, monthStart]
  obtain rfl | hother : month = 11 ∨ month < 11 := by omega
  · -- February: the last day of the year is there in leap years only
    have hleap : dayOfYear = 365 → isLeapYear (era * 400 + yearOfEra + 1) = true := by
      intro h365
      obtain ⟨hyears, hcenturies⟩ := hl h365
      rw [isLeapYear_iff]
      omega
    cases hc : isLeapYear (era * 400 + yearOfEra + 1) with
    | true => simp [daysInMonth, hc]; omega
    | false => simp [daysInMonth, hc]; simp [hc] at hleap; omega
  · interval_cases month <;> simp [daysInMonth] <;> omega

theorem dayNumber_ofYearDay (era : Int) {yearOfEra dayOfYear : Nat}
    (h : IsDayOf yearOfEra dayOfYear) :
    (ofYearDay era yearOfEra dayOfYear).dayNumber =
      era * 146097 + (yearStart yearOfEra + dayOfYear : Nat) - epochShift := by
  obtain ⟨hy, hd, hl⟩ := h
  obtain ⟨month, hm⟩ : ∃ month, (5 * dayOfYear + 2) / 153 = month := ⟨_, rfl⟩
  have hyear : (era * 400 + yearOfEra) / 400 = era := by omega
  have hrest : ((era * 400 + yearOfEra) % 400).toNat = yearOfEra := by omega
  have hstart : monthStart month + (dayOfYear - monthStart month + 1) - 1 = dayOfYear := by
    unfold monthStart
    omega
  -- the year counted from March and the month counted from it
  by_cases h10 : month < 10
  · have hmonth : (month + 3 + 9) % 12 = month := by omega
    simp only [dayNumber, ofYearDay, hm, if_pos h10, if_neg (show ¬ month + 3 ≤ 2 by omega), hyear,
      hrest, hmonth, hstart, yearStart]
  · have hmonth : (month - 9 + 9) % 12 = month := by omega
    simp only [dayNumber, ofYearDay, hm, if_neg h10, if_pos (show month - 9 ≤ 2 by omega),
      Int.add_sub_cancel, hyear, hrest, hmonth, hstart, yearStart]

/-- The day of a month counted from March, within its year, gives the month back. -/
theorem month_of_day {month day : Nat} (hm : month < 12) (hd : 1 ≤ day)
    (hlast : monthStart month + day ≤ monthStart (month + 1)) :
    (5 * (monthStart month + day - 1) + 2) / 153 = month := by
  unfold monthStart at *
  omega

theorem ofYearDay_monthStart {year : Int} {month day : Nat} (hm : 1 ≤ month) (hm' : month ≤ 12)
    (hd : 1 ≤ day)
    (hlast : monthStart ((month + 9) % 12) + day ≤ monthStart ((month + 9) % 12 + 1)) :
    let start := if month ≤ 2 then year - 1 else year
    ofYearDay (start / 400) (start % 400).toNat (monthStart ((month + 9) % 12) + day - 1) =
      ⟨year, month, day⟩ := by
  intro start
  have hstart : start / 400 * 400 + ((start % 400).toNat : Int) = start := by omega
  have hday :
      monthStart ((month + 9) % 12) + day - 1 - monthStart ((month + 9) % 12) + 1 = day := by
    omega
  simp only [ofYearDay, month_of_day (Nat.mod_lt _ (by decide)) hd hlast, hstart, hday,
    Date.mk.injEq, and_true]
  by_cases h2 : month ≤ 2
  · have hs : start = year - 1 := if_pos h2
    rw [hs, if_neg (by omega), if_neg (by omega)]
    omega
  · have hs : start = year := if_neg h2
    rw [hs, if_pos (by omega), if_pos (by omega)]
    omega

theorem exists_ofYearDay {date : Date} (h : date.isValid = true) :
    ∃ era yearOfEra dayOfYear, IsDayOf yearOfEra dayOfYear ∧
      date = ofYearDay era yearOfEra dayOfYear := by
  obtain ⟨year, month, day⟩ := date
  obtain ⟨hm, hm', hd, hd'⟩ := (isValid_iff _).mp h
  dsimp only at hm hm' hd hd'
  obtain rfl | h2 : month = 2 ∨ month ≠ 2 := by omega
  · have hday : day ≤ 29 ∧ (day = 29 → isLeapYear year = true) := by
      cases hl : isLeapYear year <;> simp [daysInMonth, hl] at hd' ⊢ <;> omega
    have hstart : monthStart ((2 + 9) % 12) = 337 := rfl
    have hnext : monthStart ((2 + 9) % 12 + 1) = 367 := rfl
    refine ⟨_, _, _, ⟨by omega, by omega, fun h365 => ?_⟩,
      (ofYearDay_monthStart hm hm' hd (by omega)).symm⟩
    have hleap := (isLeapYear_iff year).mp (hday.2 (by omega))
    omega
  · -- months other than February lie in front of it
    have hlast : monthStart ((month + 9) % 12) + day ≤ monthStart ((month + 9) % 12 + 1) := by
      interval_cases month <;> simp [daysInMonth, monthStart] at * <;> omega
    have hfebruary : monthStart ((month + 9) % 12 + 1) ≤ 337 := by
      unfold monthStart
      omega
    exact ⟨_, _, _, ⟨by omega, by omega, by omega⟩, (ofYearDay_monthStart hm hm' hd hlast).symm⟩

theorem isValid_ofDayNumber (number : Int) : (ofDayNumber number).isValid = true := by
  have hday : ((number + epochShift) % 146097).toNat < 146097 := by omega
  obtain ⟨hd, _⟩ := splitEra_spec hday
  exact isValid_ofYearDay _ hd

theorem dayNumber_ofDayNumber (number : Int) : (ofDayNumber number).dayNumber = number := by
  have hday : ((number + epochShift) % 146097).toNat < 146097 := by omega
  obtain ⟨hd, hs⟩ := splitEra_spec hday
  rw [ofDayNumber_eq, dayNumber_ofYearDay _ hd, hs]
  omega

theorem ofDayNumber_dayNumber {date : Date} (h : date.isValid = true) :
    ofDayNumber date.dayNumber = date := by
  obtain ⟨era, yearOfEra, dayOfYear, hd, rfl⟩ := exists_ofYearDay h
  have hlt : yearStart yearOfEra + dayOfYear < 146097 := by
    obtain ⟨hy, hday, hleap⟩ := hd
    by_cases h365 : dayOfYear = 365
    · obtain ⟨hyears, hcenturies⟩ := hleap h365
      unfold yearStart
      omega
    · unfold yearStart
      omega
  rw [dayNumber_ofYearDay era hd, ofDayNumber_eq]
  have hera : (era * 146097 + (yearStart yearOfEra + dayOfYear : Nat) - epochShift + epochShift) /
      146097 = era := by omega
  have hday : ((era * 146097 + (yearStart yearOfEra + dayOfYear : Nat) - epochShift + epochShift) %
      146097).toNat = yearStart yearOfEra + dayOfYear := by omega
  rw [hera, hday, splitEra_yearStart hd]

end DeclarativeSql.Date
