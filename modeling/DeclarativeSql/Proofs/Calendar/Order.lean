import Mathlib.Data.Int.Basic
import Mathlib.Data.Prod.Lex
import DeclarativeSql.Calendar.Timestamp
import DeclarativeSql.Proofs.Calendar.Dates

/-!
# Dates in order

Months follow one another without a gap (`dayNumber_firstOfMonth_succ`), so of two valid dates the
later one has the greater day number. Instants in their order therefore fall on dates in theirs,
in whatever zone (`triple_le_of_instant_le`).

The calendar ends somewhere, so an instant need not have a date in a zone. `dateIn?_eq_some` says
which it has, and between two instants with dates every instant has one (`HasDate.between`).
-/

namespace DeclarativeSql

namespace Date

/-- Dates are ordered by year, then by month, then by day. -/
def triple (date : Date) : Int ×ₗ Nat ×ₗ Nat :=
  toLex (date.year, toLex (date.month, date.day))

theorem triple_lt {date other : Date} :
    date.triple < other.triple ↔ date.year < other.year ∨ date.year = other.year ∧
      (date.month < other.month ∨ date.month = other.month ∧ date.day < other.day) := by
  simp only [triple, Prod.Lex.toLex_lt_toLex]

-- ---------------------------------------------------------------------------
-- Months
-- ---------------------------------------------------------------------------

/-- The days of the years from 1 March of year 0 to 1 March of a year. -/
def yearsBefore (year : Int) : Int :=
  year * 365 + year / 4 - year / 100 + year / 400

theorem dayNumber_eq {date : Date} (h : 1 ≤ date.day) :
    date.dayNumber = yearsBefore (if date.month ≤ 2 then date.year - 1 else date.year) +
      monthStart ((date.month + 9) % 12) + (date.day - 1) - epochShift := by
  unfold dayNumber yearsBefore
  dsimp only
  generalize (if date.month ≤ 2 then date.year - 1 else date.year) = year
  omega

/-- Months are counted from January of year 0. -/
def monthIndex (date : Date) : Int :=
  date.year * 12 + date.month - 1

def firstOfMonth (index : Int) : Date :=
  ⟨index / 12, (index % 12).toNat + 1, 1⟩

theorem firstOfMonth_monthIndex {date : Date} (h : date.isValid = true) :
    firstOfMonth date.monthIndex = { date with day := 1 } := by
  obtain ⟨hm, hm', -⟩ := (isValid_iff date).mp h
  simp only [firstOfMonth, monthIndex, Date.mk.injEq, and_true]
  omega

theorem firstOfMonth_eq (year : Int) {month : Nat} (h : month < 12) :
    firstOfMonth (year * 12 + month) = ⟨year, month + 1, 1⟩ := by
  simp only [firstOfMonth, Date.mk.injEq, and_true]
  omega

theorem yearsBefore_succ (year : Int) :
    yearsBefore year = yearsBefore (year - 1) + 365 + if isLeapYear year then 1 else 0 := by
  unfold yearsBefore
  split
  · next hl =>
    have hl := (isLeapYear_iff year).mp hl
    omega
  · next hl =>
    rw [isLeapYear_iff] at hl
    omega

/-- A month begins on the day after the last day of the month before it. -/
theorem dayNumber_firstOfMonth_succ (index : Int) :
    (firstOfMonth (index + 1)).dayNumber = (firstOfMonth index).dayNumber +
      daysInMonth (firstOfMonth index).year (firstOfMonth index).month := by
  obtain ⟨year, month, hm, rfl⟩ : ∃ (year : Int) (month : Nat), month < 12 ∧
      index = year * 12 + month :=
    ⟨index / 12, (index % 12).toNat, by omega, by omega⟩
  obtain rfl | hlast : month = 11 ∨ month < 11 := by omega
  · -- January is the first month of the next year, which begins with March
    have hnext : year * 12 + (11 : Nat) + 1 = (year + 1) * 12 + (0 : Nat) := by omega
    rw [hnext, firstOfMonth_eq _ (by omega), firstOfMonth_eq _ hm]
    simp [dayNumber_eq, daysInMonth, monthStart]
    omega
  · have hnext : year * 12 + month + 1 = year * 12 + (month + 1 : Nat) := by omega
    rw [hnext, firstOfMonth_eq _ (by omega), firstOfMonth_eq _ hm]
    have hleap := yearsBefore_succ year
    cases hl : isLeapYear year <;>
      simp only [hl, Bool.false_eq_true, if_false, if_true] at hleap <;>
      interval_cases month <;> simp [dayNumber_eq, daysInMonth, monthStart, hl] <;> omega

theorem dayNumber_firstOfMonth_le {index other : Int} (h : index ≤ other) :
    (firstOfMonth index).dayNumber ≤ (firstOfMonth other).dayNumber := by
  induction other, h using Int.leInduction with
  | base => exact Int.le_refl _
  | succ last _ ih =>
    rw [dayNumber_firstOfMonth_succ]
    omega

-- ---------------------------------------------------------------------------
-- Days
-- ---------------------------------------------------------------------------

theorem dayNumber_eq_firstOfMonth {date : Date} (h : date.isValid = true) :
    date.dayNumber = (firstOfMonth date.monthIndex).dayNumber + (date.day - 1) := by
  obtain ⟨-, -, hd, -⟩ := (isValid_iff date).mp h
  rw [firstOfMonth_monthIndex h, dayNumber_eq hd, dayNumber_eq (Nat.le_refl 1)]
  dsimp only
  omega

/-- A valid date lies in front of the next month. -/
theorem dayNumber_lt_firstOfMonth_succ {date : Date} (h : date.isValid = true) :
    date.dayNumber < (firstOfMonth (date.monthIndex + 1)).dayNumber := by
  obtain ⟨-, -, -, hd⟩ := (isValid_iff date).mp h
  rw [dayNumber_firstOfMonth_succ, dayNumber_eq_firstOfMonth h, firstOfMonth_monthIndex h]
  dsimp only
  omega

theorem dayNumber_lt {date other : Date} (hd : date.isValid = true) (ho : other.isValid = true)
    (h : date.triple < other.triple) : date.dayNumber < other.dayNumber := by
  have hm := (isValid_iff date).mp hd
  have hm' := (isValid_iff other).mp ho
  obtain hi | ⟨hi, hday⟩ : date.monthIndex < other.monthIndex ∨
      date.monthIndex = other.monthIndex ∧ date.day < other.day := by
    rw [triple_lt] at h
    unfold monthIndex
    omega
  · calc date.dayNumber
        < (firstOfMonth (date.monthIndex + 1)).dayNumber := dayNumber_lt_firstOfMonth_succ hd
      _ ≤ (firstOfMonth other.monthIndex).dayNumber := dayNumber_firstOfMonth_le hi
      _ ≤ other.dayNumber := by rw [dayNumber_eq_firstOfMonth ho]; omega
  · rw [dayNumber_eq_firstOfMonth hd, dayNumber_eq_firstOfMonth ho, hi]
    omega

theorem triple_le_of_dayNumber_le {date other : Date} (hd : date.isValid = true)
    (ho : other.isValid = true) (h : date.dayNumber ≤ other.dayNumber) :
    date.triple ≤ other.triple :=
  not_lt.mp fun hlt => absurd (dayNumber_lt ho hd hlt) (not_lt.mpr h)

theorem ofDayNumber_mono {number other : Int} (h : number ≤ other) :
    (ofDayNumber number).triple ≤ (ofDayNumber other).triple := by
  refine triple_le_of_dayNumber_le (isValid_ofDayNumber number) (isValid_ofDayNumber other) ?_
  rwa [dayNumber_ofDayNumber, dayNumber_ofDayNumber]

-- the last day of a century without a leap day, and the day after it
example : ofDayNumber (-25509) = ⟨1900, 2, 28⟩ ∧ ofDayNumber (-25508) = ⟨1900, 3, 1⟩ := by
  decide

end Date

namespace Timestamp

/-- A leap second lies behind the second that it is kept with and in front of the next one. -/
def instant (time : Timestamp) : Int ×ₗ Nat :=
  toLex (time.seconds, time.nanoseconds)

/-- The date on whose day an instant falls in a zone. -/
structure FallsOn (zone : Zone) (time : Timestamp) (date : Date) : Prop where
  valid : date.isValid = true
  start : date.dayNumber * Zone.secondsPerDay ≤ time.seconds + zone.offset
  finish : time.seconds + zone.offset < (date.dayNumber + 1) * Zone.secondsPerDay

/-- The calendar has the day on which the instant falls. -/
def HasDate (zone : Zone) (time : Timestamp) : Prop :=
  ∃ date, time.FallsOn zone date ∧ date.isInRange = true

theorem fallsOn_iff {zone : Zone} {time : Timestamp} {date : Date} :
    time.FallsOn zone date ↔ time.dateAt zone.offset = date := by
  have hs : Zone.secondsPerDay = 86400 := rfl
  constructor
  · rintro ⟨hvalid, hstart, hfinish⟩
    have hd : (time.seconds + zone.offset) / Zone.secondsPerDay = date.dayNumber := by
      rw [hs] at hstart hfinish ⊢
      omega
    rw [dateAt, hd, Date.ofDayNumber_dayNumber hvalid]
  · rintro rfl
    refine ⟨Date.isValid_ofDayNumber _, ?_, ?_⟩
    · rw [dateAt, Date.dayNumber_ofDayNumber, hs]
      omega
    · rw [dateAt, Date.dayNumber_ofDayNumber, hs]
      omega

theorem dateIn?_eq_some {zone : Zone} {time : Timestamp} {date : Date} :
    time.dateIn? zone = some date ↔ time.FallsOn zone date ∧ date.isInRange = true := by
  rw [fallsOn_iff, dateIn?]
  constructor
  · intro h
    split at h
    · next hr =>
      cases h
      exact ⟨rfl, hr⟩
    · cases h
  · rintro ⟨rfl, hr⟩
    exact if_pos hr

theorem dateAt_of_dateIn? {zone : Zone} {time : Timestamp} {date : Date}
    (h : time.dateIn? zone = some date) : time.dateAt zone.offset = date :=
  fallsOn_iff.mp (dateIn?_eq_some.mp h).1

theorem hasDate_iff {zone : Zone} {time : Timestamp} :
    time.HasDate zone ↔ ∃ date, time.dateIn? zone = some date := by
  simp only [HasDate, dateIn?_eq_some]

/-- In UTC, or where the clocks agree with it, every instant has a date. -/
theorem hasDate_of_offset_eq_zero {zone : Zone} (h : zone.offset = 0) (time : Timestamp) :
    time.HasDate zone := by
  refine ⟨_, fallsOn_iff.mpr rfl, ?_⟩
  rw [dateAt, h, Int.add_zero]
  exact time.inRange

/-- The last second of the calendar. -/
def lastSecond : Timestamp :=
  ⟨8210266876799, 0, 0, by decide⟩

/-- East of UTC the calendar is over before the last second. -/
theorem not_hasDate_lastSecond {zone : Zone} (h : 0 < zone.offset) :
    ¬ lastSecond.HasDate zone := by
  rintro ⟨date, hd, hr⟩
  have hs : Zone.secondsPerDay = 86400 := rfl
  have hseconds : lastSecond.seconds = 8210266876799 := rfl
  have hafter : (Date.ofDayNumber 95026237).triple ≤ date.triple := by
    rw [← fallsOn_iff.mp hd]
    refine Date.ofDayNumber_mono ?_
    rw [hs, hseconds]
    omega
  have hnew : Date.ofDayNumber 95026237 = ⟨262143, 1, 1⟩ := by decide
  have hy : 262143 ≤ date.year := Prod.Lex.monotone_fst _ _ (hnew ▸ hafter)
  simp only [Date.isInRange, Bool.and_eq_true, decide_eq_true_eq] at hr
  omega

theorem triple_le_of_instant_le {zone : Zone} {time other : Timestamp} {date date' : Date}
    (hd : time.FallsOn zone date) (hd' : other.FallsOn zone date')
    (h : time.instant ≤ other.instant) : date.triple ≤ date'.triple := by
  have hs : time.seconds ≤ other.seconds := Prod.Lex.monotone_fst _ _ h
  have hz : Zone.secondsPerDay = 86400 := rfl
  rw [← fallsOn_iff.mp hd, ← fallsOn_iff.mp hd']
  refine Date.ofDayNumber_mono ?_
  rw [hz]
  omega

theorem HasDate.between {zone : Zone} {time first last : Timestamp} (hf : first.HasDate zone)
    (hl : last.HasDate zone) (h : first.instant ≤ time.instant)
    (h' : time.instant ≤ last.instant) : time.HasDate zone := by
  obtain ⟨start, hstart, hrange⟩ := hf
  obtain ⟨finish, hfinish, hrange'⟩ := hl
  obtain ⟨date, hdate⟩ : ∃ date, time.FallsOn zone date := ⟨_, fallsOn_iff.mpr rfl⟩
  have hy : start.year ≤ date.year :=
    Prod.Lex.monotone_fst _ _ (triple_le_of_instant_le hstart hdate h)
  have hy' : date.year ≤ finish.year :=
    Prod.Lex.monotone_fst _ _ (triple_le_of_instant_le hdate hfinish h')
  refine ⟨date, hdate, ?_⟩
  simp only [Date.isInRange, Bool.and_eq_true, decide_eq_true_eq] at hrange hrange' ⊢
  omega

end Timestamp

end DeclarativeSql
