/-!
# Calendar dates

Dates of the Gregorian calendar, extended to all years, and their day numbers. Day 0 is
1 January 1970. Inside the computation a year starts on 1 March, so that a leap day is
the last day of its year, and 400 such years have 146097 days. The numbers go on in both
directions, the calendar has a first and a last year.
-/

namespace DeclarativeSql

structure Date where
  year : Int
  month : Nat
  day : Nat
  deriving DecidableEq

namespace Date

def isLeapYear (year : Int) : Bool :=
  year % 4 = 0 && (year % 100 ≠ 0 || year % 400 = 0)

def daysInMonth (year : Int) (month : Nat) : Nat :=
  if month = 2 then if isLeapYear year then 29 else 28
  else if month = 4 || month = 6 || month = 9 || month = 11 then 30
  else 31

def isValid (date : Date) : Bool :=
  1 ≤ date.month && date.month ≤ 12 && 1 ≤ date.day &&
    date.day ≤ daysInMonth date.year date.month

/-- The days from 1 March of year 0 to 1 January 1970. -/
def epochShift : Int := 719468

/-- The first day of a month counted from March, within its year. -/
def monthStart (month : Nat) : Nat :=
  (153 * month + 2) / 5

def dayNumber (date : Date) : Int :=
  let year := if date.month ≤ 2 then date.year - 1 else date.year
  let yearOfEra := (year % 400).toNat
  let dayOfYear := monthStart ((date.month + 9) % 12) + date.day - 1
  let dayOfEra := yearOfEra * 365 + yearOfEra / 4 - yearOfEra / 100 + dayOfYear
  year / 400 * 146097 + dayOfEra - epochShift

/-- The year within 400 years from March, and the day within it. The last year of a century and
of four years may be longer than the others. -/
def splitEra (dayOfEra : Nat) : Nat × Nat :=
  let century := min (dayOfEra / 36524) 3
  let dayOfCentury := dayOfEra - century * 36524
  let leapCycle := dayOfCentury / 1461
  let dayOfCycle := dayOfCentury - leapCycle * 1461
  let year := min (dayOfCycle / 365) 3
  (century * 100 + leapCycle * 4 + year, dayOfCycle - year * 365)

def ofDayNumber (number : Int) : Date :=
  let shifted := number + epochShift
  let (yearOfEra, dayOfYear) := splitEra (shifted % 146097).toNat
  let month := (5 * dayOfYear + 2) / 153
  let year := shifted / 146097 * 400 + yearOfEra
  { year := if month < 10 then year else year + 1
    month := if month < 10 then month + 3 else month - 9
    day := dayOfYear - monthStart month + 1 }

/-- The years of the calendar. -/
def isInRange (date : Date) : Bool :=
  -262143 ≤ date.year && date.year ≤ 262142

/-- Decimal digits, padded with zeros to a width. -/
def padded (width number : Nat) : String :=
  let digits := toString number
  String.ofList (List.replicate (width - digits.length) '0') ++ digits

/-- Four digits, or a sign and at least four digits for years beyond them. -/
def yearText (year : Int) : String :=
  if 0 ≤ year && year ≤ 9999 then padded 4 year.toNat
  else (if year < 0 then "-" else "+") ++ padded 4 year.natAbs

def isoText (date : Date) : String :=
  yearText date.year ++ "-" ++ padded 2 date.month ++ "-" ++ padded 2 date.day

/-- Year, month and day without padding. -/
def plainText (date : Date) : String :=
  toString date.year ++ "-" ++ toString date.month ++ "-" ++ toString date.day

end Date

end DeclarativeSql
