import DeclarativeSql.Calendar.Zone

/-!
# Timestamps

An instant together with the offset it was written with. A leap second is kept as the
second before it with a thousand million nanoseconds or more. Texts are read with white
space allowed before each number and separator, and written in one form.

Every instant has a date in UTC. In another zone the first and the last day of the calendar
have hours that lie outside it.
-/

namespace DeclarativeSql

structure Timestamp where
  /-- Seconds since the start of 1970 in UTC. -/
  seconds : Int
  nanoseconds : Nat
  /-- Seconds east of UTC. -/
  offset : Int
  inRange : (Date.ofDayNumber (seconds / Zone.secondsPerDay)).isInRange = true
  deriving DecidableEq

namespace Timestamp

/-- The date of the instant so many seconds east of UTC, which may lie outside the calendar. -/
def dateAt (offset : Int) (time : Timestamp) : Date :=
  .ofDayNumber ((time.seconds + offset) / Zone.secondsPerDay)

/-- The date of the instant in a zone, if the calendar has it. -/
def dateIn? (zone : Zone) (time : Timestamp) : Option Date :=
  let date := time.dateAt zone.offset
  if date.isInRange then some date else none

/-- The instant so many seconds from the start of 1970, if it has a date in UTC. -/
def ofSeconds? (seconds : Int) (nanoseconds : Nat) (offset : Int) : Option Timestamp :=
  if h : (Date.ofDayNumber (seconds / Zone.secondsPerDay)).isInRange = true then
    some ⟨seconds, nanoseconds, offset, h⟩
  else none

-- ---------------------------------------------------------------------------
-- Writing
-- ---------------------------------------------------------------------------

def fractionText (nanoseconds : Nat) : String :=
  if nanoseconds = 0 then ""
  else if nanoseconds % 1000000 = 0 then "." ++ Date.padded 3 (nanoseconds / 1000000)
  else if nanoseconds % 1000 = 0 then "." ++ Date.padded 6 (nanoseconds / 1000)
  else "." ++ Date.padded 9 nanoseconds

def offsetText (offset : Int) : String :=
  if offset = 0 then "Z"
  else
    let minutes := offset.natAbs / 60
    (if offset < 0 then "-" else "+") ++ Date.padded 2 (minutes / 60) ++ ":" ++
      Date.padded 2 (minutes % 60)

def leapSecond : Nat := 1000000000

def text (time : Timestamp) : String :=
  let clock := ((time.seconds + time.offset) % Zone.secondsPerDay).toNat
  let isLeap := leapSecond ≤ time.nanoseconds
  let second := clock % 60 + if isLeap then 1 else 0
  let nanoseconds := if isLeap then time.nanoseconds - leapSecond else time.nanoseconds
  (time.dateAt time.offset).isoText ++ "T" ++ Date.padded 2 (clock / 3600) ++ ":" ++
    Date.padded 2 (clock / 60 % 60) ++ ":" ++ Date.padded 2 second ++ fractionText nanoseconds ++
    offsetText time.offset

-- ---------------------------------------------------------------------------
-- Reading
-- ---------------------------------------------------------------------------

def decimalValue (digits : List Char) : Nat :=
  digits.foldl (fun value c => 10 * value + (c.toNat - 0x30)) 0

/-- The digits at the front, at least one and at most `width`. -/
def scanDigits? (width : Nat) (s : List Char) : Option (List Char × List Char) :=
  match (s.take width).takeWhile Char.isDigit with
  | [] => none
  | digits => some (digits, s.drop digits.length)

def scanNumber? (s : List Char) : Option (Nat × List Char) := do
  let (digits, rest) ← scanDigits? 2 (Text.dropBlank s)
  return (decimalValue digits, rest)

/-- Up to four digits, or a sign and any number of digits. -/
def scanYear? (s : List Char) : Option (Int × List Char) := do
  match Text.dropBlank s with
  | '-' :: rest =>
    let (digits, rest) ← scanDigits? rest.length rest
    return (-decimalValue digits, rest)
  | '+' :: rest =>
    let (digits, rest) ← scanDigits? rest.length rest
    return (decimalValue digits, rest)
  | rest =>
    let (digits, rest) ← scanDigits? 4 rest
    return (decimalValue digits, rest)

def scanSeparator? (separator : Char) (s : List Char) : Option (List Char) :=
  match Text.dropBlank s with
  | c :: rest => if c = separator then some rest else none
  | [] => none

/-- Nine digits of a fraction count; further ones are passed over. -/
def scanFraction? : List Char → Option (Nat × List Char)
  | '.' :: rest => do
    let (digits, rest) ← scanDigits? 9 rest
    return (decimalValue digits * Nat.pow 10 (9 - digits.length), rest.dropWhile Char.isDigit)
  | rest => some (0, rest)

def scanDate? (s : List Char) : Option (Date × List Char) := do
  let (year, rest) ← scanYear? s
  let (month, rest) ← scanNumber? (← scanSeparator? '-' rest)
  let (day, rest) ← scanNumber? (← scanSeparator? '-' rest)
  return (⟨year, month, day⟩, rest)

/-- The seconds of the day and the nanoseconds. -/
def scanClock? (s : List Char) : Option (Nat × Nat × List Char) := do
  let (hour, rest) ← scanNumber? s
  let (minute, rest) ← scanNumber? (← scanSeparator? ':' rest)
  let (second, rest) ← scanNumber? (← scanSeparator? ':' rest)
  let (nanoseconds, rest) ← scanFraction? rest
  guard (hour < 24 && minute < 60 && second ≤ 60)
  if second = 60 then return (hour * 3600 + minute * 60 + 59, leapSecond + nanoseconds, rest)
  else return (hour * 3600 + minute * 60 + second, nanoseconds, rest)

def scanZone? (s : List Char) : Option (Int × List Char) :=
  match s with
  | 'Z' :: rest | 'z' :: rest => some (0, rest)
  | s =>
    match s.take 3 |>.map Text.lowerAscii with
    | ['u', 't', 'c'] => some (0, s.drop 3)
    | _ => (Zone.scanOffset s).toOption

def ofText? (text : String) : Option Timestamp := do
  let (date, rest) ← scanDate? text.toList
  let rest ← match rest with
    | 'T' :: rest | 't' :: rest | ' ' :: rest => some rest
    | _ => none
  let (clock, nanoseconds, rest) ← scanClock? rest
  let (offset, rest) ← scanZone? (Text.dropBlank rest)
  guard (rest.all Text.isBlankChar && date.isValid && date.isInRange && Zone.isInDay offset)
  ofSeconds? (date.dayNumber * Zone.secondsPerDay + clock - offset) nanoseconds offset

end Timestamp

end DeclarativeSql
