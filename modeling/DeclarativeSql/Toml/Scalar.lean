import DeclarativeSql.Calendar.Date
import DeclarativeSql.Json.Number
import DeclarativeSql.Json.Reader
import DeclarativeSql.Text.Basic
import DeclarativeSql.Toml.Table

/-!
# TOML scalars other than strings

A scalar is recognised from its whole text: a truth value, an integer in one of four bases,
a floating-point number, or a date, a time of day or both.
-/

namespace DeclarativeSql.Toml

-- ---------------------------------------------------------------------------
-- Numbers
-- ---------------------------------------------------------------------------

/-- Digits with single underscores between them, at least one digit. -/
def digits? (isDigit : Char → Bool) (s : List Char) : Option (List Char) :=
  let groups := Text.split '_' s
  if groups.all fun group => !group.isEmpty && group.all isDigit then some groups.flatten else none

def decimalDigits? (s : List Char) : Option (List Nat) :=
  (digits? Char.isDigit s).map (List.map Number.digitValue)

/-- Whole digits of a decimal number do not begin with a zero. -/
def wholeDigits? (s : List Char) : Option (List Nat) := do
  let digits ← decimalDigits? s
  guard (digits.length = 1 || digits.head? ≠ some 0)
  return digits

def splitSign : List Char → Int × List Char
  | '-' :: rest => (-1, rest)
  | '+' :: rest => (1, rest)
  | rest => (1, rest)

def isHexDigit (c : Char) : Bool := (Json.hexValue? c).isSome

def inBase? (base : Nat) (s : List Char) : Option Nat := do
  let digits ← (← digits? isHexDigit s).mapM Json.hexValue?
  guard (digits.all (· < base))
  return digits.foldl (fun value digit => base * value + digit) 0

def integer? : List Char → Option Int
  | '0' :: 'x' :: rest => (inBase? 16 rest).map Int.ofNat
  | '0' :: 'o' :: rest => (inBase? 8 rest).map Int.ofNat
  | '0' :: 'b' :: rest => (inBase? 2 rest).map Int.ofNat
  | s =>
    let (sign, rest) := splitSign s
    (wholeDigits? rest).map fun digits => sign * Number.ofDigits digits

/-- Numbers from here on round to infinity: halfway between the largest finite value and the
power of two above it. -/
def overflowBound : Nat := Nat.pow 2 1024 - Nat.pow 2 970

/-- Whether `digits * 10 ^ exponent` rounds to infinity. No finite value has more than 309 whole
digits. -/
def isTooLarge (digits : List Nat) (exponent : Int) : Bool :=
  let digits := digits.dropWhile (· = 0)
  let magnitude : Int := exponent + digits.length
  if digits.isEmpty || magnitude ≤ 300 then false
  else if 400 < magnitude then true
  else
    overflowBound * Nat.pow 10 (-exponent).toNat ≤
      Number.ofDigits digits * Nat.pow 10 exponent.toNat

/-- Whole digits with a fraction, an exponent or both. -/
def decimalFloat? (s : List Char) : Option Bool := do
  let mantissa := s.takeWhile fun c => c ≠ 'e' && c ≠ 'E'
  let exponent ← match s.drop mantissa.length with
    | [] => some 0
    | _ :: rest =>
      let (sign, rest) := splitSign rest
      (decimalDigits? rest).map fun digits => sign * Number.ofDigits digits
  let whole := mantissa.takeWhile (· ≠ '.')
  let fraction ← match mantissa.drop whole.length with
    | [] => some []
    | _ :: rest => decimalDigits? rest
  guard (whole.length < s.length)
  let whole ← wholeDigits? whole
  return isTooLarge (whole ++ fraction) (exponent - fraction.length)

/-- Whether a floating-point number is too large; `none` for other texts. -/
def float? (s : List Char) : Option Bool :=
  match (splitSign s).2 with
  | ['i', 'n', 'f'] => some false
  | ['n', 'a', 'n'] => some false
  | rest => decimalFloat? rest

-- ---------------------------------------------------------------------------
-- Dates and times
-- ---------------------------------------------------------------------------

/-- Exactly `width` digits, and the rest. -/
def fixedDigits? (width : Nat) (s : List Char) : Option (Nat × List Char) := do
  let digits := s.take width
  guard (digits.length = width && digits.all Char.isDigit)
  return (Number.ofDigits (digits.map Number.digitValue), s.drop width)

def expect? (mark : Char) : List Char → Option (List Char)
  | c :: rest => if c = mark then some rest else none
  | [] => none

def date? (s : List Char) : Option (List Char) := do
  let (year, rest) ← fixedDigits? 4 s
  let (month, rest) ← fixedDigits? 2 (← expect? '-' rest)
  let (day, rest) ← fixedDigits? 2 (← expect? '-' rest)
  guard (Date.mk year month day).isValid
  return rest

/-- Hours and minutes, the minutes behind a colon. -/
def hourMinute? (s : List Char) : Option (List Char) := do
  let (hour, rest) ← fixedDigits? 2 s
  let (minute, rest) ← fixedDigits? 2 (← expect? ':' rest)
  guard (hour < 24 && minute < 60)
  return rest

def fraction? : List Char → Option (List Char)
  | '.' :: rest => do
    guard ((rest.head?.map Char.isDigit).getD false)
    return rest.dropWhile Char.isDigit
  | rest => some rest

/-- Seconds may be left out, and their fraction with them. -/
def time? (s : List Char) : Option (List Char) := do
  match ← hourMinute? s with
  | ':' :: rest =>
    let (second, rest) ← fixedDigits? 2 rest
    guard (second ≤ 60)
    fraction? rest
  | rest => return rest

def offset? : List Char → Option (List Char)
  | 'Z' :: rest => some rest
  | 'z' :: rest => some rest
  | '+' :: rest => hourMinute? rest
  | '-' :: rest => hourMinute? rest
  | rest => some rest

/-- A date, a time, or a date with a time and perhaps an offset. -/
def dateTimeRest? (s : List Char) : Option (List Char) :=
  match date? s with
  | none => time? s
  | some (mark :: rest) =>
    if mark = 'T' || mark = 't' || mark = ' ' then time? rest >>= offset? else none
  | some [] => some []

def isDateTime (s : List Char) : Bool :=
  dateTimeRest? s = some []

/-- Whether the text is a date alone, which a space and a time may follow. -/
def isDate (s : List Char) : Bool :=
  date? s = some []

def scalar? (s : List Char) : Option Value :=
  if s = "true".toList then some (.boolean true)
  else if s = "false".toList then some (.boolean false)
  else if isDateTime s then some .dateTime
  else ((integer? s).map .integer).or ((float? s).map .float)

end DeclarativeSql.Toml
