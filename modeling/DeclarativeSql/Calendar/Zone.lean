import DeclarativeSql.Calendar.Date
import DeclarativeSql.Text.Basic

/-!
# Zones

A zone says which calendar date an instant falls on. The local zone of the process is UTC.
The offset of a fixed zone is given in seconds east of UTC and is less than a day.
-/

namespace DeclarativeSql

inductive Zone where
  | local
  | fixed (offset : Int)
  deriving DecidableEq

/-- Why a text is not an offset. -/
inductive OffsetError where
  | tooShort
  | invalid
  | outOfRange
  deriving DecidableEq

def OffsetError.message : OffsetError → String
  | .tooShort => "premature end of input"
  | .invalid => "input contains invalid characters"
  | .outOfRange => "input is out of range"

namespace Zone

def secondsPerDay : Nat := 86400

def offset : Zone → Int
  | .local => 0
  | .fixed offset => offset

/-- Two characters for digits; less than two bytes are too short. -/
def scanTwo : List Char → Except OffsetError (Char × Char × List Char)
  | [] => .error .tooShort
  | [c] => .error (if c.toNat < 0x80 then .tooShort else .invalid)
  | a :: b :: rest => .ok (a, b, rest)

def scanHours (s : List Char) : Except OffsetError (Nat × List Char) := do
  let (a, b, rest) ← scanTwo s
  if a.isDigit && b.isDigit then return ((a.toNat - 0x30) * 10 + (b.toNat - 0x30), rest)
  else throw .invalid

def scanMinutes (s : List Char) : Except OffsetError (Nat × List Char) := do
  let (minutes, rest) ← scanHours s
  if minutes < 60 then return (minutes, rest) else throw .outOfRange

def scanSign : List Char → Except OffsetError (Int × List Char)
  | [] => .error .tooShort
  | '+' :: rest => .ok (1, rest)
  | '-' :: rest => .ok (-1, rest)
  | '\u2212' :: rest => .ok (-1, rest)
  | _ => .error .invalid

/-- A sign, two digits of hours, any colons and white space, and two digits of minutes. -/
def scanOffset (s : List Char) : Except OffsetError (Int × List Char) := do
  let (sign, rest) ← scanSign s
  let (hours, rest) ← scanHours rest
  let (minutes, rest) ← scanMinutes (rest.dropWhile fun c => c = ':' || Text.isBlankChar c)
  return (sign * (hours * 3600 + minutes * 60 : Nat), rest)

def isInDay (offset : Int) : Bool :=
  offset.natAbs < secondsPerDay

/-- The offset at the front of a text; what follows it does not matter. -/
def offsetOfText (s : List Char) : Except OffsetError Int := do
  let (offset, _) ← scanOffset s
  if isInDay offset then return offset else throw .outOfRange

structure Error where
  text : String
  reason : OffsetError
  deriving DecidableEq

def Error.message (error : Error) : String :=
  "invalid timezone '" ++ error.text ++ "': " ++ error.reason.message

def ofText (text : String) : Except Error Zone :=
  let name := String.ofList ((Text.trim text).toList.map Text.lowerAscii)
  if name = "local" then .ok .local
  else if name = "utc" || name = "z" then .ok (.fixed 0)
  else
    match offsetOfText name.toList with
    | .ok offset => .ok (.fixed offset)
    | .error reason => .error ⟨text, reason⟩

end Zone

end DeclarativeSql
