import DeclarativeSql.Decimal.Notation

/-!
# JSON numbers

A whole literal that fits 64 bits, signed or unsigned, stays an integer; every
other literal is a binary floating-point value. Its digits gather in a 64-bit
significand while they fit; whole digits beyond that only raise the power of ten
and further fraction digits are dropped. The significand is then multiplied or
divided by one power of ten, so the last bit may differ from the nearest value.
-/

namespace DeclarativeSql

inductive Number where
  | int (value : Int)
  | float (value : Binary64)
  deriving DecidableEq

namespace Number

def ofFloat? (x : Float) : Option Number :=
  let value := Binary64.ofFloat x
  if value.isFinite then some (.float value) else none

/-- The digits of a literal as written. The fraction is empty when there is no point. -/
structure Literal where
  isNegative : Bool
  whole : List Nat
  fraction : List Nat
  exponent : Option Int
  deriving DecidableEq

def digitValue (c : Char) : Nat :=
  c.toNat - '0'.toNat

def ofDigits (digits : List Nat) : Nat :=
  digits.foldl (fun value digit => 10 * value + digit) 0

/-- The longest run of digits at the front, and the rest. -/
def spanDigits (s : List Char) : List Nat × List Char :=
  ((s.takeWhile Char.isDigit).map digitValue, s.dropWhile Char.isDigit)

namespace Literal

def scanFraction? : List Char → Option (List Nat × List Char)
  | '.' :: rest =>
    match spanDigits rest with
    | ([], _) => none
    | found => some found
  | rest => some ([], rest)

def scanPower? (sign : Int) (s : List Char) : Option (Option Int × List Char) :=
  match spanDigits s with
  | ([], _) => none
  | (digits, rest) => some (some (sign * ofDigits digits), rest)

def scanExponent? : List Char → Option (Option Int × List Char)
  | c :: rest =>
    if c = 'e' || c = 'E' then
      match rest with
      | '+' :: rest => scanPower? 1 rest
      | '-' :: rest => scanPower? (-1) rest
      | rest => scanPower? 1 rest
    else some (none, c :: rest)
  | [] => some (none, [])

def scanUnsigned? (isNegative : Bool) (s : List Char) : Option (Literal × List Char) := do
  let (whole, rest) := spanDigits s
  match whole with
  | [] => none
  | 0 :: _ :: _ => none
  | whole =>
    let (fraction, rest) ← scanFraction? rest
    let (exponent, rest) ← scanExponent? rest
    return (⟨isNegative, whole, fraction, exponent⟩, rest)

/-- The literal at the front of the text, and the rest. -/
def scan? : List Char → Option (Literal × List Char)
  | '-' :: rest => scanUnsigned? true rest
  | rest => scanUnsigned? false rest

end Literal

/-- Adds digits to a significand while it fits 64 bits; gives back the digits left over. -/
def gather (significand : Nat) : List Nat → Nat × List Nat
  | [] => (significand, [])
  | digit :: rest =>
    if significand * 10 + digit < Nat.pow 2 64 then gather (significand * 10 + digit) rest
    else (significand, digit :: rest)

def powerOfTen (exponent : Nat) : Float :=
  Float.ofScientific 1 false exponent

/-- Scales by a power of ten, or `none` beyond the largest finite value. Powers below
`10 ^ -308` are applied in steps. -/
def scale (x : Float) (exponent : Int) : Option Float :=
  if 0 ≤ exponent then
    if 308 < exponent then if x == 0 then some x else none
    else
      let scaled := x * powerOfTen exponent.toNat
      if scaled.isInf then none else some scaled
  else if -308 ≤ exponent then some (x / powerOfTen (-exponent).toNat)
  else if x == 0 then some x
  else scale (x / powerOfTen 308) (exponent + 308)
termination_by (-exponent).toNat

def ofScaled? (isNegative : Bool) (significand : Nat) (exponent : Int) : Option Number :=
  (scale (Float.ofNat significand) exponent).map fun x =>
    .float (.ofFloat (if isNegative then -x else x))

/-- A written exponent beyond 32 bits stands for zero or for no number at all. -/
def ofHugeExponent? (isNegative : Bool) (significand : Nat) (exponent : Int) : Option Number :=
  let zero : Float := if isNegative then -0.0 else 0.0
  if significand = 0 || exponent < 0 then some (.float (.ofFloat zero)) else none

/-- The value of a literal, or `none` when it is too large. -/
def ofLiteral? (literal : Literal) : Option Number :=
  let (significand, extra) := gather 0 literal.whole
  match literal.fraction, literal.exponent, extra with
  | [], none, [] =>
    if !literal.isNegative then some (.int significand)
    else if 0 < significand && significand ≤ Nat.pow 2 63 then some (.int (-significand))
    else ofScaled? true significand 0
  | fraction, exponent, extra =>
    let (significand, dropped) := gather significand fraction
    let shift : Int := extra.length - (fraction.length - dropped.length : Nat)
    let power := exponent.getD 0
    if power.natAbs < Nat.pow 2 31 then ofScaled? literal.isNegative significand (shift + power)
    else ofHugeExponent? literal.isNegative significand power

/-- Integers as digits; other values with the fewest digits that read back. -/
def wireText : Number → String
  | .int value => toString value
  | .float value => (if value.isNegative then "-" else "") ++ value.shortest.render "+"

end Number

end DeclarativeSql
