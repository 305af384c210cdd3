import DeclarativeSql.Decimal.Shortest

/-!
# Decimal notation

A decimal is written in full while its leading digit stands for a power of ten
from `10 ^ -5` to `10 ^ 15`, with at least one digit on either side of the point,
and otherwise as one digit, the further digits and an exponent.
-/

namespace DeclarativeSql.Decimal

def digitText (d : Decimal) : String :=
  toString d.digits

/-- The power of ten of the leading digit. -/
def magnitude (d : Decimal) : Int :=
  d.exponent + d.digitText.length - 1

def zeros (count : Nat) : String :=
  String.ofList (List.replicate count '0')

/-- A nonnegative exponent gives whole digits, padded with zeros. -/
def wholeText (d : Decimal) : String :=
  d.digitText ++ zeros d.exponent.toNat

def positional (d : Decimal) : String :=
  if 0 ≤ d.exponent then d.wholeText ++ ".0"
  else if 0 ≤ d.magnitude then
    let (whole, fraction) := d.digitText.toList.splitAt (d.magnitude.toNat + 1)
    String.ofList whole ++ "." ++ String.ofList fraction
  else "0." ++ zeros (-d.magnitude - 1).toNat ++ d.digitText

/-- One digit, the further digits behind a point, and the exponent; `plus` marks a positive one. -/
def scientific (plus : String) (d : Decimal) : String :=
  let mantissa := match d.digitText.toList with
    | [] => ""
    | [lead] => String.ofList [lead]
    | lead :: rest => String.ofList (lead :: '.' :: rest)
  mantissa ++ "e" ++ (if 0 ≤ d.magnitude then plus else "") ++ toString d.magnitude

def render (plus : String) (d : Decimal) : String :=
  if -5 ≤ d.magnitude && d.magnitude ≤ 15 then d.positional else d.scientific plus

end DeclarativeSql.Decimal
