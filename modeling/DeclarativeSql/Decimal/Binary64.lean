/-!
# Binary floating-point values

A 64-bit floating-point value is kept by its bits, so that equality is decidable
and `-0` stays apart from `0`. Its finite magnitude is a natural significand times
a power of two; everything that is printed is computed from these two numbers.
-/

namespace DeclarativeSql

structure Binary64 where
  bits : UInt64
  deriving DecidableEq

namespace Binary64

def ofFloat (x : Float) : Binary64 :=
  ⟨x.toBits⟩

def isNegative (x : Binary64) : Bool :=
  x.bits >>> 63 == 1

/-- The eleven bits that scale the value; all ones mark infinities and NaN. -/
def scaleBits (x : Binary64) : Nat :=
  ((x.bits >>> 52) &&& 0x7FF).toNat

def fractionBits (x : Binary64) : Nat :=
  (x.bits &&& 0xFFFFFFFFFFFFF).toNat

def isFinite (x : Binary64) : Bool :=
  x.scaleBits != 0x7FF

/-- The magnitude of a finite value is `significand * 2 ^ exponent`. -/
def significand (x : Binary64) : Nat :=
  if x.scaleBits = 0 then x.fractionBits else Nat.pow 2 52 + x.fractionBits

def exponent (x : Binary64) : Int :=
  if x.scaleBits = 0 then -1074 else (x.scaleBits : Int) - 1075

/-- Just above a power of two, the gap to the value below is half the gap to the value above. -/
def isNarrowBelow (x : Binary64) : Bool :=
  x.fractionBits == 0 && x.scaleBits > 1

def isZero (x : Binary64) : Bool :=
  x.significand == 0

def isIntegral (x : Binary64) : Bool :=
  x.significand % Nat.pow 2 (-x.exponent).toNat == 0

/-- Whether the magnitude is below `bound`. -/
def isBelow (x : Binary64) (bound : Nat) : Bool :=
  x.significand * Nat.pow 2 x.exponent.toNat < bound * Nat.pow 2 (-x.exponent).toNat

end Binary64

end DeclarativeSql
