import DeclarativeSql.Decimal.Binary64

/-!
# The fewest digits that read back

The reals that round to a binary value form an interval around it, with its ends
exactly when the significand is even. `Binary64.shortest` takes the coarsest
decimal grid with a point in that interval and, of the points of that grid, the
nearest one; of two equally near points the even one. All arithmetic is exact.
-/

namespace DeclarativeSql

/-- The number `digits * 10 ^ exponent`. -/
structure Decimal where
  digits : Nat
  exponent : Int
  deriving DecidableEq

namespace Binary64

/-- The factors of `a * 2 ^ (exponent - 2) = d * 10 ^ grid`, cleared of negative powers:
the equation holds when `a * binaryFactor = d * decimalFactor`. -/
def binaryFactor (x : Binary64) (grid : Int) : Nat :=
  Nat.pow 2 (x.exponent - 2).toNat * Nat.pow 10 (-grid).toNat

def decimalFactor (x : Binary64) (grid : Int) : Nat :=
  Nat.pow 2 (2 - x.exponent).toNat * Nat.pow 10 grid.toNat

/-- Whether the grid point `digits * 10 ^ grid` rounds to the magnitude of the value. -/
def roundsFrom (x : Binary64) (grid : Int) (digits : Nat) : Bool :=
  let middle := 4 * x.significand
  let low := (if x.isNarrowBelow then middle - 1 else middle - 2) * x.binaryFactor grid
  let high := (middle + 2) * x.binaryFactor grid
  let point := digits * x.decimalFactor grid
  if x.significand % 2 = 0 then low ≤ point && point ≤ high else low < point && point < high

/-- The neighbour of the value on the grid that rounds to it, if there is one. -/
def nearestOnGrid? (x : Binary64) (grid : Int) : Option Decimal :=
  let value := 4 * x.significand * x.binaryFactor grid
  let below := value / x.decimalFactor grid
  let middle := (2 * below + 1) * x.decimalFactor grid
  let nearest :=
    if 2 * value < middle then below
    else if middle < 2 * value then below + 1
    else if below % 2 = 0 then below else below + 1
  let other := if nearest = below then below + 1 else below
  if x.roundsFrom grid nearest then some ⟨nearest, grid⟩
  else if x.roundsFrom grid other then some ⟨other, grid⟩
  else none

/-- A grid with no point but zero up to the value: ten to this power exceeds every value with
the same leading bit. -/
def coarsestGrid (x : Binary64) : Int :=
  ((Nat.log2 x.significand : Int) + x.exponent + 1) * 30103 / 100000 + 1

/-- The exact magnitude of a finite value. -/
def exactDecimal (x : Binary64) : Decimal :=
  ⟨x.significand * Nat.pow 2 x.exponent.toNat * Nat.pow 5 (-x.exponent).toNat, min x.exponent 0⟩

/-- The shortest decimal that reads back to the magnitude of a finite value. Seventeen digits
always suffice, so the search ends; the exact value stands behind it. -/
def shortest (x : Binary64) : Decimal :=
  if x.isZero then ⟨0, 0⟩
  else
    let grids := (List.range 24).map fun (step : Nat) => x.coarsestGrid - (step : Int)
    (grids.findSome? x.nearestOnGrid?).getD x.exactDecimal

end Binary64

end DeclarativeSql
