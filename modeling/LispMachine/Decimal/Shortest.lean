import LispMachine.Decimal.Binary

/-!
The shortest decimal of a double: the decimal with the fewest digits among those that read back
as the same double, and among these the nearest to it; of two equally near, the larger. Decimals
with `n` digits lie on a grid; the two neighbours of the value on that grid are tried for
`n = 1, 2, …` until one lies in the interval of numbers that round to the double. The ends of
that interval belong to it exactly when the double's mantissa is even.
-/

set_option autoImplicit false

namespace LispMachine

/-- The decimal `digits * 10 ^ exponent`. -/
structure Decimal where
  digits : Nat
  exponent : Int
  deriving DecidableEq

namespace Decimal

/-- The numbers that round to a double, as fractions over one denominator. -/
structure RoundingInterval where
  low : Nat
  value : Nat
  high : Nat
  denominator : Nat
  inclusive : Bool

/-- The rounding interval of a positive double. Below a power of two the gap is half as wide. -/
def RoundingInterval.of (x : BinaryFloat) : RoundingInterval :=
  let unit := Nat.pow 2 (x.exponent - 2).toNat
  let below :=
    if x.mantissa = BinaryFloat.leadingBit ∧ BinaryFloat.leastExponent < x.exponent then 1 else 2
  { low := (4 * x.mantissa - below) * unit
    value := 4 * x.mantissa * unit
    high := (4 * x.mantissa + 2) * unit
    denominator := Nat.pow 2 (2 - x.exponent).toNat
    inclusive := x.mantissa % 2 = 0 }

/-- Whether `candidate * 10 ^ exponent` lies in the interval. -/
def RoundingInterval.contains (interval : RoundingInterval) (candidate : Nat) (exponent : Int) :
    Bool :=
  let scaled := candidate * interval.denominator * Nat.pow 10 exponent.toNat
  let low := interval.low * Nat.pow 10 (-exponent).toNat
  let high := interval.high * Nat.pow 10 (-exponent).toNat
  if interval.inclusive then low ≤ scaled && scaled ≤ high else low < scaled && scaled < high

/-- Whether the value is at least `10 ^ exponent`. -/
def RoundingInterval.reaches (interval : RoundingInterval) (exponent : Int) : Bool :=
  interval.denominator * Nat.pow 10 exponent.toNat ≤ interval.value * Nat.pow 10 (-exponent).toNat

/-- The exponent of the least power of ten above the value. -/
def RoundingInterval.magnitude (interval : RoundingInterval) (x : BinaryFloat) : Int :=
  let guess : Int := ((Nat.log2 x.mantissa + x.exponent) * 1233).fdiv 4096 + 1
  if interval.reaches guess then guess + 1
  else if interval.reaches (guess - 1) then guess
  else guess - 1

/-- The nearer of the value's two neighbours among the multiples of `10 ^ exponent`, if one of
them lies in the interval. -/
def RoundingInterval.neighbour? (interval : RoundingInterval) (exponent : Int) : Option Nat :=
  let step := interval.denominator * Nat.pow 10 exponent.toNat
  let value := interval.value * Nat.pow 10 (-exponent).toNat
  let below := value / step
  let nearerBelow := 2 * (value % step) < step
  if interval.contains below exponent ∧ (nearerBelow ∨ ¬ interval.contains (below + 1) exponent)
  then some below
  else if interval.contains (below + 1) exponent then some (below + 1)
  else none

/-- The first grid with a neighbour in the interval, starting with one digit. -/
def search (interval : RoundingInterval) (magnitude : Int) : Nat → Nat → Decimal
  | 0, _ => ⟨0, 0⟩
  | fuel + 1, count =>
    match interval.neighbour? (magnitude - count) with
    | some digits => ⟨digits, magnitude - count⟩
    | none => search interval magnitude fuel (count + 1)

/-- Drop the zeros at the end of the digits. `fuel` bounds how many there can be. -/
def trimZeros : Nat → Decimal → Decimal
  | 0, decimal => decimal
  | fuel + 1, decimal =>
    if decimal.digits ≠ 0 ∧ decimal.digits % 10 = 0 then
      trimZeros fuel ⟨decimal.digits / 10, decimal.exponent + 1⟩
    else decimal

/-- The shortest decimal of a positive finite double. Seventeen digits always suffice. -/
def shortest (x : BinaryFloat) : Decimal :=
  let interval := RoundingInterval.of x
  trimZeros 18 (search interval (interval.magnitude x) 17 1)

end Decimal

end LispMachine
