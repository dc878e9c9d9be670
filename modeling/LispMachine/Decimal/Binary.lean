/-!
Doubles as exact numbers. A finite double is `m * 2 ^ q` for a natural `m` below `2 ^ 53` and an
exponent `q` from -1074 to 971; `BinaryFloat.ofFloat` reads `m` and `q` off its bits. The other
way, `BinaryFloat.nearest` gives the double nearest to a fraction, a tie going to the even
neighbour, by exact division.
-/

set_option autoImplicit false

namespace LispMachine

/-- The magnitude of a finite double: `mantissa * 2 ^ exponent`. -/
structure BinaryFloat where
  mantissa : Nat
  exponent : Int
  deriving DecidableEq

namespace BinaryFloat

/-- The leading bit of a full mantissa, which has 53 bits: `2 ^ 52`. -/
def leadingBit : Nat := 0x10000000000000

/-- The exponent of the smallest positive double. -/
def leastExponent : Int := -1074

/-- The exponent of the largest doubles. -/
def greatestExponent : Int := 971

/-- The magnitude of a finite double. -/
def ofFloat (x : Float) : BinaryFloat :=
  let bits := x.toBits.toNat
  let fraction : Nat := bits % leadingBit
  let biased : Nat := bits / leadingBit % 2048
  if biased = 0 then ⟨fraction, leastExponent⟩
  else ⟨fraction + leadingBit, leastExponent + biased - 1⟩

/-- The double of a magnitude whose mantissa is in range. -/
def toFloat (x : BinaryFloat) : Float :=
  if greatestExponent < x.exponent then Float.ofBits (UInt64.ofNat (2047 * leadingBit))
  else if x.mantissa < leadingBit then Float.ofBits (UInt64.ofNat x.mantissa)
  else
    Float.ofBits (UInt64.ofNat
      ((x.exponent - leastExponent + 1).toNat * leadingBit + (x.mantissa - leadingBit)))

/-- The quotient rounded to the nearest natural, a tie going to the even one. -/
def divideToEven (numerator denominator : Nat) : Nat :=
  let quotient := numerator / denominator
  let twice := 2 * (numerator % denominator)
  if twice < denominator then quotient
  else if denominator < twice then quotient + 1
  else quotient + quotient % 2

/-- The fraction divided by `2 ^ exponent`, as a fraction. -/
def shifted (numerator denominator : Nat) (exponent : Int) : Nat × Nat :=
  if exponent < 0 then (numerator * Nat.pow 2 (-exponent).toNat, denominator)
  else (numerator, denominator * Nat.pow 2 exponent.toNat)

/-- The magnitude nearest to a positive fraction, a tie going to the even mantissa. -/
def nearest (numerator denominator : Nat) : BinaryFloat :=
  let guess : Int := (Nat.log2 numerator : Int) - Nat.log2 denominator - 53
  let scaled := shifted numerator denominator guess
  let exponent := if scaled.1 / scaled.2 < 2 * leadingBit then guess else guess + 1
  let exponent := if exponent < leastExponent then leastExponent else exponent
  let scaled := shifted numerator denominator exponent
  let mantissa := divideToEven scaled.1 scaled.2
  if mantissa = 2 * leadingBit then ⟨leadingBit, exponent + 1⟩ else ⟨mantissa, exponent⟩

end BinaryFloat

/-- The double nearest to the decimal `digits * 10 ^ exponent`. -/
def nearestFloat (digits : Nat) (exponent : Int) : Float :=
  if digits = 0 then 0.0
  else if exponent < 0 then (BinaryFloat.nearest digits (Nat.pow 10 (-exponent).toNat)).toFloat
  else (BinaryFloat.nearest (digits * Nat.pow 10 exponent.toNat) 1).toFloat

/-- The double nearest to an integer. -/
def floatOfInt (n : Int) : Float :=
  if n < 0 then -(nearestFloat n.natAbs 0) else nearestFloat n.natAbs 0

end LispMachine
