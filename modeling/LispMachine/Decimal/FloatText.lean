import LispMachine.Decimal.Shortest
import LispMachine.Double

/-!
The text of a float. The digits are those of the shortest decimal; how they are laid out is a
`FloatFormat`: where positional notation ends, and how zero, infinities and what is not a number
are written.
-/

set_option autoImplicit false

namespace LispMachine

/-- How the digits of a float are laid out. -/
structure FloatFormat where
  /-- The least power of ten whose decimals are written positionally. -/
  leastPositional : Int
  /-- The least power of ten from which on an exponent is written. -/
  leastLarge : Int
  zero : String
  negativeZero : String
  infinity : String
  negativeInfinity : String
  notANumber : String
  negativeNotANumber : String

namespace FloatFormat

/-- The decimal digits of a number. -/
def numeral (n : Nat) : String := toString n

/-- `count` zeros. -/
def zeros (count : Nat) : String := String.ofList (List.replicate count '0')

/-- The digits with a point in place, and at least one digit on each side of it. -/
def positional (decimal : Decimal) : String :=
  let digits := numeral decimal.digits
  if 0 ≤ decimal.exponent then digits ++ zeros decimal.exponent.toNat ++ ".0"
  else
    let places := (-decimal.exponent).toNat
    if places < digits.length then
      String.ofList (digits.toList.take (digits.length - places)) ++ "." ++
        String.ofList (digits.toList.drop (digits.length - places))
    else "0." ++ zeros (places - digits.length) ++ digits

/-- One digit before the point, the others after it, and the power of ten. -/
def scientific (decimal : Decimal) : String :=
  let digits := (numeral decimal.digits).toList
  let power := decimal.exponent + digits.length - 1
  match digits with
  | [] => ""
  | [digit] => String.ofList [digit] ++ "e" ++ toString power
  | digit :: rest => String.ofList [digit] ++ "." ++ String.ofList rest ++ "e" ++ toString power

/-- The text of a decimal. -/
def decimal (format : FloatFormat) (decimal : Decimal) : String :=
  let power := decimal.exponent + (numeral decimal.digits).length - 1
  if format.leastPositional ≤ power ∧ power < format.leastLarge then positional decimal
  else scientific decimal

/-- The text of a double. -/
def text (format : FloatFormat) (x : Double) : String :=
  if x.isNaN then if x.isNegative then format.negativeNotANumber else format.notANumber
  else if x.toFloat.isInf then if x.isNegative then format.negativeInfinity else format.infinity
  else
    let magnitude := BinaryFloat.ofFloat x.toFloat
    if magnitude.mantissa = 0 then if x.isNegative then format.negativeZero else format.zero
    else
      let digits := format.decimal (Decimal.shortest magnitude)
      if x.isNegative then "-" ++ digits else digits

end FloatFormat

end LispMachine
