import LispMachine.Decimal.Binary

/-!
Decimal numerals: an optional sign, digits, and perhaps a point among or around the digits. A
numeral without a point names an integer; every numeral names the float nearest to it.
-/

set_option autoImplicit false

namespace LispMachine

/-- The number that some decimal digits spell. -/
def digitsValue (digits : List Char) : Nat :=
  digits.foldl (fun n c => 10 * n + (c.toNat - '0'.toNat)) 0

/-- Whether a sign is negative, and the characters after it. -/
def splitSign : List Char → Bool × List Char
  | '-' :: rest => (true, rest)
  | '+' :: rest => (false, rest)
  | chars => (false, chars)

/-- The integer that characters spell: digits after an optional sign. -/
def parseInteger? (chars : List Char) : Option Int :=
  let (negative, digits) := splitSign chars
  if digits.isEmpty || !digits.all Char.isDigit then none
  else some (if negative then -(digitsValue digits : Int) else digitsValue digits)

/-- The float nearest to the decimal that characters spell: digits with at most one point, after
an optional sign. -/
def parseDecimal? (chars : List Char) : Option Float :=
  let (negative, rest) := splitSign chars
  let whole := rest.takeWhile Char.isDigit
  let fraction? :=
    match rest.dropWhile Char.isDigit with
    | [] => some []
    | '.' :: fraction => if fraction.all Char.isDigit then some fraction else none
    | _ => none
  match fraction? with
  | none => none
  | some fraction =>
    if whole.isEmpty && fraction.isEmpty then none
    else
      let magnitude := nearestFloat (digitsValue (whole ++ fraction)) (-(fraction.length : Int))
      some (if negative then -magnitude else magnitude)

end LispMachine
