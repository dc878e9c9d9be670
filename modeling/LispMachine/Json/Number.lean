import LispMachine.Decimal.Binary
import LispMachine.Json.Basic

/-!
JSON numbers. The digits are gathered into a 64-bit significand; digits beyond it only move the
decimal point. A fraction or an exponent makes the number a float: the significand, rounded to a
double, times or divided by one rounded power of ten. Whole numbers outside the 64-bit range are
floats too, and so is minus zero.
-/

set_option autoImplicit false

namespace LispMachine.Json

/-- The largest significand. -/
def maxSignificand : Nat := 0xFFFFFFFFFFFFFFFF

/-- The parts of a number as it is spelled. -/
structure NumberSpelling where
  negative : Bool
  whole : List Nat
  /-- The digits after the point, `none` without a point. -/
  fraction : Option (List Nat)
  /-- The sign (true for a minus) and the digits of the exponent. -/
  exponent : Option (Bool × List Nat)

/-- Gather digits while the significand has room; the digits left over are the second part. -/
def gather (significand : Nat) : List Nat → Nat × List Nat
  | [] => (significand, [])
  | digit :: rest =>
    if maxSignificand < significand * 10 + digit then (significand, digit :: rest)
    else gather (significand * 10 + digit) rest

/-- A power of ten as a double. -/
def powerOfTen (exponent : Nat) : Float := nearestFloat 1 exponent

/-- The greatest power of ten that is a double. -/
def greatestPower : Nat := 308

/-- Scale a double by a power of ten: `none` when the result would be infinite. -/
def scale : Nat → Float → Int → Option Float
  | 0, x, _ => some x
  | fuel + 1, x, exponent =>
    if exponent.natAbs ≤ greatestPower then
      if 0 ≤ exponent then
        let scaled := x * powerOfTen exponent.natAbs
        if scaled.isInf then none else some scaled
      else some (x / powerOfTen exponent.natAbs)
    else if x == 0.0 then some x
    else if 0 ≤ exponent then none
    else scale fuel (x / powerOfTen greatestPower) (exponent + greatestPower)

/-- The largest exponent that is read digit by digit. -/
def maxExponent : Nat := 0x7FFFFFFF

/-- The value of exponent digits, `none` when it exceeds `maxExponent`. -/
def exponentValue? (digits : List Nat) : Option Nat :=
  let value := digits.foldl (fun n digit => n * 10 + digit) 0
  if maxExponent < value then none else some value

def signed (negative : Bool) (x : Float) : Float := if negative then -x else x

/-- A float from its significand and the exponents before and after the `e`. -/
def ofParts (negative : Bool) (significand : Nat) (point : Int)
    (exponent : Option (Bool × List Nat)) : Json :=
  let result (power : Int) : Json :=
    match scale (power.natAbs / greatestPower + 2) (nearestFloat significand 0) power with
    | some x => .float (signed negative x)
    | none => .unreadable
  match exponent with
  | none => result point
  | some (minus, digits) =>
    match exponentValue? digits with
    | some value => result (if minus then point - value else point + value)
    | none =>
      if significand = 0 ∨ minus then .float (signed negative 0.0) else .unreadable

/-- A whole number that fits 64 bits, as an integer where it has one. -/
def ofWhole (negative : Bool) (significand : Nat) : Json :=
  if !negative then .int significand
  else if significand = 0 ∨ 0x8000000000000000 < significand then
    .float (-(nearestFloat significand 0))
  else .int (-(significand : Int))

/-- The number that a spelling means. -/
def ofSpelling (spelling : NumberSpelling) : Json :=
  let (significand, excess) := gather 0 spelling.whole
  match spelling.fraction with
  | none =>
    if excess.isEmpty ∧ spelling.exponent.isNone then ofWhole spelling.negative significand
    else ofParts spelling.negative significand excess.length spelling.exponent
  | some fraction =>
    let (gathered, ignored) := gather significand fraction
    ofParts spelling.negative gathered
      ((excess.length : Int) - (fraction.length - ignored.length : Nat)) spelling.exponent

end LispMachine.Json
