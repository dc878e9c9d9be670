import LispMachine.Decimal.Numeral
import LispMachine.Json.Parser
import LispMachine.Toml.Reader

/-!
Numbers, dates and times of TOML. Single underscores may stand between the digits of a number.
A float must not be too large for a double, though a negative one may. A date must exist in the
calendar.
-/

set_option autoImplicit false

namespace LispMachine.Toml

/-! ### Numbers -/

/-- Digits with single underscores between them. -/
def grouped (isDigit : Char → Bool) : Reader (List Char) :=
  Reader.separated (Reader.runSome isDigit) (Reader.char '_') >>= fun parts => pure parts.flatten

/-- A sign, if there is one: whether it is a minus. -/
def sign : Reader Bool := do
  let mark ← Reader.optional? (Reader.one fun c => c == '+' || c == '-')
  return mark == some '-'

/-- Decimal digits, of which the first is no zero unless it stands alone. -/
def decimalDigits : Reader (List Char) := do
  if (← Reader.peek?) = some '0' then Reader.exactly 1 Char.isDigit else grouped Char.isDigit

/-- The value of digits in a base. -/
def valueIn (base : Nat) (digits : List Char) : Nat :=
  digits.foldl (fun n c => n * base + (Json.hexValue? c).getD 0) 0

/-- The digits of a number in another base, after the mark of the base. -/
def digitsAfter (mark : String) (base : Nat) : Reader Int := do
  Reader.word mark
  let digits ← grouped fun c => (Json.hexValue? c).any (· < base)
  return valueIn base digits

/-- An integer, which must fit 64 bits. -/
def integer : Reader Int := do
  let n ← digitsAfter "0x" 16 <|> digitsAfter "0o" 8 <|> digitsAfter "0b" 2 <|> do
    let negative ← sign
    let n := valueIn 10 (← decimalDigits)
    return if negative then -(n : Int) else n
  if -0x8000000000000000 ≤ n ∧ n < 0x8000000000000000 then return n else failure

/-- The exponent of a float, after its mark. -/
def exponent : Reader Int := do
  let _ ← Reader.one fun c => c == 'e' || c == 'E'
  let negative ← sign
  let n := valueIn 10 (← grouped Char.isDigit)
  return if negative then -(n : Int) else n

/-- The digits after the point of a float. -/
def fraction : Reader (List Char) := do
  Reader.char '.'
  grouped Char.isDigit

/-- Whether `significand * 10 ^ exponent` is too large for a double. -/
def isTooLarge (significand : Nat) (exponent : Int) : Bool :=
  let size := (Nat.toDigits 10 significand).length + exponent
  significand != 0 && (400 < size || (0 < size && (nearestFloat significand exponent).isInf))

/-- A float. Its value is of no use to anyone here. -/
def float : Reader Unit := do
  let negative ← sign
  let special : Reader Unit := Reader.word "inf" <|> Reader.word "nan"
  special <|> do
    let whole ← decimalDigits
    let places ← Reader.optional? fraction
    let power ← if places.isSome then Reader.optional? exponent else some <$> exponent
    let places := places.getD []
    if !negative && isTooLarge (valueIn 10 (whole ++ places)) (power.getD 0 - places.length) then
      failure

/-! ### Dates and times -/

/-- A number of so many digits within bounds. -/
def bounded (count low high : Nat) : Reader Nat := do
  let n := valueIn 10 (← Reader.exactly count Char.isDigit)
  if low ≤ n ∧ n ≤ high then return n else failure

def isLeapYear (year : Nat) : Bool := year % 4 == 0 && (year % 100 != 0 || year % 400 == 0)

def daysOfMonth (year month : Nat) : Nat :=
  if month = 2 then if isLeapYear year then 29 else 28
  else if [4, 6, 9, 11].contains month then 30
  else 31

def date : Reader Unit := do
  let year ← bounded 4 0 9999
  Reader.char '-'
  let month ← bounded 2 1 12
  Reader.char '-'
  let _ ← bounded 2 1 (daysOfMonth year month)

/-- An hour and a minute. -/
def hourAndMinute : Reader Unit := do
  let _ ← bounded 2 0 23
  Reader.char ':'
  let _ ← bounded 2 0 59

/-- A time of day, in which a minute may have a leap second. -/
def time : Reader Unit := do
  hourAndMinute
  Reader.char ':'
  let _ ← bounded 2 0 60
  let _ ← Reader.optional? do
    Reader.char '.'
    Reader.runSome Char.isDigit

/-- How far a time is from the standard one. -/
def offset : Reader Unit := do
  let mark ← Reader.one fun c => "Zz+-".toList.contains c
  if mark = '+' ∨ mark = '-' then hourAndMinute

/-- A date with or without a time of day, or a time of day alone. -/
def dateTime : Reader Unit :=
  (do
    date
    let _ ← Reader.optional? do
      let _ ← Reader.one fun c => c == 'T' || c == 't' || c == ' '
      time
      Reader.optional? offset) <|> time

end LispMachine.Toml
