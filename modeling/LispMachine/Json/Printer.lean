import LispMachine.Decimal.FloatText
import LispMachine.Json.Basic

/-!
Writing JSON text: no blanks, fields in order, and escapes only where they are needed.
-/

set_option autoImplicit false

namespace LispMachine.Json

/-- Floats in JSON are written with a point or an exponent, so that they read back as floats. -/
def floatFormat : FloatFormat where
  leastPositional := -4
  leastLarge := 16
  zero := "0.0"
  negativeZero := "-0.0"
  infinity := "null"
  negativeInfinity := "null"
  notANumber := "null"
  negativeNotANumber := "null"

/-- A hexadecimal digit. -/
def hexDigit (n : Nat) : Char := Nat.digitChar n

/-- A character of a string. -/
def escapedChar (c : Char) : String :=
  if c = '"' then "\\\""
  else if c = '\\' then "\\\\"
  else if c = '\n' then "\\n"
  else if c = '\r' then "\\r"
  else if c = '\t' then "\\t"
  else if c.toNat < 0x20 then
    "\\u00" ++ String.ofList [hexDigit (c.toNat / 16), hexDigit (c.toNat % 16)]
  else String.ofList [c]

/-- A string in quotes. -/
def renderString (text : String) : String :=
  text.toList.foldl (fun out c => out ++ escapedChar c) "\"" ++ "\""

mutual

/-- The text of a value, put after `out`. An unreadable value has no text of its own. -/
def renderOnto (out : String) : Json → String
  | .null => out ++ "null"
  | .bool b => out ++ if b then "true" else "false"
  | .int n => out ++ toString n
  | .float x => out ++ floatFormat.text (.ofFloat x)
  | .string text => out ++ renderString text
  | .array items => renderItems (out ++ "[") true items ++ "]"
  | .object fields => renderFields (out ++ "\x7b") true fields ++ "\x7d"
  | .unreadable => out ++ "null"

def renderItems (out : String) (first : Bool) : List Json → String
  | [] => out
  | item :: items =>
    renderItems (renderOnto (if first then out else out ++ ",") item) false items

def renderFields (out : String) (first : Bool) : List (String × Json) → String
  | [] => out
  | (name, item) :: fields =>
    renderFields
      (renderOnto ((if first then out else out ++ ",") ++ renderString name ++ ":") item)
      false fields

end

/-- The text of a value. -/
def render (value : Json) : String := renderOnto "" value

end LispMachine.Json
