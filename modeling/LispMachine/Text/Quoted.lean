import LispMachine.Text.Unprintable

/-!
Texts quoted in messages: in double quotes, with a backslash before quotes and backslashes, the
usual letters for tab, line feed, carriage return and NUL, and the code point in braces for every
other character that cannot be shown.
-/

set_option autoImplicit false

namespace LispMachine

/-- Lower-case hexadecimal digits. -/
def hexadecimal (n : Nat) : String := String.ofList (Nat.toDigits 16 n)

/-- A character inside a quoted text. -/
def quotedChar (c : Char) : String :=
  if c = '"' then "\\\""
  else if c = '\\' then "\\\\"
  else if c = '\n' then "\\n"
  else if c = '\r' then "\\r"
  else if c = '\t' then "\\t"
  else if c.toNat = 0 then "\\0"
  else if isUnprintable c then "\\u\x7b" ++ hexadecimal c.toNat ++ "\x7d"
  else String.ofList [c]

/-- A text in quotes. -/
def quoted (text : String) : String :=
  text.toList.foldl (fun out c => out ++ quotedChar c) "\"" ++ "\""

end LispMachine
