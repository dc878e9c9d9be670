import LispMachine.Text.Alphanumeric

/-!
The class that the standard table of a text editor puts each character in, named by a character:
a space for blanks, `w` for words, `_` for symbols, brackets, quotes, and a point for other
punctuation.
-/

set_option autoImplicit false

namespace LispMachine

/-- Whether a character is a control character. -/
def isControl (c : Char) : Bool := c.toNat < 0x20 || (0x7f ≤ c.toNat && c.toNat < 0xa0)

/-- The name of the class of a character. -/
def characterClass (c : Char) : Char :=
  if " \t\n\r\x0c".toList.contains c then ' '
  else if "([\x7b".toList.contains c then '('
  else if ")]\x7d".toList.contains c then ')'
  else if c = '"' || c = '\\' then c
  else if "_-+*/&|<>=$%".toList.contains c then '_'
  else if isAlphanumeric c then 'w'
  else if isControl c then ' '
  else '.'

end LispMachine
