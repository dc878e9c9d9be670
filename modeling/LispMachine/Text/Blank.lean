import LispMachine.Text.CharRanges

/-!
Blanks: the characters with the White_Space property.
-/

set_option autoImplicit false

namespace LispMachine

/-- The characters that count as white space. -/
def blanks : CharRanges :=
  ⟨[(0x9, 0xd), (0x20, 0x20), (0x85, 0x85), (0xa0, 0xa0), (0x1680, 0x1680), (0x2000, 0x200a),
    (0x2028, 0x2029), (0x202f, 0x202f), (0x205f, 0x205f), (0x3000, 0x3000)]⟩

/-- Whether a character is white space. -/
def isBlank (c : Char) : Bool := blanks.contains c

end LispMachine
