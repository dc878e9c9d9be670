import LispMachine.Instruction.Operation
import LispMachine.Value

/-!
Values as machine words. Compiled code holds a value in a word of 64 bits. The three lowest bits,
the tag, say what the value is, and the other bits are the fixnum, the place in the symbol table
or the address. The tag of fixnums is zero, so fixnum words are added, subtracted and compared as
they are, and a sum leaves the range of fixnums exactly when the addition of the words overflows.
`Operation.onWord?` and `Operation.onWords?` say what compiled code makes of the words of the
operands of a shortcut, and `Operation.inline?` is the value that it finds so.
-/

set_option autoImplicit false

namespace LispMachine

/-- A word of the machine. -/
abbrev Word := BitVec 64

namespace Word

/-- The three lowest bits. -/
def tag (word : Word) : Word := word &&& 7

/-- The word of a value. -/
def ofValue : Value → Word
  | .fixnum n => BitVec.ofInt 64 (8 * n)
  | .symbol index => BitVec.ofNat 64 (8 * index + 1)
  | .object address => BitVec.ofNat 64 (8 * address + 2)

/-- The value that a word holds. A word with another tag holds none. -/
def value? (word : Word) : Option Value :=
  if word.tag = 0 then some (.fixnum (word.toInt / 8))
  else if word.tag = 1 then some (.symbol (word.toNat / 8))
  else if word.tag = 2 then some (.object (word.toNat / 8))
  else none

/-- The word of a value, for a value that a word has room for. -/
def ofValue? (value : Value) : Option Word :=
  let word := ofValue value
  if word.value? = some value then some word else none

/-- Whether a word holds a fixnum. -/
def isFixnum (word : Word) : Bool := word.tag == 0

/-- Truth and falsehood as words. -/
def ofBool (b : Bool) : Word := if b then ofValue Value.t else ofValue Value.nil

/-! ### Checked arithmetic -/

/-- A result of compiled code. A result that does not stand is left to the primitive. -/
structure Checked where
  word : Word
  stands : Bool
  deriving DecidableEq

/-- The sum of two fixnum words. It stands unless its sign differs from the signs of both. -/
def add (x y : Word) : Checked :=
  let sum := x + y
  ⟨sum, BitVec.sle 0 ((x ^^^ sum) &&& (y ^^^ sum))⟩

/-- The difference of two fixnum words. It stands unless their signs differ and its sign is not
that of the first. -/
def subtract (x y : Word) : Checked :=
  let difference := x - y
  ⟨difference, BitVec.sle 0 ((x ^^^ y) &&& (x ^^^ difference))⟩

/-- The negative of a fixnum word. It stands unless the word is the least one, which is its own
negative. -/
def negate (x : Word) : Checked := ⟨-x, x != BitVec.intMin 64⟩

/-- A result that stands only for words of fixnums. -/
def Checked.provided (result : Checked) (fixnums : Bool) : Checked :=
  { result with stands := fixnums && result.stands }

/-- The value of a result that stands. -/
def Checked.value? (result : Checked) : Option Value :=
  if result.stands then result.word.value? else none

end Word

namespace Operation

/-- What compiled code makes of the word of its operand, for an operation with a shortcut. -/
def onWord? (operation : Operation) (x : Word) : Option Word.Checked :=
  let one := Word.ofValue (.fixnum 1)
  match operation with
  | .isNull => some ⟨Word.ofBool (x == Word.ofValue Value.nil), true⟩
  | .addOne => some ((Word.add x one).provided x.isFixnum)
  | .subtractOne => some ((Word.subtract x one).provided x.isFixnum)
  | .negate => some ((Word.negate x).provided x.isFixnum)
  | _ => none

/-- What compiled code makes of the words of two operands, for an operation with a shortcut. Both
are fixnums when the bits set in either make up a fixnum word. -/
def onWords? (operation : Operation) (x y : Word) : Option Word.Checked :=
  let fixnums := Word.isFixnum (x ||| y)
  match operation with
  | .same => some ⟨Word.ofBool (x == y), true⟩
  | .plus => some ((Word.add x y).provided fixnums)
  | .difference => some ((Word.subtract x y).provided fixnums)
  | .numEqual => some ⟨Word.ofBool (x == y), fixnums⟩
  | .greater => some ⟨Word.ofBool (BitVec.slt y x), fixnums⟩
  | .less => some ⟨Word.ofBool (BitVec.slt x y), fixnums⟩
  | .lessOrEqual => some ⟨Word.ofBool (BitVec.sle x y), fixnums⟩
  | .greaterOrEqual => some ⟨Word.ofBool (BitVec.sle y x), fixnums⟩
  | _ => none

/-- The result that compiled code finds with the words of the operands alone, if it does. -/
def inline? (operation : Operation) : List Value → Option Value
  | [a] => do (← operation.onWord? (← Word.ofValue? a)).value?
  | [a, b] => do (← operation.onWords? (← Word.ofValue? a) (← Word.ofValue? b)).value?
  | _ => none

end Operation

end LispMachine
