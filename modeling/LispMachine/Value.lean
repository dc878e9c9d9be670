/-!
Lisp values. A value is a small integer (a *fixnum*), a symbol named by its place in the
symbol table, or a reference to an object of the heap. Two values are the same (`eq`) exactly
when they are equal as data, so strings, lists and floats are compared by where they live.
A variable without a value is not a value: cells hold an `Option Value`.
-/

set_option autoImplicit false

namespace LispMachine

/-- A value: a fixnum, a symbol, or the address of a heap object. -/
inductive Value where
  | fixnum (n : Int)
  | symbol (index : Nat)
  | object (address : Nat)
  deriving DecidableEq

namespace Value

/-- The largest fixnum. -/
def mostPositiveFixnum : Int := 0xFFFFFFFFFFFFFFF

/-- The smallest fixnum. -/
def mostNegativeFixnum : Int := -0x1000000000000000

/-- Whether an integer is small enough to be a fixnum. -/
def fitsFixnum (n : Int) : Bool :=
  mostNegativeFixnum ≤ n && n ≤ mostPositiveFixnum

/-- The fixnum of an integer, if it is small enough. -/
def ofInt? (n : Int) : Option Value :=
  if fitsFixnum n then some (.fixnum n) else none

/-- The empty list, which is also falsehood: the first symbol of every table. -/
def nil : Value := .symbol 0

/-- Truth: the second symbol of every table. -/
def t : Value := .symbol 1

instance : Inhabited Value := ⟨nil⟩

/-- Truth and falsehood as values. -/
def ofBool (b : Bool) : Value := if b then t else nil

/-- An integer as a value that is not checked for its size. A value has 61 bits for a fixnum and
keeps the lowest ones. -/
def ofInt (n : Int) : Value := .fixnum (Int.bmod n 0x2000000000000000)

/-- A count or a position as a value. -/
def ofNat (n : Nat) : Value := .ofInt n

/-- A character as a value: its code point. -/
def ofChar (c : Char) : Value := .fixnum c.toNat

def isNil (v : Value) : Bool := v == nil

def isSymbol : Value → Bool
  | .symbol _ => true
  | _ => false

def isFixnum : Value → Bool
  | .fixnum _ => true
  | _ => false

def asFixnum? : Value → Option Int
  | .fixnum n => some n
  | _ => none

end Value

end LispMachine
