import LispMachine.Decimal.Binary

/-!
Floats as a machine keeps them: by their 64 bits. Of the floats to compute with only one is not a
number; among these each sign has one. Negation and equality go by the bits, and so tell the two
apart.
-/

set_option autoImplicit false

namespace LispMachine

/-- A float by its sign, exponent and fraction. -/
structure Double where
  bits : UInt64
  deriving DecidableEq

namespace Double

def ofFloat (x : Float) : Double := ⟨x.toBits⟩

/-- The float nearest to an integer. -/
def ofInt (n : Int) : Double := ofFloat (floatOfInt n)

def toFloat (x : Double) : Float := Float.ofBits x.bits

def isNaN (x : Double) : Bool := x.toFloat.isNaN

def signBit : UInt64 := 0x8000000000000000

def isNegative (x : Double) : Bool := x.bits &&& signBit != 0

def negate (x : Double) : Double := ⟨x.bits ^^^ signBit⟩

def magnitude (x : Double) : Double := ⟨x.bits &&& ~~~signBit⟩

/-- What an operation gives on numbers for which it has no result. -/
def invalid : Double := ⟨0xFFF8000000000000⟩

/-- The result of an operation. An operand that is not a number is the result itself. -/
def compute (operation : Float → Float → Float) (a b : Double) : Double :=
  if a.isNaN then a
  else if b.isNaN then b
  else
    let result := operation a.toFloat b.toFloat
    if result.isNaN then invalid else ofFloat result

end Double

end LispMachine
