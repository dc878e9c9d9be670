import LispMachine.Double
import LispMachine.Store

/-!
Numbers taken out of their values. Integers are computed with exactly as long as the result is a
64-bit integer; a result beyond that, and every result with a float among the operands, is
computed with floats. An integer that is no fixnum is stored as the float nearest to it.
-/

set_option autoImplicit false

namespace LispMachine

/-- A number: an integer of at most 64 bits, or a float. -/
inductive Number where
  | integer (n : Int)
  | float (x : Double)

/-- The four operations of arithmetic. -/
inductive ArithmeticOperation where
  | add
  | subtract
  | multiply
  | divide
  deriving DecidableEq

namespace ArithmeticOperation

/-- The operation on integers; division goes toward zero. -/
def onIntegers : ArithmeticOperation → Int → Int → Int
  | .add, a, b => a + b
  | .subtract, a, b => a - b
  | .multiply, a, b => a * b
  | .divide, a, b => Int.tdiv a b

def onFloats : ArithmeticOperation → Float → Float → Float
  | .add, a, b => a + b
  | .subtract, a, b => a - b
  | .multiply, a, b => a * b
  | .divide, a, b => a / b

end ArithmeticOperation

namespace Number

/-- Whether an integer has a place in 64 bits. -/
def fitsWord (n : Int) : Bool := -0x8000000000000000 ≤ n && n < 0x8000000000000000

def toFloat : Number → Float
  | .integer n => floatOfInt n
  | .float x => x.toFloat

def toDouble : Number → Double
  | .integer n => .ofInt n
  | .float x => x

def isFloat : Number → Bool
  | .integer _ => false
  | .float _ => true

def isNaN (number : Number) : Bool := number.toFloat.isNaN

/-- The result of an operation, `none` for the division of an integer by the integer zero. -/
def combine? (operation : ArithmeticOperation) : Number → Number → Option Number
  | .integer a, .integer b =>
    if operation = .divide ∧ b = 0 then none
    else if fitsWord (operation.onIntegers a b) then some (.integer (operation.onIntegers a b))
    else some (.float (.compute operation.onFloats (.ofInt a) (.ofInt b)))
  | a, b => some (.float (.compute operation.onFloats a.toDouble b.toDouble))

/-- Whether one number is less than another; false when one is not a number. -/
def less : Number → Number → Bool
  | .integer a, .integer b => a < b
  | a, b => a.toFloat < b.toFloat

/-- Whether two numbers have the same value. -/
def same : Number → Number → Bool
  | .integer a, .integer b => a == b
  | a, b => a.toFloat == b.toFloat

/-- Whether one number is at most another; false when one is not a number. -/
def atMost (a b : Number) : Bool := !less b a && !b.isNaN && !a.isNaN

end Number

/-- The number in a value. A marker that points into a buffer counts as its position. -/
def Heap.number? (heap : Heap) : Value → Option Number
  | .fixnum n => some (.integer n)
  | value =>
    match heap.get? value with
    | some (.float x) => some (.float x)
    | some (.marker ⟨some _, position⟩) => some (.integer position)
    | _ => none

namespace Storage

/-- The number in a value, or the error for anything else. -/
def number (value : Value) : Storage Number := do
  match (← get).heap.number? value with
  | some number => return number
  | none => wrongType Symbols.numberOrMarkerP value

/-- The value of a number. -/
def makeNumber : Number → Storage Value
  | .integer n =>
    match Value.ofInt? n with
    | some value => pure value
    | none => makeFloat (.ofInt n)
  | .float x => makeFloat x

end Storage

end LispMachine
