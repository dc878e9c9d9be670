import LispMachine.Primitive.Argument

/-!
The arithmetic primitives. Sums, products and differences are computed from left to right. A
comparison of several numbers holds when it holds between each and the next.
-/

set_option autoImplicit false

namespace LispMachine

namespace Storage

/-- The numbers in some values. -/
def numbers : List Value → Storage (List Number)
  | [] => return []
  | value :: values => do
    let first ← number value
    return first :: (← numbers values)

/-- The result of an operation on two numbers. -/
def combine (operation : ArithmeticOperation) (a b : Number) : Storage Number := do
  match Number.combine? operation a b with
  | some result => return result
  | none => error Symbols.arithError []

/-- The result of an operation on an accumulator and each of some numbers in turn. -/
def combineAll (operation : ArithmeticOperation) (accumulator : Number) :
    List Number → Storage Number
  | [] => return accumulator
  | next :: rest => do combineAll operation (← combine operation accumulator next) rest

/-- The sum of the arguments. -/
def plus (arguments : List Value) : Storage Value := do
  makeNumber (← combineAll .add (.integer 0) (← numbers arguments))

/-- The product of the arguments. -/
def times (arguments : List Value) : Storage Value := do
  makeNumber (← combineAll .multiply (.integer 1) (← numbers arguments))

/-- The negative of one argument, or the first less the others. -/
def minus : List Value → Storage Value
  | [] => return .fixnum 0
  | [value] => do
    let n ← number value
    let negated ← combine .subtract (.integer 0) n
    match n with
    | .float x => makeNumber (.float x.negate)
    | .integer _ => makeNumber negated
  | first :: rest => do
    let first ← number first
    makeNumber (← combineAll .subtract first (← numbers rest))

/-- The first argument divided by the others, or the reciprocal of one argument. With a float
among the arguments all are divided as floats. -/
def quotient (arguments : List Value) : Storage Value := do
  let all ← numbers arguments
  let all := if all.any Number.isFloat then all.map fun n => .float n.toDouble else all
  match all with
  | [] => return .fixnum 0
  | [only] => makeNumber (← combine .divide (.integer 1) only)
  | first :: rest => makeNumber (← combineAll .divide first rest)

/-- The remainder of a division toward zero. -/
def remainder (dividend divisor : Value) : Storage Value := do
  let x ← positionArgument dividend
  let y ← positionArgument divisor
  if y = 0 then error Symbols.arithError []
  makeNumber (.integer (Int.tmod x y))

def addOne (value : Value) : Storage Value := do
  makeNumber (← combine .add (← number value) (.integer 1))

def subtractOne (value : Value) : Storage Value := do
  makeNumber (← combine .subtract (← number value) (.integer 1))

def absoluteValue (value : Value) : Storage Value := do
  match ← number value with
  | .integer n => makeNumber (.integer (n.natAbs : Int))
  | .float x => makeNumber (.float x.magnitude)

/-- The number as a float; a float is given back itself. -/
def toFloat (value : Value) : Storage Value := do
  match ← number value with
  | .integer n => makeFloat (.ofInt n)
  | .float _ => return value

/-- Whether a relation holds between each number and the next. -/
def chained (relation : Number → Number → Bool) : List Number → Bool
  | a :: b :: rest => relation a b && chained relation (b :: rest)
  | _ => true

/-- Compare each argument with the next. -/
def compareWith (relation : Number → Number → Bool) (arguments : List Value) : Storage Value := do
  return .ofBool (chained relation (← numbers arguments))

def numbersEqual : List Value → Storage Value := compareWith Number.same

def less : List Value → Storage Value := compareWith Number.less

def greater : List Value → Storage Value := compareWith fun a b => Number.less b a

def lessOrEqual : List Value → Storage Value := compareWith Number.atMost

def greaterOrEqual : List Value → Storage Value := compareWith fun a b => Number.atMost b a

/-- The first of some values whose number no later one beats. -/
def bestOf (beats : Number → Number → Bool) (best : Value × Number) :
    List (Value × Number) → Value × Number
  | [] => best
  | next :: rest => bestOf beats (if beats next.2 best.2 then next else best) rest

/-- The argument that no other beats; it becomes a float if there is one among the arguments. -/
def extremum (beats : Number → Number → Bool) (arguments : List Value) : Storage Value := do
  let all ← numbers arguments
  match arguments.zip all with
  | [] => return .nil
  | first :: rest =>
    let (value, best) := bestOf beats first rest
    match best with
    | .integer n => if all.any Number.isFloat then makeFloat (.ofInt n) else return value
    | .float _ => return value

def maximum : List Value → Storage Value := extremum fun a b => Number.less b a

def minimum : List Value → Storage Value := extremum Number.less

end Storage

end LispMachine
