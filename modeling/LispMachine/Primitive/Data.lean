import LispMachine.Callable
import LispMachine.Heap.Equality
import LispMachine.Primitive.Argument
import LispMachine.Variable

/-!
The primitives on values as such: what kind of value something is, whether two values are equal,
and what is stored at a symbol.
-/

set_option autoImplicit false

namespace LispMachine

namespace Storage

open LispMachine.Action

/-! ### Predicates -/

/-- A predicate that depends on the heap alone. -/
def testHeap (test : Heap → Value → Bool) (value : Value) : Storage Value := do
  return .ofBool (test (← get).heap value)

def symbolp (value : Value) : Storage Value := return .ofBool value.isSymbol

def integerp (value : Value) : Storage Value := return .ofBool value.isFixnum

def consp : Value → Storage Value := testHeap Heap.isCons

def stringp : Value → Storage Value := testHeap fun heap value => (heap.string? value).isSome

def listp : Value → Storage Value := testHeap Heap.isList

def numberp : Value → Storage Value := testHeap Heap.isNumber

def vectorp : Value → Storage Value := testHeap fun heap value => (heap.vector? value).isSome

def markerp : Value → Storage Value := testHeap fun heap value => (heap.marker? value).isSome

def bufferp : Value → Storage Value := testHeap fun heap value =>
  match heap.get? value with
  | some (.buffer _) => true
  | _ => false

def functionp (value : Value) : Storage Value := do
  return .ofBool ((← get).isFunction value)

def null (value : Value) : Storage Value := return .ofBool value.isNil

/-! ### Equality -/

/-- Whether two values are the same. -/
def eq (a b : Value) : Storage Value := return .ofBool (a == b)

def eql (a b : Value) : Storage Value := do return .ofBool ((← get).heap.eql a b)

def equal (a b : Value) : Storage Value := do return .ofBool ((← get).heap.equal a b)

def identity (value : Value) : Storage Value := return value

/-! ### Symbols -/

def symbolName (value : Value) : Storage Value := do
  let index ← symbolArgument value
  makeString ((← symbols).get index).name

def symbolFunction (value : Value) : Storage Value := do
  let index ← symbolArgument value
  return ((← symbols).get index).function

/-- Whether a variable has a value. The error that reading it raises is made and given up. -/
def boundp (value : Value) : Storage Value := do
  let _ ← symbolArgument value
  match ← attempt (symbolValue value) with
  | .ok _ => return .t
  | .error _ => return .nil

def fboundp (value : Value) : Storage Value := do
  let index ← symbolArgument value
  return .ofBool !((← symbols).get index).function.isNil

/-- Store a function definition. Only nil can be stored at nil. -/
def setFunction (symbol definition : Value) : Storage Value := do
  let index ← symbolArgument symbol
  if symbol.isNil && !definition.isNil then error Symbols.settingConstant [symbol]
  modifySymbols fun table => table.setFunction index definition
  return definition

def getProperty (symbol property : Value) : Storage Value := do
  let index ← symbolArgument symbol
  return ((← symbols).property? index property).getD .nil

def putProperty (symbol property value : Value) : Storage Value := do
  let index ← symbolArgument symbol
  modifySymbols fun table => table.putProperty index property value
  return value

/-- Make a symbol an alias of another. When that closes a cycle, the symbol is left void. -/
def defineAlias (symbol base : Value) : Storage Value := do
  let index ← symbolArgument symbol
  let target ← symbolArgument base
  if ((← symbols).get index).constant then error Symbols.settingConstant [symbol]
  modifySymbols fun table => table.setCell index (.aliasOf target)
  if ((← symbols).resolve? index).isNone then
    modifySymbols fun table => table.setCell index (.plain none)
    error Symbols.circularList [symbol]
  return base

/-- The symbol that a string names. -/
def internNamed (name : Value) : Storage Value := do
  intern (← stringArgument name)

end Storage

end LispMachine
