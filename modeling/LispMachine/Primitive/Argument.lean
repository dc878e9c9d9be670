import LispMachine.Number

/-!
The arguments of primitives. An optional argument that is not given counts as nil, so a primitive
with up to three parameters is a function of three values. The readers here take an argument for
what it must be, or raise the error that names what was expected.
-/

set_option autoImplicit false

namespace LispMachine

/-- The argument at a place, nil if it is not given. -/
def argument (arguments : List Value) (place : Nat) : Value := arguments.getD place .nil

/-- A primitive of one parameter, on a list of arguments. -/
def unary {Result : Type} (f : Value → Result) (arguments : List Value) : Result :=
  f (argument arguments 0)

/-- A primitive of two parameters, on a list of arguments. -/
def binary {Result : Type} (f : Value → Value → Result) (arguments : List Value) : Result :=
  f (argument arguments 0) (argument arguments 1)

/-- A primitive of three parameters, on a list of arguments. -/
def ternary {Result : Type} (f : Value → Value → Value → Result) (arguments : List Value) :
    Result :=
  f (argument arguments 0) (argument arguments 1) (argument arguments 2)

/-- The character with a code, if there is one. -/
def character? (code : Int) : Option Char :=
  if 0 ≤ code ∧ code.toNat.isValidChar then some (Char.ofNat code.toNat) else none

/-- An optional argument: absent if it is nil. -/
def Value.given? (value : Value) : Option Value := if value.isNil then none else some value

namespace Storage

open LispMachine.Action

/-- An argument that must be an integer. -/
def fixnumArgument (value : Value) : Storage Int := do
  match value with
  | .fixnum n => return n
  | _ => wrongType Symbols.integerp value

/-- An argument that must be an integer from zero on. -/
def naturalArgument (value : Value) : Storage Nat := do
  match value with
  | .fixnum n => if 0 ≤ n then return n.toNat else wrongType Symbols.wholenump value
  | _ => wrongType Symbols.wholenump value

/-- An argument that must be a string. -/
def stringArgument (value : Value) : Storage String := do
  match (← get).heap.string? value with
  | some text => return text
  | none => wrongType Symbols.stringp value

/-- An argument that must be the code of a character. -/
def characterArgument (value : Value) : Storage Char := do
  match value with
  | .fixnum n =>
    match character? n with
    | some c => return c
    | none => wrongType Symbols.characterp value
  | _ => wrongType Symbols.characterp value

/-- An argument that must be a symbol. -/
def symbolArgument (value : Value) : Storage Nat := do
  match value with
  | .symbol index => return index
  | _ => wrongType Symbols.symbolp value

/-- An argument that must be an integer or a marker in a buffer. What is not even a number raises
the error of a number first; that error is given up for the one about positions. -/
def positionArgument (value : Value) : Storage Int := do
  match ← attempt (number value) with
  | .ok (.integer n) => return n
  | _ => wrongType Symbols.integerOrMarkerP value

/-- An optional count, which is one if it is not given. -/
def countArgument (value : Value) : Storage Int :=
  match value.given? with
  | some value => fixnumArgument value
  | none => return 1

end Storage

end LispMachine
