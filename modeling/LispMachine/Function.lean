import LispMachine.Fault
import LispMachine.Instruction.Opcode
import LispMachine.NativeCode
import LispMachine.Size
import LispMachine.Symbol.Builtin
import LispMachine.Template

/-!
Functions: code with its constants, the depth of its operand stack and the way it receives its
arguments. A function can have been compiled, once; the code itself never changes.
-/

set_option autoImplicit false

namespace LispMachine

/-- How a function receives its arguments: on the operand stack, or as dynamic bindings of the
listed symbols, among which `&optional` and `&rest` have their usual meaning. -/
inductive Parameters where
  | template (template : Template)
  | dynamic (symbols : List Value)
  deriving DecidableEq

/-- A dynamic parameter list taken apart. -/
structure DynamicParameters where
  positional : List Value
  mandatory : Nat
  rest : Option Value

namespace DynamicParameters

/-- Take a list apart, after `positional` (in reverse order). The first `&optional` ends the
mandatory parameters; the symbol after `&rest` ends the list. -/
def parseFrom (positional : List Value) (mandatory : Option Nat) :
    List Value → DynamicParameters
  | [] => ⟨positional.reverse, mandatory.getD positional.length, none⟩
  | symbol :: symbols =>
    if symbol = Symbols.andOptional then
      parseFrom positional (some (mandatory.getD positional.length)) symbols
    else if symbol = Symbols.andRest then
      ⟨positional.reverse, mandatory.getD positional.length, symbols.head?⟩
    else parseFrom (symbol :: positional) mandatory symbols

/-- Take a parameter list apart. -/
def parse (symbols : List Value) : DynamicParameters := parseFrom [] none symbols

end DynamicParameters

/-- What the compiler left at a function. -/
structure CompiledCode where
  /-- The number of the compilation. -/
  id : Nat
  native : NativeCode
  deriving DecidableEq

/-- A function. -/
structure Function where
  name : Option String := none
  code : Code
  constants : Array Value
  /-- The declared depth of the operand stack. -/
  maxDepth : Nat
  parameters : Parameters
  compiled : Option CompiledCode := none

namespace Function

instance : Inhabited Function :=
  ⟨{ code := #[], constants := #[], maxDepth := 0, parameters := .dynamic [] }⟩

/-- The name in messages and listings. -/
def displayName (function : Function) : String :=
  function.name.getD "<anonymous bytecode>"

/-- The stack slots that the arguments fill on entry. -/
def entryDepth (function : Function) : Nat :=
  match function.parameters with
  | .template template => template.entryDepth
  | .dynamic _ => 0

/-- The entry depth as the machine counts it. -/
def entryDepth? (function : Function) : Option Size := Size.ofNat? function.entryDepth

/-- The depth that the operand stack of an invocation can hold. -/
def stackLimit (function : Function) : Nat := max function.maxDepth function.entryDepth

/-- Whether there can be an operand stack for an invocation: its slots are one more than the values
that it can hold. -/
def StackFits (function : Function) : Prop := function.stackLimit < Size.maxValues

instance (function : Function) : Decidable function.StackFits :=
  inferInstanceAs (Decidable (_ < _))

theorem entryDepth_le_stackLimit (function : Function) :
    function.entryDepth ≤ function.stackLimit :=
  Nat.le_max_right _ _

theorem entryDepth?_eq_some_iff {function : Function} {entry : Size} :
    function.entryDepth? = some entry ↔ entry.toNat = function.entryDepth :=
  Size.ofNat?_eq_some_iff

/-- The constant at an index. -/
def constant (function : Function) (index : Nat) : Except Fault Value :=
  match function.constants[index]? with
  | some value => .ok value
  | none => .error (.constantIndex index function.constants.size)

end Function

end LispMachine
