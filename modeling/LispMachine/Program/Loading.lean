import LispMachine.Decimal.Binary
import LispMachine.Depth
import LispMachine.Execution.Compilation
import LispMachine.Program.Reading

/-!
Loading programs into a machine. Helper functions are built first and defined under their names,
then the code, the parameters, the depth of the stack and the constants of the program itself.
What was done before a program is refused stays done.

A literal stands for a value: numbers, strings and arrays (lists) for themselves, null and the
truth values for nil and t, and an object with one field for what its tag says.
-/

set_option autoImplicit false

namespace LispMachine

/-- Loading: an action of the machine that can be refused. -/
abbrev Loader := ExceptT LoadError Engine

namespace Loader

/-- The value of an integer literal. -/
def integer (n : Int) : Engine Value :=
  match Value.ofInt? n with
  | some value => pure value
  | none => Storage.makeFloat (.ofInt n)

/-- The parameters that a spelling describes. -/
def parameters : Option ParameterSpelling → Loader Parameters
  | none => return .dynamic []
  | some (.template mandatory positional rest) =>
    match Template.make mandatory positional rest with
    | .ok template => return .template template
    | .error reason => throw (.template reason)
  | some (.packed packed) =>
    match Template.unpack packed with
    | .ok template => return .template template
    | .error reason => throw (.template reason)
  | some (.names names) => return .dynamic (← names.mapM fun name => Storage.intern name)

/-- The depth of a program's stack: what the code can need, or more if more is declared. -/
def stackDepth (declared : Option Nat) (needed : Except Fault Nat) : Except LoadError Nat :=
  match declared, needed with
  | some declared, .ok needed => .ok (max declared needed)
  | some declared, .error _ => .ok declared
  | none, .ok needed => .ok needed
  | none, .error fault => .error (.unknownDepth fault)

/-- Make a function the definition of a name, which it gets as its own name if it has none. -/
def defineFunction (name : String) (function : Function) : Engine Value := do
  let symbol ← Storage.intern name
  let function := { function with name := some (function.name.getD name) }
  let id ← Engine.addFunction function
  let object ← Storage.allocate (.function id function.displayName)
  if let .symbol index := symbol then
    Storage.modifySymbols fun table => table.setFunction index object
  return object

mutual

/-- The value that a literal stands for, where literals nest at most so deep. -/
def literalWithin : Nat → Json → Loader Value
  | 0, _ => throw .malformed
  | levels + 1, literal =>
    match literal with
    | .null | .bool false => return .nil
    | .bool true => return .t
    | .int n => integer n
    | .float x => Storage.makeFloat (.ofFloat x)
    | .string text => Storage.makeString text
    | .array items => do Storage.list (← items.mapM (literalWithin levels))
    | .object fields =>
      match Json.lastFields fields with
      | [(tag, body)] => do
        match tag, body with
        | "symbol", .string name => Storage.intern name
        | "list", .array items => Storage.list (← items.mapM (literalWithin levels))
        | "vector", .array items =>
          Storage.makeVector (← items.mapM (literalWithin levels)).toArray
        | "cons", .array [car, cdr] =>
          let car ← literalWithin levels car
          let cdr ← literalWithin levels cdr
          Storage.cons car cdr
        | "char", .string text =>
          match text.toList with
          | [c] => return .ofChar c
          | _ => throw (.notOneCharacter text)
        | "function", body =>
          match ProgramFile.ofValue? body with
          | some program =>
            let function ← buildWithin levels program
            let id ← Engine.addFunction function
            Storage.allocate (.function id function.displayName)
          | none => throw .malformed
        | tag, _ => throw (.unknownTag tag)
      | _ => throw .severalTags
    | .unreadable => throw .malformed

/-- The function that a program file describes, where literals nest at most so deep. -/
def buildWithin : Nat → ProgramFile → Loader Function
  | 0, _ => throw .malformed
  | levels + 1, .mk name code constants maxDepth spelling functions => do
    functions.forM fun helper => do
      match helper.name with
      | none => throw .helperWithoutName
      | some name =>
        let function ← buildWithin levels helper
        let _ ← (defineFunction name function : Engine Value)
    let code ← liftExcept code.toCode
    let parameters ← parameters spelling
    let function : Function :=
      { name := name, code := code, constants := #[], maxDepth := 0, parameters := parameters }
    let entry ← (Action.sized function.entryDepth? : Engine Size)
    let depth ← liftExcept (stackDepth maxDepth (Code.maxDepth code entry.toNat))
    let constants ← constants.mapM (literalWithin levels)
    return { function with constants := constants.toArray, maxDepth := depth }

end

/-- How deep literals may nest. The reader of the text allows no more containers. -/
def maxLevels : Nat := 128

/-- The value that a literal stands for. Each literal makes new objects. -/
def literal (json : Json) : Loader Value := literalWithin maxLevels json

/-- The function that a program file describes. -/
def build (program : ProgramFile) : Loader Function := buildWithin maxLevels program

/-- The function that the JSON of a program describes. -/
def buildJson (json : Json) : Loader Function :=
  match ProgramFile.ofValue? json with
  | some program => build program
  | none => throw .malformed

/-- The function that the text of a program describes. -/
def buildText (text : String) : Loader Function :=
  match ProgramFile.ofText? text with
  | some program => build program
  | none => throw .malformed

end Loader

end LispMachine
