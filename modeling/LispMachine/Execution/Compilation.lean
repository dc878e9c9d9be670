import LispMachine.Execution.Translation
import LispMachine.Machine

/-!
Compilation. A function is compiled at most once. Compiling succeeds when every jump goes to the
start of an instruction; whether the stack of the compiled function is guarded is settled by the
settings at that time. Attempts are numbered, failed ones included.
-/

set_option autoImplicit false

namespace LispMachine

namespace Engine

open LispMachine.Action

/-- The function with an index. -/
def function (id : Nat) : Engine Function := do return (← get).functions.getD id default

/-- Add a function and give its index. -/
def addFunction (function : Function) : Engine Nat :=
  modifyGet fun machine =>
    (machine.functions.size, { machine with functions := machine.functions.push function })

/-- What the compiler keeps, as it is now. -/
def compilerState : Engine CompilerState := do return (← get).compiler.getD {}

def setCompilerState (state : CompilerState) : Engine Unit :=
  modify fun machine => { machine with compiler := some state }

/-- Compile a function that has not been compiled. -/
def compileFirst (id : Nat) (subject : Function) : Engine CompiledCode := do
  let state ← compilerState
  let number := state.nextId
  match subject.code.misplacedTarget? with
  | some target =>
    setCompilerState { state with nextId := number + 1, failed := state.failed + 1 }
    fault (.misplacedTarget subject.displayName target)
  | none =>
    let code : CompiledCode := ⟨number, subject.translate (← get).settings.safeStack⟩
    setCompilerState { state with nextId := number + 1, compiled := state.compiled + 1 }
    modify fun machine =>
      { machine with
        functions := machine.functions.modify id fun function =>
          { function with compiled := some code } }
    return code

/-- Compile a function unless it has been compiled. -/
def compile (id : Nat) : Engine CompiledCode := do
  match (← get).functions[id]? with
  | some subject =>
    match subject.compiled with
    | some code => return code
    | none => compileFirst id subject
  -- what is referred to is always there, so nothing is said about compiling what is not
  | none => exhausted

end Engine

end LispMachine
