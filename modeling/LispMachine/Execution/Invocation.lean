import LispMachine.Execution.Compilation
import LispMachine.Execution.Interpreter
import LispMachine.Execution.Native

/-!
Invoking functions. The arguments are checked and put in place, on the operand stack or as dynamic
bindings; then the body runs. A body that returns must leave neither handlers nor bindings behind.
However the invocation ends, its handlers are dropped and its bindings undone.
-/

set_option autoImplicit false

namespace LispMachine

namespace Storage

open LispMachine.Action

/-! ### Arguments -/

/-- The error for a wrong number of arguments. -/
def wrongArgumentCount {α : Type} (mandatory : Nat) (bound : ArityBound) (count : Nat) :
    Storage α := do
  let most := match bound with
    | some n => Value.ofNat n
    | none => Symbols.many
  let arity ← cons (.ofNat mandatory) most
  error Symbols.wrongNumberOfArguments [arity, .ofNat count]

/-- The list of the arguments from a place on. -/
def restArguments (place : Nat) (arguments : List Value) : Storage Value :=
  list (arguments.drop place)

/-- The values that a template puts on the stack: the arguments up to the positional ones, nil for
those that are missing, and the list of the others if it takes a rest. -/
def templateSlots (template : Template) (arguments : List Value) : Storage (List Value) := do
  let given := arguments.take template.positional
  let missing := List.replicate (template.positional - given.length) Value.nil
  if template.rest then
    return given ++ missing ++ [← restArguments template.positional arguments]
  else return given ++ missing

/-- The code, constants and depth that three values stand for: a string whose characters are the
bytes of the code, a vector and a number. -/
def codeArguments (text constants maxDepth : Value) : Storage (Code × Array Value × Nat) := do
  let chars := (← stringArgument text).toList
  if chars.any fun c => 0xff < c.toNat then wrongType Symbols.stringp text
  let code : Code := (chars.map fun c => UInt8.ofNat c.toNat).toArray
  match (← heap).vector? constants with
  | none => wrongType Symbols.arrayp constants
  | some pool =>
    let depth ← naturalArgument maxDepth
    return (code, pool, depth)

end Storage

namespace Engine

open LispMachine.Action Storage

/-- Bind the positional parameters to the arguments, and those without one to nil. -/
def bindParameters : List Value → List Value → Engine Unit
  | [], _ => return ()
  | parameter :: parameters, arguments => do
    bindVariable parameter (argument arguments 0)
    bindParameters parameters (arguments.drop 1)

/-- Bind the parameter for the rest, if there is one, to the list of the arguments from a place
on. -/
def bindRest (rest : Option Value) (place : Nat) (arguments : List Value) : Engine Unit := do
  match rest with
  | some parameter =>
    let values ← restArguments place arguments
    bindVariable parameter values
  | none => return ()

/-- Push values, the first one first. -/
def pushAll (caller : Caller) (stack : OperandStack) : List Value → Engine OperandStack
  | [] => return stack
  | value :: values => do pushAll caller (← caller.checked (stack.push value)) values

/-- Check the arguments and put them in place. Gives the stack that the body starts with. -/
def receiveArguments (caller : Caller) (parameters : Parameters) (arguments : List Value)
    (stack : OperandStack) : Engine OperandStack := do
  match parameters with
  | .template template =>
    if template.accepts arguments.length then
      pushAll caller stack (← templateSlots template arguments)
    else wrongArgumentCount template.mandatory template.maxArguments arguments.length
  | .dynamic symbols =>
    let ⟨positional, mandatory, rest⟩ := DynamicParameters.parse symbols
    let bound := if rest.isSome then none else some positional.length
    if arguments.length < mandatory ∨ (positional.length < arguments.length ∧ rest.isNone) then
      wrongArgumentCount mandatory bound arguments.length
    else
      bindParameters positional arguments
      bindRest rest positional.length arguments
      return stack

/-! ### Invocations -/

/-- Fails unless a body that has returned left the handlers and bindings as it found them. -/
def checkBalance (frame : Frame) : Engine Unit := do
  let name := frame.function.displayName
  let handlers ← handlerCount
  let bindings ← bindingMark
  if frame.handlerBase < handlers then
    truncateHandlers frame.handlerBase
    fault (.handlerImbalance name (handlers - frame.handlerBase))
  else if bindings = frame.mark then return ()
  else fault (.bindingImbalance name (bindings - frame.mark))

/-- Count an invocation that is interpreted. -/
def countInterpretedCall : Engine Unit :=
  modify fun machine => { machine with interpretedCalls := machine.interpretedCalls + 1 }

/-- Count an invocation that runs as native code. -/
def countCompiledCall : Engine Unit :=
  modify fun machine => { machine with compiledCalls := machine.compiledCalls + 1 }

/-- Run the body of a function: its native code, if it has been compiled. -/
def runFrame (caller : Caller) (frame : Frame) (stack : OperandStack) : Engine Value := do
  match frame.function.compiled with
  | some code =>
    countCompiledCall
    runNative caller frame code.native stack
  | none =>
    countInterpretedCall
    interpret caller frame stack

/-- The operand stack that an invocation starts with. -/
def openStack (subject : Function) : Engine OperandStack := do
  let entry ← sized subject.entryDepth?
  let limit := max subject.maxDepth entry.toNat
  if limit < Size.maxValues then return .empty limit else oversized

theorem openStack_eq (subject : Function) :
    openStack subject =
      if subject.StackFits then pure (.empty subject.stackLimit) else oversized := by
  unfold openStack
  cases hentry : subject.entryDepth? with
  | some entry =>
    rw [Function.entryDepth?_eq_some_iff] at hentry
    change (if max subject.maxDepth entry.toNat < Size.maxValues then
      pure (.empty (max subject.maxDepth entry.toNat)) else oversized : Engine OperandStack) = _
    rw [hentry]
    rfl
  | none =>
    -- The limit is at least the entry depth, and no size is as great.
    have hlimit : Size.maxValues ≤ subject.stackLimit :=
      Nat.le_trans (Nat.le_trans (by decide) (Size.ofNat?_eq_none_iff.mp hentry))
        subject.entryDepth_le_stackLimit
    have hfits : ¬ subject.StackFits := Nat.not_lt.mpr hlimit
    rw [if_neg hfits]
    rfl

/-- Receive the arguments, with an empty stack to put them on, and run the body. -/
def runBodyOn (caller : Caller) (subject : Function) (arguments : List Value) (handlerBase : Nat)
    (stack : OperandStack) : Engine Value := do
  let stack ← receiveArguments caller subject.parameters arguments stack
  let mark ← bindingMark
  let frame : Frame := ⟨subject, mark, handlerBase⟩
  let value ← runFrame caller frame stack
  checkBalance frame
  return value

/-- Receive the arguments and run the body. -/
def runBody (caller : Caller) (subject : Function) (arguments : List Value)
    (handlerBase : Nat) : Engine Value := do
  let stack ← openStack subject
  runBodyOn caller subject arguments handlerBase stack

theorem runBody_eq (caller : Caller) (subject : Function) (arguments : List Value)
    (handlerBase : Nat) :
    runBody caller subject arguments handlerBase =
      if subject.StackFits then
        runBodyOn caller subject arguments handlerBase (.empty subject.stackLimit)
      else oversized := by
  unfold runBody
  rw [openStack_eq]
  split <;> rfl

/-- Receive the arguments and run the body, and drop the handlers that it leaves. -/
def runInvocation (caller : Caller) (subject : Function) (arguments : List Value) :
    Engine Value := do
  let handlerBase ← handlerCount
  let result ← caller.attempt (runBody caller subject arguments handlerBase)
  truncateHandlers handlerBase
  resume result

/-- Compile a function if the settings say that functions are compiled when they are called. -/
def compileIfDue (id : Nat) : Engine Unit := do
  if (← get).settings.compileOnFirstCall then
    let _ ← compile id
  else return ()

/-- Invoke a function. It is compiled first if the settings say so. -/
def invoke (caller : Caller) (id : Nat) (arguments : List Value) : Engine Value := do
  compileIfDue id
  let subject ← function id
  let mark ← bindingMark
  unwindingTo caller mark (runInvocation caller subject arguments)

/-- Invoke a function that must have been compiled. -/
def invokeCompiled (caller : Caller) (id : Nat) (arguments : List Value) : Engine Value := do
  let subject ← function id
  if subject.compiled.isNone then fault (.notCompiled subject.displayName)
  else invoke caller id arguments

/-- Run code that takes no arguments and belongs to no function. -/
def executeCode (caller : Caller) (code : Code) (constants : Array Value) (maxDepth : Nat) :
    Engine Value := do
  let id ← addFunction
    { code := code, constants := constants, maxDepth := maxDepth, parameters := .dynamic [] }
  invoke caller id []

/-- Run a string whose characters are the bytes of code. -/
def executeString (caller : Caller) (text constants maxDepth : Value) : Engine Value := do
  let (code, pool, depth) ← codeArguments text constants maxDepth
  executeCode caller code pool depth

end Engine

end LispMachine
