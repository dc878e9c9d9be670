import LispMachine.Execution.Frame
import LispMachine.Execution.Operation
import LispMachine.Instruction.Decode
import LispMachine.OperandStack

/-!
The interpreter. The instruction at an offset is decoded when control gets there, and executed on
the operand stack of the invocation.

A signal that a step raises is dispatched to the handlers of the frame. When one of them catches
it, execution goes on at the handler's target, with the stack at the handler's depth and what was
caught on top.
-/

set_option autoImplicit false

namespace LispMachine

/-- Where an interpreted invocation stands. -/
structure Activation where
  offset : Nat
  stack : OperandStack
  /-- The opcode that was fetched before, zero at the start. -/
  lastOpcode : UInt8

/-- What a step leads to. -/
inductive StepOutcome where
  | running (offset : Nat) (stack : OperandStack)
  | returned (value : Value)

/-- Whether a branch is taken, and the stack that it leaves. -/
def BranchKind.test (kind : BranchKind) (stack : OperandStack) :
    Except Fault (Bool × OperandStack) := do
  match kind with
  | .goto => return (true, stack)
  | .ifNil | .ifNotNil =>
    let (value, rest) ← stack.pop
    return (value.isNil == kind.onNil, rest)
  | .ifNilElsePop | .ifNotNilElsePop =>
    let value ← stack.top
    if value.isNil == kind.onNil then return (true, stack)
    else
      let (_, rest) ← stack.pop
      return (false, rest)

namespace Engine

open LispMachine.Action Storage

/-! ### Fetching -/

/-- Count an opcode, if the machine counts opcodes. -/
def countOpcode (previous opcode : UInt8) : Engine Unit :=
  modify fun machine =>
    { machine with meter := machine.meter.map fun meter => meter.record previous opcode }

/-- The instruction at which an activation stands, and the offset of the next one. -/
def fetch (caller : Caller) (frame : Frame) (activation : Activation) :
    Engine (Instruction × Nat) := do
  match frame.function.code[activation.offset]? with
  | none => fault (.fellOffEnd frame.function.displayName)
  | some opcode =>
    countOpcode activation.lastOpcode opcode
    let (instruction, next) ← ofFaulty (frame.function.code.decode activation.offset)
    caller.observe (.interpreting instruction activation.stack)
    return (instruction, next)

/-! ### Executing -/

/-- Push a value and go on at an offset. -/
def pushAndGo (caller : Caller) (stack : OperandStack) (value : Value) (next : Nat) :
    Engine StepOutcome := do
  return .running next (← caller.checked (stack.push value))

/-- Take a branch or pass it by. -/
def branch (caller : Caller) (frame : Frame) (offset next : Nat) (stack : OperandStack)
    (kind : BranchKind) (target : Nat) : Engine StepOutcome := do
  if frame.function.code.size < target then fault (.branchOutOfRange offset target)
  else
    let (taken, stack) ← caller.checked (kind.test stack)
    if taken then
      checkpoint (target ≤ offset)
      return .running target stack
    else return .running next stack

/-- Execute the instruction at `offset`, which `next` follows. -/
def execute (caller : Caller) (frame : Frame) (offset next : Nat) (stack : OperandStack)
    (instruction : Instruction) : Engine StepOutcome := do
  match instruction with
  | .stackRef n => pushAndGo caller stack (← caller.checked (stack.peek n)) next
  | .dup => pushAndGo caller stack (← caller.checked stack.top) next
  | .constant index => pushAndGo caller stack (← ofFaulty (frame.function.constant index)) next
  | .varRef index =>
    let symbol ← ofFaulty (frame.function.constant index)
    let value ← variableValue symbol
    pushAndGo caller stack value next
  | .varSet index =>
    let symbol ← ofFaulty (frame.function.constant index)
    let (value, stack) ← caller.checked stack.pop
    assign symbol value
    return .running next stack
  | .varBind index =>
    let symbol ← ofFaulty (frame.function.constant index)
    let (value, stack) ← caller.checked stack.pop
    bindVariable symbol value
    return .running next stack
  | .call count =>
    let (values, stack) ← caller.checked (stack.popSlice (count + 1))
    let result ← caller.apply (argument values 0) (values.drop 1)
    pushAndGo caller stack result next
  | .unbind count =>
    unbind caller count
    return .running next stack
  | .unbindAll =>
    unbindTo caller frame.mark
    return .running next stack
  | .popHandler =>
    popOwnHandler frame
    return .running next stack
  | .pushHandler kind target =>
    let (tag, stack) ← caller.checked stack.pop
    pushOwnHandler kind tag stack.depth (.offset target)
    return .running next stack
  | .branch kind _ target => branch caller frame offset next stack kind target
  | .ret =>
    let (value, _) ← caller.checked stack.pop
    return .returned value
  | .discard =>
    let (_, stack) ← caller.checked stack.pop
    return .running next stack
  | .discardN count preserveTop =>
    let stack ← caller.checked
      (if preserveTop && 0 < count then stack.discardUnder count else stack.discard count)
    return .running next stack
  | .stackSet n =>
    let top ← caller.checked stack.top
    let stack ← caller.checked (stack.set n top)
    let (_, stack) ← caller.checked stack.pop
    return .running next stack
  | .listN count =>
    let (items, stack) ← caller.checked (stack.popSlice count)
    let result ← list items
    pushAndGo caller stack result next
  | .concatN count =>
    let (items, stack) ← caller.checked (stack.popSlice count)
    let result ← concat items
    pushAndGo caller stack result next
  | .insertN count =>
    let (items, stack) ← caller.checked (stack.popSlice count)
    let result ← insert items
    pushAndGo caller stack result next
  | .operation op =>
    let (operands, stack) ← caller.checked (stack.popSlice op.operands)
    let result ← op.perform caller operands
    if op.pushes then pushAndGo caller stack result next else return .running next stack

/-! ### Steps -/

/-- Fetch and execute the next instruction. -/
def step (caller : Caller) (frame : Frame) (activation : Activation) : Engine StepOutcome := do
  let (instruction, next) ← fetch caller frame activation
  execute caller frame activation.offset next activation.stack instruction

/-- Go on at the handler that caught a signal. The slots of the stack hold what the step that
raised the signal found in them. -/
def resumeAt (caller : Caller) (stack : OperandStack) (handler : Handler) (payload : Value) :
    Engine StepOutcome := do
  match handler.resume with
  | .offset target =>
    let stack ← caller.checked (stack.resetTo handler.depth)
    pushAndGo caller stack payload target
  | .native _ | .host => fault .foreignHandler

/-- Take a step; a signal goes to the handlers of the frame. -/
def advance (caller : Caller) (frame : Frame) (activation : Activation) : Engine StepOutcome :=
  dispatching caller frame (step caller frame activation) (resumeAt caller activation.stack)

/-- Take steps until the function returns. -/
def interpretWithin (caller : Caller) (frame : Frame) : Nat → Activation → Engine Value
  | 0, _ => exhausted
  | rounds + 1, activation => do
    match ← advance caller frame activation with
    | .returned value => return value
    | .running offset stack =>
      let opcode := frame.function.code.getD activation.offset 0
      interpretWithin caller frame rounds ⟨offset, stack, opcode⟩

/-- Interpret a function's code from its start. -/
def interpret (caller : Caller) (frame : Frame) (stack : OperandStack) : Engine Value :=
  interpretWithin caller frame caller.rounds ⟨0, stack, 0⟩

end Engine

end LispMachine
