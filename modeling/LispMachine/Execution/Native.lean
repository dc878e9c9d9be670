import LispMachine.Execution.Frame
import LispMachine.Execution.Operation
import LispMachine.OperandStack
import LispMachine.Word

/-!
Running native code. Each piece of the code works on the slots of the operand stack as they are;
guarded code has checked the stack before. What goes beyond the slots is done by the machine.

A signal leads to the end of the code, where it is dispatched to the handlers of the frame, unless
the code has no sites: then the frame has no handlers, and the signal leaves it. When a handler
catches the signal, the table of sites says where execution goes on.
-/

set_option autoImplicit false

namespace LispMachine

/-- What a piece of native code leads to. -/
inductive NativeOutcome where
  | running (place : Nat) (stack : OperandStack)
  | returned (value : Value)

/-- One value made of several. -/
def Gathering.gather : Gathering → List Value → Storage Value
  | .list => Storage.list
  | .concat => Storage.concat
  | .insert => Storage.insert

/-- Fails unless the stack has what is needed. -/
def StackNeed.check (need : StackNeed) (stack : OperandStack) : Except Fault Unit :=
  if stack.depth < need.reach then .error (.stackUnderflow stack.depth need.reach)
  else if stack.limit < stack.depth + need.growth then .error (.stackOverflow stack.limit)
  else .ok ()

/-- Do an operation with the words of its operands, or by the primitive where the result does not
stand. -/
def Operation.performInline (operation : Operation) (caller : Caller) (operands : List Value) :
    Engine Value :=
  match operation.inline? operands with
  | some value => pure value
  | none => operation.perform caller operands

namespace Engine

open LispMachine.Action Storage

/-- Check the operand stack, if something is needed of it. -/
def guardStack (caller : Caller) (stack : OperandStack) : Option StackNeed → Engine Unit
  | none => return ()
  | some need => caller.checked (need.check stack)

/-- Take a jump at a place or pass it by. -/
def nativeJump (place : Nat) (stack : OperandStack) (kind : BranchKind) (target : Nat)
    (backward : Bool) : Engine NativeOutcome := do
  if kind.isConditional then
    if (stack.slot 0).isNil == kind.onNil then
      checkpoint backward
      return .running target (if kind.isElsePop then stack else stack.lower 1)
    else return .running (place + 1) (stack.lower 1)
  else
    checkpoint backward
    return .running target stack

/-- Do what the code at a place does. -/
def nativeExecute (caller : Caller) (frame : Frame) (place : Nat) (stack : OperandStack)
    (operation : NativeOperation) : Engine NativeOutcome := do
  match operation with
  | .trap reason => fault reason
  | .copy n => return .running (place + 1) (stack.extend (stack.slot n))
  | .push value => return .running (place + 1) (stack.extend value)
  | .readVariable symbol =>
    let value ← variableValue symbol
    return .running (place + 1) (stack.extend value)
  | .writeVariable symbol =>
    assign symbol (stack.slot 0)
    return .running (place + 1) (stack.lower 1)
  | .bindVariable symbol =>
    bindVariable symbol (stack.slot 0)
    return .running (place + 1) (stack.lower 1)
  | .call count =>
    let values := stack.slots (count + 1)
    let result ← caller.apply (argument values 0) (values.drop 1)
    return .running (place + 1) ((stack.lower (count + 1)).extend result)
  | .unbind count =>
    unbind caller count
    return .running (place + 1) stack
  | .unbindAll =>
    unbindTo caller frame.mark
    return .running (place + 1) stack
  | .popHandler =>
    popOwnHandler frame
    return .running (place + 1) stack
  | .pushHandler kind site =>
    pushOwnHandler kind (stack.slot 0) (stack.lower 1).depth (.native site)
    return .running (place + 1) (stack.lower 1)
  | .jump kind target backward => nativeJump place stack kind target backward
  | .ret => return .returned (stack.slot 0)
  | .drop count => return .running (place + 1) (stack.lower count)
  | .dropUnder count =>
    return .running (place + 1) ((stack.overwrite count (stack.slot 0)).lower count)
  | .moveTo n => return .running (place + 1) ((stack.overwrite n (stack.slot 0)).lower 1)
  | .gather gathering count =>
    let result ← gathering.gather (stack.slots count)
    return .running (place + 1) ((stack.lower count).extend result)
  | .operation op =>
    let result ← op.performInline caller (stack.slots op.operands)
    let rest := stack.lower op.operands
    return .running (place + 1) (if op.pushes then rest.extend result else rest)

/-- Check the stack and do what the code at a place does. -/
def nativeStep (caller : Caller) (frame : Frame) (code : NativeCode) (place : Nat)
    (stack : OperandStack) : Engine NativeOutcome := do
  match code.steps[place]? with
  | none => fault .lostSignal
  | some step =>
    caller.observe (.executing step.operation stack)
    guardStack caller stack step.need
    nativeExecute caller frame place stack step.operation

/-- Go on at the site of the handler that caught a signal, where there is room for what was caught. -/
def resumeAtSite (caller : Caller) (code : NativeCode) (stack : OperandStack) (handler : Handler)
    (payload : Value) : Engine NativeOutcome := do
  match handler.resume with
  | .native site =>
    let stack := stack.atDepth handler.depth
    guardStack caller stack (some ⟨0, 1⟩)
    match code.sites[site]? with
    | some place => return .running place (stack.extend payload)
    | none => fault .lostSignal
  | .offset _ | .host => fault .foreignHandler

/-- Do what the code at a place does; a signal goes to the handlers of the frame, if it can have
any. -/
def nativeAdvance (caller : Caller) (frame : Frame) (code : NativeCode) (place : Nat)
    (stack : OperandStack) : Engine NativeOutcome :=
  if code.sites.isEmpty then nativeStep caller frame code place stack
  else
    dispatching caller frame (nativeStep caller frame code place stack)
      (resumeAtSite caller code stack)

/-- Run native code from a place until it returns. -/
def runNativeWithin (caller : Caller) (frame : Frame) (code : NativeCode) :
    Nat → Nat → OperandStack → Engine Value
  | 0, _, _ => exhausted
  | rounds + 1, place, stack => do
    match ← nativeAdvance caller frame code place stack with
    | .returned value => return value
    | .running place stack => runNativeWithin caller frame code rounds place stack

/-- Run native code from its start. -/
def runNative (caller : Caller) (frame : Frame) (code : NativeCode) (stack : OperandStack) :
    Engine Value :=
  runNativeWithin caller frame code caller.rounds 0 stack

end Engine

end LispMachine
