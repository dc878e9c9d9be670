import LispMachine.Instruction.Basic
import LispMachine.Machine
import LispMachine.OperandStack

/-!
Calling functions from within actions. Applying a function, unwinding, evaluating and running
code all need each other; what they share is a `Caller`, the way to apply functions that is given
to them. The one place where the circle is closed is the application of functions itself.

A caller also watches the run: at certain events it is asked whether the run may go on, and a run
that may not stops like one that is too long. Programs are run by callers that let everything
pass. A watch makes a statement about everything that happens in a run a statement about how the
watched run ends.
-/

set_option autoImplicit false

namespace LispMachine

/-- What can be watched in a run. -/
inductive Event where
  /-- An application has started. -/
  | applying (function : Value) (arguments : List Value)
  /-- An instruction is about to be interpreted on an operand stack. -/
  | interpreting (instruction : Instruction) (stack : OperandStack)
  /-- A piece of native code is about to run on an operand stack. -/
  | executing (operation : NativeOperation) (stack : OperandStack)
  /-- The operand stack of an invocation has too few values or too little room, which is about to
  raise a fault. -/
  | overdrawing (reason : Fault)
  /-- Code is about to have the newest entries of the binding log undone. -/
  | unbinding (count : Nat)
  /-- Something that was attempted has stopped with a signal: an instruction, an application, the
  undoing of an entry, a whole unwinding or the body of an invocation or a handler. -/
  | stopping (reason : Signal)
  /-- A signal is about to be dropped, because it was met while another one was on its way, which is
  kept. -/
  | dropping (reason kept : Signal)
  /-- A handler with the given tag has been found for a signal, and the bindings are about to be
  unwound to it. -/
  | catching (reason : Signal) (tag : Value)

/-- How an action applies functions, how many rounds each of its own loops may take, and at which
events it may go on. -/
structure Caller where
  apply : Value → List Value → Engine Value
  rounds : Nat
  permits : Event → Machine → Bool

namespace Caller

/-- Evaluate a form by whatever function `eval` is. -/
def eval (caller : Caller) (form : Value) : Engine Value :=
  caller.apply Symbols.eval [form]

/-- Go on if the caller permits it. -/
def observe (caller : Caller) (event : Event) : Engine Unit := fun machine =>
  if caller.permits event machine then .ok () machine else .error (.exhausted .rounds) machine

/-- Run an action and give the signal that it stops with as a result, if the caller permits it to
stop. -/
def attempt {α : Type} (caller : Caller) (action : Engine α) : Engine (Except Signal α) := do
  match ← Action.attempt action with
  | .ok result => return .ok result
  | .error reason =>
    caller.observe (.stopping reason)
    return .error reason

/-- The signal that goes on when one is met: the one that was on its way, if there was one. -/
def keepFirst (caller : Caller) (first : Option Signal) (reason : Signal) : Engine Signal := do
  match first with
  | none => return reason
  | some earlier =>
    caller.observe (.dropping reason earlier)
    return earlier

/-- What an operation of the operand stack gives. -/
def checked {α : Type} (caller : Caller) : Except Fault α → Engine α
  | .ok result => return result
  | .error reason => do
    caller.observe (.overdrawing reason)
    Action.fault reason

end Caller

end LispMachine
