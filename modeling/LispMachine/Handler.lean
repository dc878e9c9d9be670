import LispMachine.BindingLog
import LispMachine.Instruction.Basic

/-!
Handlers: where throws and errors are caught. The handler stack is kept innermost first. Each
invocation owns the handlers that it pushed, which are those above the number it was entered
with.
-/

set_option autoImplicit false

namespace LispMachine

/-- Where execution goes on when a handler has caught something. -/
inductive Resume where
  /-- At an offset of the interpreted frame that pushed the handler. -/
  | offset (target : Nat)
  /-- At a site of the native frame that pushed the handler. -/
  | native (site : Nat)
  /-- In the primitive that set up the handler. -/
  | host
  deriving DecidableEq

/-- One handler. -/
structure Handler where
  /-- The tag of a catch, or the condition list of a condition-case. -/
  tag : Value
  kind : HandlerKind
  /-- The depth of the operand stack under what was caught. -/
  depth : Nat
  /-- How much of the binding log is left in place. -/
  mark : BindingMark
  resume : Resume
  deriving DecidableEq

/-- The handlers, innermost first. -/
abbrev HandlerStack := List Handler

/-- The outermost `count` entries of a stack that is kept innermost first. -/
def outermost {α : Type} (count : Nat) (stack : List α) : List α :=
  stack.drop (stack.length - count)

/-- Whether some catch waits for a tag. -/
def HandlerStack.hasCatch (handlers : HandlerStack) (tag : Value) : Bool :=
  handlers.any fun handler => handler.kind == .catching && handler.tag == tag

end LispMachine
