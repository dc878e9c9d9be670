import LispMachine.Dispatch
import LispMachine.Checkpoint

/-!
Frames: what an invocation owns while its body runs. The bindings above its mark and the handlers
above its base are its own. Whether a body is interpreted or runs as native code, it pushes and
pops handlers in the same way, and its signals are dispatched in the same way.
-/

set_option autoImplicit false

namespace LispMachine

/-- What stays the same while the body of a function runs. -/
structure Frame where
  function : Function
  /-- The binding log when the body started: the frame owns what is above. -/
  mark : BindingMark
  /-- The number of handlers when the function was called: the frame owns those above. -/
  handlerBase : Nat

namespace Engine

open LispMachine.Action

/-- Push a handler that goes on with the given depth of the operand stack. -/
def pushOwnHandler (kind : HandlerKind) (tag : Value) (depth : Nat) (resume : Resume) :
    Engine Unit := do
  let mark ← bindingMark
  pushHandler ⟨tag, kind, depth, mark, resume⟩

/-- Pop the innermost handler, which must belong to the frame. -/
def popOwnHandler (frame : Frame) : Engine Unit := do
  if (← handlerCount) ≤ frame.handlerBase then fault .foreignHandler
  else modify fun machine => { machine with handlers := machine.handlers.tail }

/-- Take a step. A signal goes to the handlers of the frame, and `resume` says how execution goes on
at the handler that catches it. -/
def dispatching {α : Type} (caller : Caller) (frame : Frame) (step : Engine α)
    (resume : Handler → Value → Engine α) : Engine α := do
  match ← caller.attempt step with
  | .ok outcome => return outcome
  | .error reason =>
    match ← dispatch caller frame.handlerBase reason with
    | .propagate reason => signal reason
    | .resume handler payload => resume handler payload

end Engine

end LispMachine
