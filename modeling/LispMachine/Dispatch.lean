import LispMachine.Condition
import LispMachine.Unwinding

/-!
Dispatching signals to handlers. A signal goes to the innermost handler that matches it. When that
handler belongs to the part of a run that dispatches (it is among those above `base`), everything
inside it is dropped, the bindings are unwound to its mark, and it receives the payload: the thrown
value, or the error's symbol and data in one cons. A signal that the unwinding ends with takes the
place of the first and is dispatched in turn. A signal whose handler lies further out propagates.
-/

set_option autoImplicit false

namespace LispMachine

/-- What becomes of a dispatched signal. -/
inductive Disposition where
  /-- The handler receives the payload. -/
  | resume (handler : Handler) (payload : Value)
  | propagate (signal : Signal)

/-- How the body of a handler that a primitive set up has ended. -/
inductive BodyOutcome where
  | returned (value : Value)
  | caught (payload : Value)

namespace Storage

/-- The conditions of a signal: those of its symbol for an error, none for another signal. -/
def signalConditions : Signal → Storage (List Value)
  | .error symbol _ => errorConditions symbol
  | _ => return []

/-- Whether a handler catches a signal that has the given conditions. -/
def catchesSignal (signal : Signal) (conditions : List Value) (handler : Handler) :
    Storage Bool := do
  match handler.kind, signal with
  | .catching, .thrown tag _ => return handler.tag == tag
  | .conditionCase, .error _ _ => coversConditions conditions handler.tag
  | _, _ => return false

/-- The innermost handler that catches a signal, with those further out. -/
def innermostMatch (signal : Signal) (conditions : List Value) :
    HandlerStack → Storage (Option (Handler × HandlerStack))
  | [] => return none
  | handler :: outer => do
    if ← catchesSignal signal conditions handler then return some (handler, outer)
    else innermostMatch signal conditions outer

/-- What a handler receives for a signal that it caught. -/
def signalPayload : Signal → Storage (Option Value)
  | .error symbol data => return some (← cons symbol data)
  | .thrown _ value => return some value
  | .fatal _ => return none

end Storage

namespace Engine

open LispMachine.Action Storage

/-- The handlers as they are now. -/
def handlerStack : Engine HandlerStack := do return (← get).handlers

/-- The handler above `base` to which a signal goes, with those further out. -/
def findHandler (base : Nat) (signal : Signal) : Engine (Option (Handler × HandlerStack)) := do
  let conditions ← signalConditions signal
  match ← innermostMatch signal conditions (← handlerStack) with
  | some (handler, outer) => return if base ≤ outer.length then some (handler, outer) else none
  | none => return none

/-- The number of handlers as it is now. -/
def handlerCount : Engine Nat := do return (← get).handlers.length

/-- Add a handler. -/
def pushHandler (handler : Handler) : Engine Unit :=
  modify fun machine => { machine with handlers := handler :: machine.handlers }

/-- Replace the handler stack. -/
def setHandlers (handlers : HandlerStack) : Engine Unit :=
  modify fun machine => { machine with handlers := handlers }

/-- Drop the handlers above the outermost `count`. -/
def truncateHandlers (count : Nat) : Engine Unit :=
  modify fun machine => { machine with handlers := outermost count machine.handlers }

/-- Dispatch a signal in at most the given number of rounds. -/
def dispatchWithin (caller : Caller) (base : Nat) : Nat → Signal → Engine Disposition
  | 0, _ => exhausted
  | rounds + 1, signal => do
    match ← findHandler base signal with
    | none => return .propagate signal
    | some (handler, outer) =>
      caller.observe (.catching signal handler.tag)
      setHandlers outer
      match ← caller.attempt (unbindTo caller handler.mark) with
      | .error next => dispatchWithin caller base rounds next
      | .ok _ =>
        match ← signalPayload signal with
        | some payload => return .resume handler payload
        | none => return .propagate signal

/-- Dispatch a signal to the handlers above `base`. Each round takes at least one handler off the
stack. -/
def dispatch (caller : Caller) (base : Nat) (signal : Signal) : Engine Disposition := do
  dispatchWithin caller base ((← handlerCount) + 1 + caller.rounds) signal

/-- Run a body under a handler that returns to the primitive that set it up. -/
def withHandler (caller : Caller) (kind : HandlerKind) (tag : Value) (body : Engine Value) :
    Engine BodyOutcome := do
  let base ← handlerCount
  let mark ← bindingMark
  pushHandler ⟨tag, kind, 0, mark, .host⟩
  match ← caller.attempt body with
  | .ok value =>
    truncateHandlers base
    return .returned value
  | .error reason =>
    let disposition ← dispatch caller base reason
    truncateHandlers base
    match disposition with
    | .resume _ payload => return .caught payload
    | .propagate reason => signal reason

/-- Run a body inside a catch for a tag; a throw to it ends the body with the thrown value. -/
def catchIn (caller : Caller) (tag : Value) (body : Engine Value) : Engine Value := do
  match ← withHandler caller .catching tag body with
  | .returned value | .caught value => return value

/-- Run a body with a handler for the errors that `conditions` covers. -/
def conditionCaseIn (caller : Caller) (conditions : Value) (body : Engine Value) :
    Engine BodyOutcome :=
  withHandler caller .conditionCase conditions body

/-- Throw a value to the catch for a tag; without such a catch that is an error. -/
def throwTo {α : Type} (tag value : Value) : Engine α := do
  if (← get).handlers.hasCatch tag then signal (.thrown tag value)
  else error Symbols.noCatch [tag, value]

end Engine

end LispMachine
