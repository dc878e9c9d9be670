import LispMachine.Callable
import LispMachine.Caller
import LispMachine.Editing
import LispMachine.Variable

/-!
Unwinding the binding log. Entries are undone newest first until the log is back at a mark. Every
entry is undone, also after one of them has signalled, and the first signal is what the unwinding
ends with.
-/

set_option autoImplicit false

namespace LispMachine

namespace Storage

/-- Take back what a marker was made for: it points nowhere from now on. -/
def detachMarker (marker : Value) : Storage Unit := do
  let _ ← Action.attempt (setMarker marker none)

/-- Make a buffer current again, with the point where a marker is. -/
def restoreExcursion (buffer : Nat) (point : Value) : Storage Unit := do
  setCurrentBuffer buffer
  if let some position ← markerPosition? point then gotoPosition position
  detachMarker point

/-- Make the text between two markers the accessible part of a buffer again. -/
def restoreBounds (buffer : Nat) (low high : Value) : Storage Unit := do
  let start := (← markerPosition? low).getD 1
  let finish := (← markerPosition? high).getD start
  modifyBuffers fun store => store.update buffer fun buffer => buffer.narrow start finish
  detachMarker low
  detachMarker high

end Storage

namespace Engine

open LispMachine.Action Storage

/-- Call a function, or evaluate a body, that waited for the log to be unwound. -/
def runUnwindForm (caller : Caller) (handler : Value) : Engine Unit := do
  if (← store).isFunction handler then
    let _ ← caller.apply handler []
  else
    let body ← cons Symbols.progn handler
    let _ ← caller.eval body

/-- Undo one entry, which is no longer in the log. -/
def undo (caller : Caller) : BindingEntry → Engine Unit
  | .binding symbol old => modifySymbols fun table => table.setCell symbol (.plain old)
  | .unwindProtect handler => runUnwindForm caller handler
  | .excursion buffer point => restoreExcursion buffer point
  | .restriction buffer (some (low, high)) => restoreBounds buffer low high
  | .restriction buffer none => modifyBuffers fun store => store.update buffer Buffer.widen
  | .currentBuffer buffer => setCurrentBuffer buffer

/-- Take the newest entry off the log, if there is one above the mark. -/
def takeBinding (mark : BindingMark) : Engine (Option BindingEntry) :=
  modifyGet fun machine =>
    match machine.bindings with
    | entry :: rest =>
      if mark ≤ rest.length then (some entry, { machine with bindings := rest })
      else (none, machine)
    | [] => (none, machine)

/-- Undo entries until the log is back at the mark, and give the first signal met, where `first`
was met before. -/
def unwindFrom (caller : Caller) (mark : BindingMark) :
    Nat → Option Signal → Engine (Option Signal)
  | 0, _ => exhausted
  | rounds + 1, first => do
    match ← takeBinding mark with
    | none => return first
    | some entry =>
      match ← caller.attempt (undo caller entry) with
      | .ok _ => unwindFrom caller mark rounds first
      | .error reason => unwindFrom caller mark rounds (some (← caller.keepFirst first reason))

/-- Undo entries until the log is back at the mark. Undoing `n` entries that leave the log alone
takes `n + 1` rounds. -/
def unbindTo (caller : Caller) (mark : BindingMark) : Engine Unit := do
  match ← unwindFrom caller mark ((← bindingMark) + 1 + caller.rounds) none with
  | none => return ()
  | some reason => signal reason

/-- Undo the newest `count` entries. -/
def unbind (caller : Caller) (count : Nat) : Engine Unit := do
  caller.observe (.unbinding count)
  unbindTo caller ((← bindingMark) - count)

/-- Run an action and then undo what it left in the log, also if it signals. A signal of the
action comes before one of the unwinding. -/
def unwindingTo {α : Type} (caller : Caller) (mark : BindingMark) (action : Engine α) :
    Engine α := do
  let result ← caller.attempt action
  match result, ← caller.attempt (unbindTo caller mark) with
  | .ok _, .error reason => signal reason
  | .error reason, .error later => signal (← caller.keepFirst (some reason) later)
  | result, .ok _ => resume result

end Engine

end LispMachine
