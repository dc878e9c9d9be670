import LispMachine.Function
import LispMachine.Handler
import LispMachine.Meter
import LispMachine.Settings.Basic
import LispMachine.Store

/-!
The machine and what runs on it. A `Machine` is the whole state that a program can see or change:
its store, and what belongs to the run itself, such as the functions, the binding log and the
handlers. An `Engine` action is an action of the machine. A storage action is one that leaves
everything but the store as it is.
-/

set_option autoImplicit false

namespace LispMachine

/-- What the compiler keeps between compilations. -/
structure CompilerState where
  nextId : Nat := 0
  compiled : Nat := 0
  failed : Nat := 0

/-- The state of a machine. -/
structure Machine extends Store where
  settings : Settings
  /-- The functions; heap objects refer to them by index. -/
  functions : Array Function := #[]
  bindings : BindingLog := []
  handlers : HandlerStack := []
  interpretedCalls : Nat := 0
  compiledCalls : Nat := 0
  /-- Present while opcodes are counted. -/
  meter : Option Meter := none
  /-- Present from the first attempt to compile on. -/
  compiler : Option CompilerState := none
  /-- Whether a request to quit waits to be noticed. -/
  quitPending : Bool := false
  /-- Whether a request to quit arrives before the next checkpoint, between that one and the one
  after it, and so on. Requests come from outside, at any moment of a run; which checkpoints they
  fall between is all that a run can tell of them. -/
  arrivals : List Bool := []
  /-- How deep applications are nested now. -/
  evalDepth : Nat := 0

/-- An action of the machine. -/
abbrev Engine := Action Signal Machine

/-- Why an action of the machine stops when an action on the store has stopped. -/
def Stop.ofStore : Stop StoreError → Stop Signal
  | .signal ⟨symbol, data⟩ => .signal (.error symbol data)
  | .exhausted resource => .exhausted resource

namespace Engine

/-- A storage action as one of the machine. The machine is taken apart and put together again, so
that the action has the only reference to the store. -/
@[inline] def ofStorage {α : Type} (action : Storage α) : Engine α := fun machine =>
  match machine with
  | ⟨store, settings, functions, bindings, handlers, interpretedCalls, compiledCalls, meter,
      compiler, quitPending, arrivals, evalDepth⟩ =>
    match action store with
    | .ok result store =>
      .ok result ⟨store, settings, functions, bindings, handlers, interpretedCalls, compiledCalls,
        meter, compiler, quitPending, arrivals, evalDepth⟩
    | .error stop store =>
      .error stop.ofStore ⟨store, settings, functions, bindings, handlers, interpretedCalls,
        compiledCalls, meter, compiler, quitPending, arrivals, evalDepth⟩

instance : MonadLift Storage Engine := ⟨ofStorage⟩

end Engine

end LispMachine
