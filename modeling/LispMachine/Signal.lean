import LispMachine.Fault
import LispMachine.Value

/-!
Signals: non-local exits in flight. Errors and throws can be caught by handlers; a fault
travels as a fatal signal, which nothing catches.
-/

set_option autoImplicit false

namespace LispMachine

/-- A non-local exit on its way to a handler or out of the machine. -/
inductive Signal where
  /-- An error: the symbol that names it and its data. -/
  | error (symbol data : Value)
  /-- A throw of `value` to the catch for `tag`. -/
  | thrown (tag value : Value)
  | fatal (fault : Fault)
  deriving DecidableEq

end LispMachine
