import LispMachine.Value

/-!
The binding log: what has to be undone when a part of a program is left. Entries are undone in
the reverse order of their creation. The log is kept newest first, and a *mark* is its length at
some time: undoing to a mark undoes what was entered since.
-/

set_option autoImplicit false

namespace LispMachine

/-- Something to undo. -/
inductive BindingEntry where
  /-- A dynamic binding of a symbol, with the value, or voidness, that it hides. -/
  | binding (symbol : Nat) (old : Option Value)
  /-- A function to call or a body to evaluate. -/
  | unwindProtect (handler : Value)
  /-- The current buffer and, as a marker, the point in it. -/
  | excursion (buffer : Nat) (point : Value)
  /-- The accessible part of a buffer as two markers, or the whole buffer. -/
  | restriction (buffer : Nat) (bounds : Option (Value × Value))
  | currentBuffer (buffer : Nat)
  deriving DecidableEq

/-- The entries, newest first. -/
abbrev BindingLog := List BindingEntry

/-- The length of the log at some time. -/
abbrev BindingMark := Nat

end LispMachine
