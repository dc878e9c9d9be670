import LispMachine.Caller

/-!
What primitives do. Most of them work on the store alone. The others have the whole machine at
hand and can apply functions.
-/

set_option autoImplicit false

namespace LispMachine

/-- What a primitive does with its arguments. -/
inductive PrimitiveAction where
  | storing (run : List Value → Storage Value)
  | running (run : Caller → List Value → Engine Value)

namespace PrimitiveAction

def isStoring : PrimitiveAction → Bool
  | .storing _ => true
  | .running _ => false

/-- Do what a primitive does. -/
def run (action : PrimitiveAction) (caller : Caller) (arguments : List Value) : Engine Value :=
  match action with
  | .storing run => run arguments
  | .running run => run caller arguments

end PrimitiveAction

end LispMachine
