import LispMachine.Fault
import LispMachine.Instruction.Basic
import LispMachine.Value

/-!
Native code: what the compiler makes of a function. Everything that is known before a run is
settled in it. Constants stand in the code itself, jumps go to places instead of offsets, and what
is bound to fail when it is reached has become a trap. Handlers are pushed with the number of a
*site*, and a table says at which place each site goes on.
-/

set_option autoImplicit false

namespace LispMachine

/-- Ways to make one value of several. -/
inductive Gathering where
  | list
  | concat
  | insert
  deriving DecidableEq

/-- What one piece of native code does. -/
inductive NativeOperation where
  /-- Stop with a fault. -/
  | trap (fault : Fault)
  /-- Push the value `n` slots below the top once more. -/
  | copy (n : Nat)
  | push (value : Value)
  | readVariable (symbol : Value)
  | writeVariable (symbol : Value)
  | bindVariable (symbol : Value)
  | call (arguments : Nat)
  | unbind (count : Nat)
  | unbindAll
  | popHandler
  | pushHandler (kind : HandlerKind) (site : Nat)
  /-- Go to a place, or on; `backward` says whether the place lies behind. -/
  | jump (kind : BranchKind) (place : Nat) (backward : Bool)
  | ret
  | drop (count : Nat)
  /-- Drop values from below the top. -/
  | dropUnder (count : Nat)
  /-- Move the top to the slot `n` below it. -/
  | moveTo (n : Nat)
  | gather (gathering : Gathering) (count : Nat)
  | operation (op : Operation)
  deriving DecidableEq

/-- What the operand stack must have and have room for. -/
structure StackNeed where
  reach : Nat
  growth : Nat
  deriving DecidableEq

/-- One piece of native code, before which the stack may be checked. -/
structure NativeStep where
  need : Option StackNeed
  operation : NativeOperation
  deriving DecidableEq

/-- The native code of a function. -/
structure NativeCode where
  steps : Array NativeStep
  /-- The place at which each site goes on. -/
  sites : Array Nat
  /-- Every handler is pushed with the number of a site. -/
  sited : ∀ step ∈ steps, ∀ kind site, step.operation = .pushHandler kind site → site < sites.size
  deriving DecidableEq

end LispMachine
