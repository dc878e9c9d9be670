import LispMachine.Instruction.Decode

/-!
The linear scan of a code string: from the start, one instruction after the other, where a byte
that starts no instruction is passed over alone. The scan decides which offsets are instruction
boundaries, and code can be compiled when every jump goes to one.
-/

set_option autoImplicit false

namespace LispMachine

/-- What the scan holds at an offset: the instruction there and where the next one starts, or
the fault of an undecodable byte. -/
structure Scanned where
  offset : Nat
  content : Except Fault (Instruction × Nat)

namespace Code

/-- The scan from an offset. Every step moves forward, so `code.size` steps reach the end. -/
def scanFrom (code : Code) : Nat → Nat → List Scanned
  | 0, _ => []
  | steps + 1, offset =>
    if offset < code.size then
      match code.decode offset with
      | .ok (instruction, next) =>
        ⟨offset, .ok (instruction, next)⟩ :: code.scanFrom steps next
      | .error fault => ⟨offset, .error fault⟩ :: code.scanFrom steps (offset + 1)
    else []

/-- The scan of the whole code. -/
def scan (code : Code) : List Scanned := code.scanFrom code.size 0

/-- The offset that a scanned instruction sends control to and that compiled code would need a
label for. A branch to beyond the code needs none: it faults when it is taken. -/
def labelTarget? (code : Code) (instruction : Instruction) : Option Nat :=
  match instruction with
  | .branch _ _ target => if target ≤ code.size then some target else none
  | .pushHandler _ target => some target
  | _ => none

/-- The targets of the scanned instructions that compiled code would need labels for. -/
def labelTargets (code : Code) : List Nat :=
  code.scan.filterMap fun scanned =>
    match scanned.content with
    | .ok (instruction, _) => code.labelTarget? instruction
    | .error _ => none

/-- Whether an instruction (or a passed-over byte) starts at an offset, or the code ends there. -/
def isBoundary (code : Code) (offset : Nat) : Bool :=
  offset == code.size || code.scan.any fun scanned => scanned.offset == offset

/-- The smallest target that is no boundary. Code without one can be compiled. -/
def misplacedTarget? (code : Code) : Option Nat :=
  let boundaries := code.size :: code.scan.map Scanned.offset
  (code.labelTargets.filter fun target => !boundaries.contains target).min?

end Code

end LispMachine
