import LispMachine.Instruction.Decode

/-!
How deep the operand stack of a code string can grow. The analysis walks every instruction that
can be reached from the start, each once, with the depth with which it is first met; handler
targets are entered with one value (what was caught) above the depth at which the handler was
pushed. It fails where the walk meets an undecodable byte or an instruction that needs more
values than there are.
-/

set_option autoImplicit false

namespace LispMachine

/-- A place in the code together with a stack depth. -/
abbrev DepthPoint := Nat × Nat

/-- The depth after a change. Depths are numbers of 64 bits. -/
def changedDepth (depth : Nat) (change : Int) : Nat :=
  ((depth + change) % 0x10000000000000000).toNat

/-- Where control can go from an instruction that is met with `depth` and followed by `next`,
with the depth it has there. -/
def Instruction.successors (instruction : Instruction) (next depth : Nat) : List DepthPoint :=
  match instruction with
  | .ret => []
  | .branch .goto _ target => [(target, depth)]
  | .branch kind _ target =>
    [(next, depth - 1), (target, if kind.isElsePop then depth else depth - 1)]
  | .pushHandler _ target => [(next, depth - 1), (target, depth)]
  | instruction => [(next, changedDepth depth instruction.effect)]

/-- What a walk has found so far. -/
structure DepthWalk where
  /-- For each offset of the code the depth with which it was first met, if it has been. -/
  met : Array (Option Nat)
  /-- The greatest depth. -/
  deepest : Nat
  deriving DecidableEq

namespace DepthWalk

/-- A walk that starts with `entry` values, before the first step. -/
def start (size entry : Nat) : DepthWalk := ⟨Array.replicate size none, entry⟩

/-- The walk after an instruction that was met at a point and leads to others. -/
def visit (walk : DepthWalk) (point : DepthPoint) (successors : List DepthPoint) : DepthWalk :=
  { met := walk.met.setIfInBounds point.1 (some point.2)
    deepest := successors.foldl (fun deepest successor => deepest.max successor.2) walk.deepest }

end DepthWalk

namespace Code

/-- Work off a list of points. Each offset inside the code is expanded once and adds at most two
points, so `2 * code.size + 1` rounds are enough. -/
def walkFrom (code : Code) : Nat → List DepthPoint → DepthWalk → Except Fault DepthWalk
  | 0, _, walk => .ok walk
  | _ + 1, [], walk => .ok walk
  | rounds + 1, (offset, depth) :: work, walk =>
    match walk.met[offset]? with
    | none | some (some _) => code.walkFrom rounds work walk
    | some none =>
      match code.decode offset with
      | .error fault => .error fault
      | .ok (instruction, next) =>
        if depth < instruction.reach then .error (.stackUnderflow depth instruction.reach)
        else
          let successors := instruction.successors next depth
          code.walkFrom rounds (successors ++ work) (walk.visit (offset, depth) successors)

/-- Walk code that is entered with `entry` values. -/
def walk (code : Code) (entry : Nat) : Except Fault DepthWalk :=
  code.walkFrom (2 * code.size + 1) [(0, entry)] (.start code.size entry)

/-- The greatest stack depth that code entered with `entry` values can reach. -/
def maxDepth (code : Code) (entry : Nat) : Except Fault Nat :=
  (code.walk entry).map DepthWalk.deepest

end Code

end LispMachine
