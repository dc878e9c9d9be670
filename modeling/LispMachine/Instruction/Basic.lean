import LispMachine.Instruction.Operation

/-!
The instructions of the machine with their immediates resolved, and the facts about them that do
not depend on a run: how far down the stack an instruction looks (`reach`), how it changes the
depth when control falls through (`effect`), whether control can fall through at all, and how
many bytes its shortest spelling takes.
-/

set_option autoImplicit false

namespace LispMachine

/-- The two kinds of handler: one for throws, one for errors. -/
inductive HandlerKind where
  | catching
  | conditionCase
  deriving DecidableEq

/-- When a branch is taken, and what it leaves on the stack. The else-pop kinds keep the tested
value when they branch and pop it when they do not. -/
inductive BranchKind where
  | goto
  | ifNil
  | ifNotNil
  | ifNilElsePop
  | ifNotNilElsePop
  deriving DecidableEq

namespace BranchKind

def isConditional : BranchKind → Bool
  | .goto => false
  | _ => true

/-- Whether the branch is taken on nil. -/
def onNil : BranchKind → Bool
  | .ifNil | .ifNilElsePop => true
  | _ => false

def isElsePop : BranchKind → Bool
  | .ifNilElsePop | .ifNotNilElsePop => true
  | _ => false

end BranchKind

/-- How a branch spells its target: two bytes with the offset itself, or one byte, biased by 128,
with the distance from the end of the instruction. -/
inductive BranchForm where
  | absolute
  | relative
  deriving DecidableEq

/-- One instruction. -/
inductive Instruction where
  | stackRef (n : Nat)
  | varRef (index : Nat)
  | varSet (index : Nat)
  | varBind (index : Nat)
  | call (arguments : Nat)
  | unbind (count : Nat)
  | popHandler
  | pushHandler (kind : HandlerKind) (target : Nat)
  | constant (index : Nat)
  | branch (kind : BranchKind) (form : BranchForm) (target : Nat)
  | ret
  | discard
  | dup
  | unbindAll
  | listN (count : Nat)
  | concatN (count : Nat)
  | insertN (count : Nat)
  | stackSet (n : Nat)
  | discardN (count : Nat) (preserveTop : Bool)
  | operation (op : Operation)
  deriving DecidableEq

namespace Instruction

/-- An operand as a signed number of 64 bits: the upper half of the operands counts as negative. -/
def signed (operand : Nat) : Int := Int.bmod operand 0x10000000000000000

/-- The change of the stack depth when control falls through. -/
def effect : Instruction → Int
  | .stackRef _ | .varRef _ | .constant _ | .dup => 1
  | .varSet _ | .varBind _ | .discard | .stackSet _ | .pushHandler _ _ => -1
  | .call n => -signed n
  | .unbind _ | .popHandler | .unbindAll | .ret => 0
  | .branch kind _ _ => if kind.isConditional then -1 else 0
  | .listN n | .concatN n | .insertN n => 1 - signed n
  | .discardN count _ => -signed count
  | .operation op => op.effect

/-- How many slots, counted from the top, the instruction reads or writes. -/
def reach : Instruction → Nat
  | .stackRef n | .stackSet n => n + 1
  | .varSet _ | .varBind _ | .discard | .dup | .pushHandler _ _ | .ret => 1
  | .call n => n + 1
  | .branch kind _ _ => if kind.isConditional then 1 else 0
  | .listN n | .concatN n | .insertN n => n
  | .discardN count preserveTop => count + if preserveTop then 1 else 0
  | .operation op => op.operands
  | .varRef _ | .constant _ | .unbind _ | .popHandler | .unbindAll => 0

/-- Whether control never falls through to the next instruction. -/
def isTerminator : Instruction → Bool
  | .ret | .branch .goto _ _ => true
  | _ => false

/-- The bytes that an operand of a sized family takes with its opcode. -/
def sizedLength (n : Nat) : Nat :=
  if n ≤ 5 then 1 else if n ≤ 0xff then 2 else 3

/-- The bytes of the shortest spelling. -/
def length : Instruction → Nat
  | .stackRef n => if n = 0 then 2 else sizedLength n
  | .varRef n | .varSet n | .varBind n | .call n | .unbind n => sizedLength n
  | .pushHandler _ _ | .branch _ .absolute _ => 3
  | .constant n => if n < 64 then 1 else 3
  | .branch _ .relative _ | .listN _ | .concatN _ | .insertN _ | .discardN _ _ => 2
  | .stackSet n => if n ≤ 0xff then 2 else 3
  | .popHandler | .ret | .discard | .dup | .unbindAll | .operation _ => 1

/-- Where the instruction may send control, if it names an offset. -/
def target? : Instruction → Option Nat
  | .branch _ _ target | .pushHandler _ target => some target
  | _ => none

end Instruction

end LispMachine
