import LispMachine.Instruction.Basic

/-!
The numbering of the opcodes that are not one-byte operations. The six *sized* families reserve
eight opcodes each: the first six carry the operand themselves, the seventh is followed by one
operand byte and the eighth by two, low byte first.
-/

set_option autoImplicit false

namespace LispMachine

/-- The code of a function: its bytes in order. -/
abbrev Code := Array UInt8

/-- The instruction families whose operand can be folded into the opcode. -/
inductive SizedFamily where
  | stackRef
  | varRef
  | varSet
  | varBind
  | call
  | unbind
  deriving DecidableEq

namespace SizedFamily

/-- The first of the eight opcodes of a family. -/
def base : SizedFamily → Nat
  | .stackRef => 0o0
  | .varRef => 0o10
  | .varSet => 0o20
  | .varBind => 0o30
  | .call => 0o40
  | .unbind => 0o50

/-- The instruction of a family with its operand. -/
def instruction : SizedFamily → Nat → Instruction
  | .stackRef, n => .stackRef n
  | .varRef, n => .varRef n
  | .varSet, n => .varSet n
  | .varBind, n => .varBind n
  | .call, n => .call n
  | .unbind, n => .unbind n

/-- What the operand is called when it does not fit. -/
def operandName : SizedFamily → String
  | .stackRef => "stack-ref"
  | .varRef => "varref"
  | .varSet => "varset"
  | .varBind => "varbind"
  | .call => "call"
  | .unbind => "unbind"

/-- The family of an opcode below `Opcode.popHandler`. -/
def ofOpcode (opcode : Nat) : SizedFamily :=
  match opcode / 8 with
  | 0 => .stackRef
  | 1 => .varRef
  | 2 => .varSet
  | 3 => .varBind
  | 4 => .call
  | _ => .unbind

end SizedFamily

namespace Opcode

def popHandler : Nat := 0o60
def pushConditionCase : Nat := 0o61
def pushCatch : Nat := 0o62
def constantWide : Nat := 0o201
def goto : Nat := 0o202
def ret : Nat := 0o207
def discard : Nat := 0o210
def dup : Nat := 0o211
def unbindAll : Nat := 0o222
def relativeGoto : Nat := 0o252
def listN : Nat := 0o257
def concatN : Nat := 0o260
def insertN : Nat := 0o261
def stackSet : Nat := 0o262
def stackSetWide : Nat := 0o263
def discardN : Nat := 0o266

/-- The first of the 64 opcodes that push one of the first 64 constants. -/
def constant : Nat := 0o300

end Opcode

/-- The place of a branch kind among the five opcodes of a branch form. -/
def BranchKind.index : BranchKind → Nat
  | .goto => 0
  | .ifNil => 1
  | .ifNotNil => 2
  | .ifNilElsePop => 3
  | .ifNotNilElsePop => 4

/-- The branch kind at a place among the five opcodes of a branch form. -/
def BranchKind.ofIndex : Nat → BranchKind
  | 0 => .goto
  | 1 => .ifNil
  | 2 => .ifNotNil
  | 3 => .ifNilElsePop
  | _ => .ifNotNilElsePop

end LispMachine
