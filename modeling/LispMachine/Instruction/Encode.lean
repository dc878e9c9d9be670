import LispMachine.Fault
import LispMachine.Instruction.Opcode

/-!
Writing instructions. An instruction is appended to the code written so far, in its shortest
spelling; a relative branch measures its distance from the place where it is put. When an operand
does not fit, the writer stops there: what was already written of the instruction stays written.
-/

set_option autoImplicit false

namespace LispMachine

/-- Why code could not be written. -/
inductive EncodeError where
  /-- The operand `value` is too large for the place called `what`. -/
  | operandTooLarge (what : String) (value : Nat)
  | relativeOutOfRange (source target : Nat)
  | stackRefZero
  | unboundLabel (label : Nat)
  /-- The finished code cannot be given an operand stack. -/
  | invalid (fault : Fault)
  deriving DecidableEq

/-- The error in words. -/
def EncodeError.message : EncodeError → String
  | .operandTooLarge what value => s!"operand {value} does not fit {what}"
  | .relativeOutOfRange source target => s!"relative branch from {source} cannot reach {target}"
  | .stackRefZero => "stack-ref 0 has no encoding; use dup"
  | .unboundLabel label => s!"label {label} was never bound"
  | .invalid fault => s!"invalid program: {fault.message}"

/-- The distance of a target from the end of a relative branch at `source`, biased by 128. It is a
number of 64 bits: what lies too far back counts from the largest of them. -/
def relativeDistance (source target : Nat) : Nat :=
  (((target : Int) - (source + 2) + 128) % 0x10000000000000000).toNat

/-- The byte that a relative branch at `source` spells its target with, if the distance fits. -/
def relativeOperand? (source target : Nat) : Option Nat :=
  if relativeDistance source target ≤ 255 then some (relativeDistance source target) else none

/-- Writing at the end of a code string. -/
abbrev CodeWriter := EStateM EncodeError Code

namespace CodeWriter

/-- Append one byte. -/
def byte (n : Nat) : CodeWriter Unit :=
  modify fun code => code.push (UInt8.ofNat n)

/-- Append an operand of one byte. -/
def operandByte (n : Nat) (what : String) : CodeWriter Unit := do
  if n > 0xff then throw (.operandTooLarge what n)
  byte n

/-- Append an operand of two bytes, low byte first. -/
def operandWord (n : Nat) (what : String) : CodeWriter Unit := do
  if n > 0xffff then throw (.operandTooLarge what n)
  byte (n % 256)
  byte (n / 256)

/-- Append an instruction of a sized family. -/
def sized (family : SizedFamily) (n : Nat) : CodeWriter Unit := do
  if n ≤ 5 then byte (family.base + n)
  else if n ≤ 0xff then
    byte (family.base + 6)
    byte n
  else if n ≤ 0xffff then
    byte (family.base + 7)
    byte (n % 256)
    byte (n / 256)
  else throw (.operandTooLarge family.operandName n)

/-- Append a relative branch from the present end of the code. -/
def relativeBranch (kind : BranchKind) (target : Nat) : CodeWriter Unit := do
  let source := (← get).size
  match relativeOperand? source target with
  | some operand =>
    byte (Opcode.relativeGoto + kind.index)
    byte operand
  | none => throw (.relativeOutOfRange source target)

/-- Append an instruction in its shortest spelling. -/
def instruction : Instruction → CodeWriter Unit
  | .stackRef n => if n = 0 then throw .stackRefZero else sized .stackRef n
  | .varRef n => sized .varRef n
  | .varSet n => sized .varSet n
  | .varBind n => sized .varBind n
  | .call n => sized .call n
  | .unbind n => sized .unbind n
  | .popHandler => byte Opcode.popHandler
  | .pushHandler kind target => do
    match kind with
    | .catching => byte Opcode.pushCatch
    | .conditionCase => byte Opcode.pushConditionCase
    operandWord target "handler target"
  | .constant n => do
    if n < 64 then byte (Opcode.constant + n)
    else
      byte Opcode.constantWide
      operandWord n "constant2"
  | .branch kind .absolute target => do
    byte (Opcode.goto + kind.index)
    operandWord target "branch target"
  | .branch kind .relative target => relativeBranch kind target
  | .ret => byte Opcode.ret
  | .discard => byte Opcode.discard
  | .dup => byte Opcode.dup
  | .unbindAll => byte Opcode.unbindAll
  | .listN n => do
    byte Opcode.listN
    operandByte n "listN"
  | .concatN n => do
    byte Opcode.concatN
    operandByte n "concatN"
  | .insertN n => do
    byte Opcode.insertN
    operandByte n "insertN"
  | .stackSet n => do
    if n ≤ 0xff then
      byte Opcode.stackSet
      byte n
    else
      byte Opcode.stackSetWide
      operandWord n "stack-set2"
  | .discardN count preserveTop => do
    if count > 0x7f then throw (.operandTooLarge "discardN" count)
    byte Opcode.discardN
    byte (count + if preserveTop then 128 else 0)
  | .operation operation => byte operation.opcode.toNat

end CodeWriter

/-- The code with the instruction put at its end, or why that failed. -/
def Code.append (code : Code) (instruction : Instruction) : Except EncodeError Code :=
  match CodeWriter.instruction instruction code with
  | .ok _ longer => .ok longer
  | .error reason _ => .error reason

end LispMachine
