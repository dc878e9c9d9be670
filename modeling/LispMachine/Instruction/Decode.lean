import LispMachine.Fault
import LispMachine.Instruction.Opcode

/-!
Reading the instruction at an offset. `decode` gives the instruction with the offset of the next
one, or the fault that running into that offset raises.
-/

set_option autoImplicit false

namespace LispMachine

namespace Code

/-- The operand byte at `offset` of the instruction with `opcode` at `start`. -/
def operandByte (code : Code) (offset : Nat) (opcode : UInt8) (start : Nat) :
    Except Fault Nat :=
  match code[offset]? with
  | some byte => .ok byte.toNat
  | none => .error (.truncatedOperand opcode start)

/-- The two-byte operand at `offset`, low byte first. -/
def operandWord (code : Code) (offset : Nat) (opcode : UInt8) (start : Nat) :
    Except Fault Nat := do
  let low ← code.operandByte offset opcode start
  let high ← code.operandByte (offset + 1) opcode start
  return low + 256 * high

/-- The instruction of a sized family. -/
def decodeSized (code : Code) (opcode : UInt8) (start : Nat) :
    Except Fault (Instruction × Nat) := do
  let family := SizedFamily.ofOpcode opcode.toNat
  match opcode.toNat % 8 with
  | 6 => return (family.instruction (← code.operandByte (start + 1) opcode start), start + 2)
  | 7 => return (family.instruction (← code.operandWord (start + 1) opcode start), start + 3)
  | n =>
    if opcode = 0 then throw (.invalidOpcode opcode start)
    return (family.instruction n, start + 1)

/-- The instructions that are neither sized, nor short constants, nor one-byte operations. -/
def decodePlain (code : Code) (opcode : UInt8) (start : Nat) :
    Except Fault (Instruction × Nat) := do
  let k := opcode.toNat
  if k = Opcode.popHandler then return (.popHandler, start + 1)
  else if k = Opcode.pushConditionCase then
    return (.pushHandler .conditionCase (← code.operandWord (start + 1) opcode start), start + 3)
  else if k = Opcode.pushCatch then
    return (.pushHandler .catching (← code.operandWord (start + 1) opcode start), start + 3)
  else if k = Opcode.constantWide then
    return (.constant (← code.operandWord (start + 1) opcode start), start + 3)
  else if Opcode.goto ≤ k ∧ k < Opcode.goto + 5 then
    let target ← code.operandWord (start + 1) opcode start
    return (.branch (.ofIndex (k - Opcode.goto)) .absolute target, start + 3)
  else if Opcode.relativeGoto ≤ k ∧ k < Opcode.relativeGoto + 5 then
    let distance ← code.operandByte (start + 1) opcode start
    if start + 2 + distance < 128 then
      throw (.branchOutOfRange start ((start + 2 + distance : Nat) - 128))
    let kind := BranchKind.ofIndex (k - Opcode.relativeGoto)
    return (.branch kind .relative (start + 2 + distance - 128), start + 2)
  else if k = Opcode.ret then return (.ret, start + 1)
  else if k = Opcode.discard then return (.discard, start + 1)
  else if k = Opcode.dup then return (.dup, start + 1)
  else if k = Opcode.unbindAll then return (.unbindAll, start + 1)
  else if k = Opcode.listN then
    return (.listN (← code.operandByte (start + 1) opcode start), start + 2)
  else if k = Opcode.concatN then
    return (.concatN (← code.operandByte (start + 1) opcode start), start + 2)
  else if k = Opcode.insertN then
    return (.insertN (← code.operandByte (start + 1) opcode start), start + 2)
  else if k = Opcode.stackSet then
    return (.stackSet (← code.operandByte (start + 1) opcode start), start + 2)
  else if k = Opcode.stackSetWide then
    return (.stackSet (← code.operandWord (start + 1) opcode start), start + 3)
  else if k = Opcode.discardN then
    let operand ← code.operandByte (start + 1) opcode start
    return (.discardN (operand % 128) (128 ≤ operand), start + 2)
  else throw (.invalidOpcode opcode start)

/-- The instruction at `start`, with the offset of the next one. -/
def decode (code : Code) (start : Nat) : Except Fault (Instruction × Nat) :=
  match code[start]? with
  | none => .error (.truncatedOperand 0 start)
  | some opcode =>
    if opcode.toNat < Opcode.popHandler then code.decodeSized opcode start
    else if Opcode.constant ≤ opcode.toNat then
      .ok (.constant (opcode.toNat - Opcode.constant), start + 1)
    else match Operation.ofByte? opcode with
      | some operation => .ok (.operation operation, start + 1)
      | none => code.decodePlain opcode start

end Code

end LispMachine
