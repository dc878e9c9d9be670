import LispMachine.Instruction.Decode
import Mathlib.Data.List.Basic
import Mathlib.Tactic.SplitIfs

/-!
What can be relied on after decoding: the next instruction starts behind this one, at the end of
the code at most, and the operands that count values on the stack are small
(`Code.decode_sound`).
-/

set_option autoImplicit false

namespace LispMachine

/-- The operands that count values fit in two bytes. -/
def Instruction.Small : Instruction → Prop
  | .call n | .listN n | .concatN n | .insertN n | .discardN n _ => n ≤ 0xffff
  | _ => True

theorem SizedFamily.small_instruction (family : SizedFamily) {n : Nat} (hn : n ≤ 0xffff) :
    (family.instruction n).Small := by
  cases family with
  | call => exact hn
  | _ => trivial

namespace Code

/-- What is decoded at `start` is sound: control moves forward, within the code, and the operands
are small. -/
structure Sound (code : Code) (start : Nat) (instruction : Instruction) (next : Nat) : Prop where
  lt_next : start < next
  next_le : next ≤ code.size
  small : instruction.Small

/-- What is decoded at `start`, if anything, is sound. -/
def Soundly (code : Code) (start : Nat) (decoded : Except Fault (Instruction × Nat)) : Prop :=
  ∀ instruction next, decoded = .ok (instruction, next) → code.Sound start instruction next

variable {code : Code} {start : Nat} {opcode : UInt8}

theorem operandByte_bounds {offset n : Nat} (hread : code.operandByte offset opcode start = .ok n) :
    offset < code.size ∧ n ≤ 0xff := by
  unfold operandByte at hread
  cases hbyte : code[offset]? with
  | none =>
    rw [hbyte] at hread
    cases hread
  | some byte =>
    rw [hbyte] at hread
    cases hread
    exact ⟨(Array.getElem?_eq_some_iff.mp hbyte).1, Nat.le_of_lt_succ byte.toNat_lt⟩

theorem operandWord_bounds {offset n : Nat} (hread : code.operandWord offset opcode start = .ok n) :
    offset + 1 < code.size ∧ n ≤ 0xffff := by
  unfold operandWord at hread
  cases hlow : code.operandByte offset opcode start with
  | error fault =>
    rw [hlow] at hread
    cases hread
  | ok low =>
    rw [hlow] at hread
    change (code.operandByte (offset + 1) opcode start >>= _) = _ at hread
    cases hhigh : code.operandByte (offset + 1) opcode start with
    | error fault =>
      rw [hhigh] at hread
      cases hread
    | ok high =>
      rw [hhigh] at hread
      cases hread
      have hbounds := operandByte_bounds hlow
      have hbounds' := operandByte_bounds hhigh
      omega

theorem soundly_ok {instruction : Instruction} {next : Nat} (hstart : start < next)
    (hnext : next ≤ code.size) (hsmall : instruction.Small) :
    code.Soundly start (.ok (instruction, next)) := by
  rintro _ _ hdecoded
  cases hdecoded
  exact ⟨hstart, hnext, hsmall⟩

theorem soundly_error (fault : Fault) : code.Soundly start (.error fault) := nofun

theorem soundly_ite {condition : Prop} [Decidable condition]
    {first second : Except Fault (Instruction × Nat)} (hfirst : code.Soundly start first)
    (hsecond : code.Soundly start second) :
    code.Soundly start (if condition then first else second) := by
  split_ifs
  · exact hfirst
  · exact hsecond

theorem soundly_operandByte {next : Nat → Except Fault (Instruction × Nat)}
    (hnext : start + 2 ≤ code.size → ∀ n, n ≤ 0xff → code.Soundly start (next n)) :
    code.Soundly start (code.operandByte (start + 1) opcode start >>= next) := by
  cases hread : code.operandByte (start + 1) opcode start with
  | error fault => exact soundly_error fault
  | ok n =>
    obtain ⟨hsize, hn⟩ := operandByte_bounds hread
    exact hnext hsize n hn

theorem soundly_operandWord {next : Nat → Except Fault (Instruction × Nat)}
    (hnext : start + 3 ≤ code.size → ∀ n, n ≤ 0xffff → code.Soundly start (next n)) :
    code.Soundly start (code.operandWord (start + 1) opcode start >>= next) := by
  cases hread : code.operandWord (start + 1) opcode start with
  | error fault => exact soundly_error fault
  | ok n =>
    obtain ⟨hsize, hn⟩ := operandWord_bounds hread
    exact hnext hsize n hn

theorem soundly_decodeSized (hstart : start < code.size) (opcode : UInt8) :
    code.Soundly start (code.decodeSized opcode start) := by
  unfold decodeSized
  split
  · exact soundly_operandByte fun hsize n hn ↦
      soundly_ok (by omega) hsize (SizedFamily.small_instruction _ (by omega))
  · exact soundly_operandWord fun hsize n hn ↦
      soundly_ok (by omega) hsize (SizedFamily.small_instruction _ hn)
  · refine soundly_ite (soundly_error _) (soundly_ok (by omega) hstart ?_)
    exact SizedFamily.small_instruction _ (by omega)

theorem soundly_decodePlain (hstart : start < code.size) (opcode : UInt8) :
    code.Soundly start (code.decodePlain opcode start) := by
  have hone {instruction : Instruction} (hsmall : instruction.Small) :
      code.Soundly start (.ok (instruction, start + 1)) :=
    soundly_ok (by omega) hstart hsmall
  have hbyte {instruction : Nat → Instruction} (hsmall : ∀ n, n ≤ 0xff → (instruction n).Small) :
      code.Soundly start (code.operandByte (start + 1) opcode start >>= fun n ↦
        .ok (instruction n, start + 2)) :=
    soundly_operandByte fun hsize n hn ↦ soundly_ok (by omega) hsize (hsmall n hn)
  have hword {instruction : Nat → Instruction} (hsmall : ∀ n, (instruction n).Small) :
      code.Soundly start (code.operandWord (start + 1) opcode start >>= fun n ↦
        .ok (instruction n, start + 3)) :=
    soundly_operandWord fun hsize n hn ↦ soundly_ok (by omega) hsize (hsmall n)
  have hcount {n : Nat} (hn : n ≤ 0xff) : n ≤ 0xffff := by omega
  unfold decodePlain
  refine soundly_ite (hone trivial) ?_
  refine soundly_ite (hword fun _ ↦ trivial) (soundly_ite (hword fun _ ↦ trivial) ?_)
  refine soundly_ite (hword fun _ ↦ trivial) (soundly_ite (hword fun _ ↦ trivial) ?_)
  refine soundly_ite ?_ (soundly_ite (hone trivial) (soundly_ite (hone trivial) ?_))
  · exact soundly_operandByte fun hsize n _ ↦
      soundly_ite (soundly_error _) (soundly_ok (by omega) hsize trivial)
  refine soundly_ite (hone trivial) (soundly_ite (hone trivial) ?_)
  refine soundly_ite (hbyte fun _ ↦ hcount) (soundly_ite (hbyte fun _ ↦ hcount) ?_)
  refine soundly_ite (hbyte fun _ ↦ hcount) (soundly_ite (hbyte fun _ _ ↦ trivial) ?_)
  refine soundly_ite (hword fun _ ↦ trivial) (soundly_ite (hbyte fun n hn ↦ ?_) (soundly_error _))
  exact hcount (Nat.le_trans (Nat.mod_le n 128) hn)

/-- What is decoded is sound. -/
theorem decode_sound {instruction : Instruction} {next : Nat}
    (hdecode : code.decode start = .ok (instruction, next)) :
    code.Sound start instruction next := by
  suffices code.Soundly start (code.decode start) from this instruction next hdecode
  unfold decode
  cases hopcode : code[start]? with
  | none => exact soundly_error _
  | some opcode =>
    have hstart : start < code.size := (Array.getElem?_eq_some_iff.mp hopcode).1
    refine soundly_ite (soundly_decodeSized hstart opcode) (soundly_ite ?_ ?_)
    · exact soundly_ok (by omega) hstart trivial
    · cases Operation.ofByte? opcode with
      | some operation => exact soundly_ok (by omega) hstart trivial
      | none => exact soundly_decodePlain hstart opcode

end Code

end LispMachine
