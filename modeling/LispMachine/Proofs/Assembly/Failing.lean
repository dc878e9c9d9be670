import LispMachine.Proofs.Assembly.Transcript

/-!
What a failed call leaves in an assembler. A call fails when the instruction that it writes cannot be
written where it would stand. It then has changed neither the labels nor the notes of the jumps, and
no constant has lost its place. But the code is as it was only for the forms whose operand is looked
at before their opcode is put down; for the others the opcode stays (`Instruction.remains`), and what
is written next takes it for its own first byte.

The main statement is `AssemblyCall.failed_leaves_remains`. `AssemblyCall.failed_keeps_opcode` is a
list of too many items whose opcode stays and swallows the instruction behind it.
-/

set_option autoImplicit false

namespace LispMachine

/-- The instruction that a call writes, if it writes one, before any jump is filled in. -/
def AssemblyCall.instruction? (assembler : Assembler) : AssemblyCall → Option Instruction
  | .newLabel | .bind _ | .addConstant _ => none
  | .emit instruction => some instruction
  | .constant value => some (.constant (assembler.constantIndex value).1)
  | .varRef symbol => some (.varRef (assembler.constantIndex symbol).1)
  | .varSet symbol => some (.varSet (assembler.constantIndex symbol).1)
  | .varBind symbol => some (.varBind (assembler.constantIndex symbol).1)
  | .operation op => some (.operation op)
  | .branch kind form label =>
    some (.branch kind form ((assembler.offsetOf? label).getD (assembler.code.size + 2)))
  | .pushHandler kind _ => some (.pushHandler kind 0)

/-- A failed attempt to write an instruction leaves what remains of it. -/
theorem CodeWriter.remains_of_error {code left : Code} {inst : Instruction} {reason : EncodeError}
    (hrun : instruction inst code = .error reason left) : left = code.extend inst.remains := by
  by_cases hwritable : inst.Writable code.size
  · rw [instruction_of_writable hwritable] at hrun
    cases hrun
  · obtain ⟨_, hfail⟩ := instruction_of_not_writable hwritable
    rw [hfail] at hrun
    cases hrun
    rfl

/-- Nothing is left exactly where nothing remains. -/
theorem Code.extend_eq_self_iff (code : Code) (bytes : List Nat) :
    code.extend bytes = code ↔ bytes = [] := by
  constructor
  · intro hsame
    have hsize := congrArg Array.size hsame
    rw [size_extend] at hsize
    exact List.eq_nil_of_length_eq_zero (by omega)
  · rintro rfl
    exact code.extend_nil

/-- An action on an assembler fails as the writing of an instruction does, and changes nothing but
the code, and the constants as the given assembler has them. -/
def Assembly.FailsAs (assembler : Assembler) (instruction : Instruction) (reason : EncodeError)
    (after : Assembler) : Prop :=
  CodeWriter.instruction instruction assembler.code = .error reason after.code ∧
    after = { assembler with code := after.code }

namespace Assembly

variable {assembler after : Assembler} {instruction : Instruction} {reason : EncodeError}

theorem emit_eq_error (hrun : emit instruction assembler = .error reason after) :
    FailsAs assembler instruction reason after := by
  unfold emit at hrun
  cases hwrite : CodeWriter.instruction instruction assembler.code with
  | ok _ longer =>
    rw [hwrite] at hrun
    cases hrun
  | error why left =>
    rw [hwrite] at hrun
    cases hrun
    exact ⟨hwrite, rfl⟩

/-- A constant finds its place first. What fails is the writing of the instruction that uses it. -/
theorem emit_place_eq_error {value : Value} {instruction : Nat → Instruction}
    (hrun : (do emit (instruction (← constantIndex value)) : Assembly Unit) assembler =
      .error reason after) :
    ∃ constants, PoolGrows assembler.constants constants ∧
      FailsAs { assembler with constants } (instruction (assembler.constantIndex value).1) reason
        after := by
  obtain ⟨index, constants, hindex, -, hgrows⟩ := assembler.constantIndex_spec value
  rw [emit_place_apply, hindex] at hrun
  rw [hindex]
  exact ⟨constants, hgrows, emit_eq_error hrun⟩

/-- Noting a jump does not fail, so the writing before it does. -/
theorem emit_addFixup_eq_error {fixup : Fixup}
    (hrun : (do emit instruction; addFixup fixup : Assembly Unit) assembler =
      .error reason after) : FailsAs assembler instruction reason after := by
  change EStateM.bind _ _ assembler = _ at hrun
  unfold EStateM.bind at hrun
  cases hemit : emit instruction assembler with
  | ok _ middle =>
    rw [hemit] at hrun
    cases hrun
  | error why middle =>
    rw [hemit] at hrun
    cases hrun
    exact emit_eq_error hemit

end Assembly

namespace AssemblyCall

variable {call : AssemblyCall} {assembler after : Assembler} {reason : EncodeError}

/-- A failed call is a failed attempt to write its instruction, after its constant has found its
place. -/
theorem failsAs_of_error (hrun : call.run assembler = .error reason after) :
    ∃ instruction constants, call.instruction? assembler = some instruction ∧
      PoolGrows assembler.constants constants ∧
      Assembly.FailsAs { assembler with constants } instruction reason after := by
  have hsame : PoolGrows assembler.constants assembler.constants := fun _ _ hplace ↦ hplace
  cases call with
  | newLabel | bind | addConstant => cases hrun
  | emit | operation => exact ⟨_, _, rfl, hsame, Assembly.emit_eq_error hrun⟩
  | constant | varRef | varSet | varBind =>
    obtain ⟨constants, hgrows, hfails⟩ := Assembly.emit_place_eq_error hrun
    exact ⟨_, constants, rfl, hgrows, hfails⟩
  | branch kind form label =>
    refine ⟨_, _, rfl, hsame, ?_⟩
    change Assembly.branch kind form label assembler = _ at hrun
    rw [Assembly.branch_apply] at hrun
    cases hbound : assembler.offsetOf? label with
    | some target =>
      rw [hbound] at hrun
      exact Assembly.emit_eq_error hrun
    | none =>
      rw [hbound] at hrun
      exact Assembly.emit_addFixup_eq_error hrun
  | pushHandler kind label =>
    exact ⟨_, _, rfl, hsame, Assembly.emit_addFixup_eq_error hrun⟩

/-- A failed call leaves the labels and the noted jumps as they were, and every constant in its
place. The code keeps what remains of the instruction that could not be written, so it is as it was,
and assembling can go on from there, exactly when nothing remains of that instruction. -/
theorem failed_leaves_remains (hrun : call.run assembler = .error reason after) :
    ∃ instruction, call.instruction? assembler = some instruction ∧
      CodeWriter.instruction instruction assembler.code = .error reason after.code ∧
      after.code = assembler.code.extend instruction.remains ∧
      after = { assembler with code := after.code, constants := after.constants } ∧
      PoolGrows assembler.constants after.constants ∧
      (after = { assembler with constants := after.constants } ↔ instruction.remains = []) := by
  obtain ⟨instruction, constants, hinstruction, hgrows, hwrite, hafter⟩ := failsAs_of_error hrun
  have hcode := CodeWriter.remains_of_error hwrite
  have hconstants : after.constants = constants := by rw [hafter]
  refine ⟨instruction, hinstruction, hwrite, hcode, ?_, hconstants ▸ hgrows, ?_⟩
  · rw [hconstants]
    exact hafter
  · rw [← assembler.code.extend_eq_self_iff, ← hcode, hconstants]
    constructor
    · intro hkept
      rw [hkept]
    · intro hkept
      rw [hafter, hkept]

/-- Of a discard of too many values nothing remains, and the code is as it was. -/
theorem failed_leaves_remains_discard :
    let assembler : Assembler := { code := #[0xC0], labels := #[none] }
    let call : AssemblyCall := .emit (.discardN 128 false)
    call.run assembler = .error (.operandTooLarge "discardN" 128) assembler ∧
      ∃ instruction, call.instruction? assembler = some instruction ∧
        instruction.remains = [] ∧ assembler.code.extend instruction.remains = #[0xC0] := by
  intro assembler call
  have hrun : call.run assembler = .error (.operandTooLarge "discardN" 128) assembler := rfl
  obtain ⟨instruction, hinstruction, -, hcode, -, -, hremains⟩ := failed_leaves_remains hrun
  exact ⟨hrun, instruction, hinstruction, hremains.mp rfl, hcode.symm⟩

/-- A list of 256 items is refused but leaves its opcode in the code. A return that is written
next is read as the number of the items. -/
theorem failed_keeps_opcode :
    ∃ (assembler after last : Assembler),
      (AssemblyCall.emit (.listN 256)).run assembler =
          .error (.operandTooLarge "listN" 256) after ∧
        after.code ≠ assembler.code ∧
        (AssemblyCall.emit .ret).run after = .ok () last ∧
        Code.decode last.code assembler.code.size = .ok (.listN 0x87, last.code.size) := by
  let assembler : Assembler := { code := #[0xC0] }
  exact ⟨assembler, { assembler with code := #[0xC0, 0xAF] },
    { assembler with code := #[0xC0, 0xAF, 0x87] }, rfl, by decide, rfl, by decide +kernel⟩

end AssemblyCall

end LispMachine
