import LispMachine.Instruction.Decode
import LispMachine.Instruction.Encode
import Mathlib.Tactic.IntervalCases

/-!
The spelling of instructions, apart from writing and reading them. `Instruction.Fits` says when the
operand of an instruction fits its form at an offset. The writer takes a little more,
`Instruction.Writable`: it computes the distance of a relative branch with 64 bits, so a target at
the upper end of the 64-bit numbers can pass for one just behind. `Instruction.spelling` lists the
bytes of a writable instruction.

The writer appends exactly the spelling of what is writable, and otherwise fails and leaves what
`Instruction.remains` says (`instruction_of_writable`, `instruction_of_not_writable`); the spelling
has the length that `Instruction.length` gives (`length_spelling`); and reading where the bytes of a
spelling stand gives the instruction back exactly when its operand fits (`decode_iff_fits`),
whatever follows.
-/

set_option autoImplicit false

namespace LispMachine

/-! ### Operands that fit and their bytes -/

/-- The operand of an instruction fits the form that the instruction has at `source`. -/
def Instruction.Fits (source : Nat) : Instruction → Prop
  | .stackRef n => 1 ≤ n ∧ n ≤ 0xffff
  | .varRef n | .varSet n | .varBind n | .call n | .unbind n | .constant n | .stackSet n =>
    n ≤ 0xffff
  | .pushHandler _ target | .branch _ .absolute target => target ≤ 0xffff
  | .branch _ .relative target => source + 2 ≤ target + 128 ∧ target ≤ source + 2 + 127
  | .listN n | .concatN n | .insertN n => n ≤ 0xff
  | .discardN count _ => count ≤ 0x7f
  | .popHandler | .ret | .discard | .dup | .unbindAll | .operation _ => True

instance (source : Nat) (instruction : Instruction) : Decidable (instruction.Fits source) := by
  cases instruction with
  | branch _ form _ => cases form <;> (unfold Instruction.Fits; infer_instance)
  | _ => unfold Instruction.Fits; infer_instance

/-- The writer has bytes for the instruction at `source`. -/
def Instruction.Writable (source : Nat) : Instruction → Prop
  | .branch _ .relative target => relativeDistance source target ≤ 255
  | instruction => instruction.Fits source

/-- The distance of a target that is near enough is the plain one. -/
theorem relativeDistance_of_near {source target : Nat}
    (hnear : source + 2 ≤ target + 128 ∧ target ≤ source + 2 + 127) :
    relativeDistance source target = target + 128 - (source + 2) := by
  unfold relativeDistance
  rw [Int.emod_eq_of_lt (by omega) (by omega)]
  omega

/-- What fits can be written. -/
theorem Instruction.Fits.writable {source : Nat} {instruction : Instruction}
    (hfits : instruction.Fits source) : instruction.Writable source := by
  cases instruction with
  | branch kind form target =>
    cases form with
    | absolute => exact hfits
    | relative =>
      have hnear : source + 2 ≤ target + 128 ∧ target ≤ source + 2 + 127 := hfits
      change relativeDistance source target ≤ 255
      rw [relativeDistance_of_near hnear]
      omega
  | _ => exact hfits

/-- The bytes of a sized family with an operand. -/
def SizedFamily.spelling (family : SizedFamily) (n : Nat) : List Nat :=
  if n ≤ 5 then [family.base + n]
  else if n ≤ 0xff then [family.base + 6, n]
  else [family.base + 7, n % 256, n / 256]

/-- The opcode that pushes a handler. -/
def HandlerKind.opcode : HandlerKind → Nat
  | .catching => Opcode.pushCatch
  | .conditionCase => Opcode.pushConditionCase

/-- The bytes of an instruction at `source`, where it can be written. -/
def Instruction.spelling (source : Nat) : Instruction → List Nat
  | .stackRef n => SizedFamily.stackRef.spelling n
  | .varRef n => SizedFamily.varRef.spelling n
  | .varSet n => SizedFamily.varSet.spelling n
  | .varBind n => SizedFamily.varBind.spelling n
  | .call n => SizedFamily.call.spelling n
  | .unbind n => SizedFamily.unbind.spelling n
  | .popHandler => [Opcode.popHandler]
  | .pushHandler kind target => [kind.opcode, target % 256, target / 256]
  | .constant n =>
    if n < 64 then [Opcode.constant + n] else [Opcode.constantWide, n % 256, n / 256]
  | .branch kind .absolute target => [Opcode.goto + kind.index, target % 256, target / 256]
  | .branch kind .relative target =>
    [Opcode.relativeGoto + kind.index, relativeDistance source target]
  | .ret => [Opcode.ret]
  | .discard => [Opcode.discard]
  | .dup => [Opcode.dup]
  | .unbindAll => [Opcode.unbindAll]
  | .listN n => [Opcode.listN, n]
  | .concatN n => [Opcode.concatN, n]
  | .insertN n => [Opcode.insertN, n]
  | .stackSet n =>
    if n ≤ 0xff then [Opcode.stackSet, n] else [Opcode.stackSetWide, n % 256, n / 256]
  | .discardN count preserveTop => [Opcode.discardN, count + if preserveTop then 128 else 0]
  | .operation op => [op.opcode.toNat]

/-- What a failed attempt to write an instruction leaves of it: the opcode, where the operand is looked
at only after the opcode has been put down. -/
def Instruction.remains : Instruction → List Nat
  | .pushHandler kind _ => [kind.opcode]
  | .constant n => if n < 64 then [] else [Opcode.constantWide]
  | .branch kind .absolute _ => [Opcode.goto + kind.index]
  | .listN _ => [Opcode.listN]
  | .concatN _ => [Opcode.concatN]
  | .insertN _ => [Opcode.insertN]
  | .stackSet n => if n ≤ 0xff then [] else [Opcode.stackSetWide]
  | _ => []

/-- A code string with more bytes at its end. -/
def Code.extend (code : Code) (bytes : List Nat) : Code :=
  code ++ (bytes.map UInt8.ofNat).toArray

@[simp] theorem Code.size_extend (code : Code) (bytes : List Nat) :
    (code.extend bytes).size = code.size + bytes.length := by
  simp [Code.extend]

@[simp] theorem Code.extend_nil (code : Code) : code.extend [] = code := by
  simp [Code.extend]

/-- The spelling of a sized instruction is as long as `Instruction.sizedLength` says. -/
theorem SizedFamily.length_spelling (family : SizedFamily) (n : Nat) :
    (family.spelling n).length = Instruction.sizedLength n := by
  unfold SizedFamily.spelling Instruction.sizedLength
  split_ifs <;> rfl

/-- Assumes: the instruction can be written. The spelling is as long as the instruction. -/
theorem Instruction.length_spelling {source : Nat} {instruction : Instruction}
    (hwritable : instruction.Writable source) :
    (instruction.spelling source).length = instruction.length := by
  cases instruction with
  | stackRef n =>
    have hpositive : n ≠ 0 := Nat.one_le_iff_ne_zero.mp hwritable.1
    simp only [Instruction.spelling, Instruction.length, if_neg hpositive,
      SizedFamily.length_spelling]
  | varRef n | varSet n | varBind n | call n | unbind n =>
    exact SizedFamily.length_spelling _ n
  | constant n | stackSet n =>
    simp only [Instruction.spelling, Instruction.length]
    split_ifs <;> rfl
  | branch kind form target => cases form <;> rfl
  | _ => rfl

/-! ### Writing -/

theorem Code.extend_extend (code : Code) (first second : List Nat) :
    (code.extend first).extend second = code.extend (first ++ second) := by
  simp [Code.extend]

namespace CodeWriter

theorem byte_apply (n : Nat) (code : Code) : byte n code = .ok () (code.extend [n]) :=
  rfl

/-- Writing one thing after another, where the first is written. -/
theorem bind_of_ok {first : CodeWriter Unit} {second : Unit → CodeWriter Unit}
    {code longer : Code} (hfirst : first code = .ok () longer) :
    (first >>= second) code = second () longer := by
  change EStateM.bind first second code = second () longer
  rw [EStateM.bind, hfirst]

theorem get_bind (rest : Code → CodeWriter Unit) (code : Code) :
    (get >>= rest) code = rest code code :=
  rfl

theorem bytes_apply (first second : Nat) (code : Code) :
    (do byte first; byte second : CodeWriter Unit) code = .ok () (code.extend [first, second]) := by
  rw [bind_of_ok (byte_apply first code), byte_apply, Code.extend_extend]
  rfl

theorem operandWord_of_le {n : Nat} (hn : n ≤ 0xffff) (what : String) (code : Code) :
    operandWord n what code = .ok () (code.extend [n % 256, n / 256]) := by
  unfold operandWord
  rw [if_neg (by omega)]
  exact bytes_apply (n % 256) (n / 256) code

theorem operandWord_of_lt {n : Nat} (hn : 0xffff < n) (what : String) (code : Code) :
    operandWord n what code = .error (.operandTooLarge what n) code := by
  unfold operandWord
  rw [if_pos hn]
  rfl

theorem operandByte_of_le {n : Nat} (hn : n ≤ 0xff) (what : String) (code : Code) :
    operandByte n what code = .ok () (code.extend [n]) := by
  unfold operandByte
  rw [if_neg (by omega)]
  rfl

theorem operandByte_of_lt {n : Nat} (hn : 0xff < n) (what : String) (code : Code) :
    operandByte n what code = .error (.operandTooLarge what n) code := by
  unfold operandByte
  rw [if_pos hn]
  rfl

theorem sized_of_le {n : Nat} (hn : n ≤ 0xffff) (family : SizedFamily) (code : Code) :
    sized family n code = .ok () (code.extend (family.spelling n)) := by
  unfold sized SizedFamily.spelling
  split_ifs with hsmall hbyte
  · exact byte_apply _ code
  · exact bytes_apply _ _ code
  · rw [bind_of_ok (byte_apply (family.base + 7) code), bytes_apply, Code.extend_extend]
    rfl

theorem sized_of_lt {n : Nat} (hn : 0xffff < n) (family : SizedFamily) (code : Code) :
    sized family n code = .error (.operandTooLarge family.operandName n) code := by
  unfold sized
  rw [if_neg (by omega), if_neg (by omega), if_neg (by omega)]
  rfl

theorem relativeBranch_of_some {kind : BranchKind} {target operand : Nat} {code : Code}
    (hoperand : relativeOperand? code.size target = some operand) :
    relativeBranch kind target code =
      .ok () (code.extend [Opcode.relativeGoto + kind.index, operand]) := by
  unfold relativeBranch
  rw [get_bind, hoperand]
  exact bytes_apply _ _ code

theorem relativeBranch_of_none {kind : BranchKind} {target : Nat} {code : Code}
    (hoperand : relativeOperand? code.size target = none) :
    relativeBranch kind target code = .error (.relativeOutOfRange code.size target) code := by
  unfold relativeBranch
  rw [get_bind, hoperand]
  rfl

/-- Assumes: the instruction can be written where it is put. The spelling is appended. -/
theorem instruction_of_writable {code : Code} {inst : Instruction} (hwritable : inst.Writable code.size) :
    instruction inst code = .ok () (code.extend (inst.spelling code.size)) := by
  cases inst with
  | stackRef n =>
    have hpositive : n ≠ 0 := Nat.one_le_iff_ne_zero.mp hwritable.1
    simp only [instruction, if_neg hpositive]
    exact sized_of_le hwritable.2 .stackRef code
  | varRef n => exact sized_of_le hwritable .varRef code
  | varSet n => exact sized_of_le hwritable .varSet code
  | varBind n => exact sized_of_le hwritable .varBind code
  | call n => exact sized_of_le hwritable .call code
  | unbind n => exact sized_of_le hwritable .unbind code
  | pushHandler kind target =>
    have htarget : target ≤ 0xffff := hwritable
    cases kind with
    | catching | conditionCase =>
      simp only [instruction, bind_of_ok (byte_apply _ code), operandWord_of_le htarget,
        Code.extend_extend]
      rfl
  | constant n =>
    simp only [instruction, Instruction.spelling]
    split_ifs with hsmall
    · exact byte_apply _ code
    · rw [bind_of_ok (byte_apply _ code), operandWord_of_le hwritable, Code.extend_extend]
      rfl
  | branch kind form target =>
    cases form with
    | absolute =>
      have htarget : target ≤ 0xffff := hwritable
      simp only [instruction, bind_of_ok (byte_apply _ code), operandWord_of_le htarget,
        Code.extend_extend]
      rfl
    | relative => exact relativeBranch_of_some (if_pos hwritable)
  | listN n | concatN n | insertN n =>
    have hcount : n ≤ 0xff := hwritable
    simp only [instruction, bind_of_ok (byte_apply _ code), operandByte_of_le hcount,
      Code.extend_extend]
    rfl
  | stackSet n =>
    simp only [instruction, Instruction.spelling]
    split_ifs with hsmall
    · exact bytes_apply _ _ code
    · rw [bind_of_ok (byte_apply _ code), operandWord_of_le hwritable, Code.extend_extend]
      rfl
  | discardN count preserveTop =>
    have hcount : ¬ count > 0x7f := Nat.not_lt.mpr hwritable
    simp only [instruction, if_neg hcount]
    exact bytes_apply _ _ code
  | popHandler | ret | discard | dup | unbindAll => exact byte_apply _ code
  | operation op => exact byte_apply _ code

/-- Assumes: the instruction cannot be written where it is put. Writing fails, after the opcode for
some forms. -/
theorem instruction_of_not_writable {code : Code} {inst : Instruction}
    (hwritable : ¬ inst.Writable code.size) :
    ∃ reason, instruction inst code = .error reason (code.extend inst.remains) := by
  cases inst with
  | stackRef n =>
    simp only [Instruction.remains, Code.extend_nil]
    by_cases hzero : n = 0
    · exact ⟨.stackRefZero, by simp only [instruction, if_pos hzero]; rfl⟩
    · have hlarge : 0xffff < n := by
        simp only [Instruction.Writable, Instruction.Fits] at hwritable
        omega
      simp only [instruction, if_neg hzero]
      exact ⟨_, sized_of_lt hlarge .stackRef code⟩
  | varRef n | varSet n | varBind n | call n | unbind n =>
    simp only [Instruction.remains, Code.extend_nil]
    exact ⟨_, sized_of_lt (Nat.lt_of_not_le hwritable) _ code⟩
  | pushHandler kind target =>
    have htarget : 0xffff < target := Nat.lt_of_not_le hwritable
    cases kind with
    | catching | conditionCase =>
      simp only [instruction, bind_of_ok (byte_apply _ code), operandWord_of_lt htarget]
      exact ⟨_, rfl⟩
  | constant n =>
    have hlarge : 0xffff < n := Nat.lt_of_not_le hwritable
    have hsmall : ¬ n < 64 := by omega
    simp only [instruction, Instruction.remains, if_neg hsmall, bind_of_ok (byte_apply _ code),
      operandWord_of_lt hlarge]
    exact ⟨_, rfl⟩
  | branch kind form target =>
    cases form with
    | absolute =>
      have htarget : 0xffff < target := Nat.lt_of_not_le hwritable
      simp only [instruction, bind_of_ok (byte_apply _ code), operandWord_of_lt htarget]
      exact ⟨_, rfl⟩
    | relative =>
      simp only [Instruction.remains, Code.extend_nil]
      exact ⟨_, relativeBranch_of_none (if_neg hwritable)⟩
  | listN n | concatN n | insertN n =>
    have hcount : 0xff < n := Nat.lt_of_not_le hwritable
    simp only [instruction, bind_of_ok (byte_apply _ code), operandByte_of_lt hcount]
    exact ⟨_, rfl⟩
  | stackSet n =>
    have hlarge : 0xffff < n := Nat.lt_of_not_le hwritable
    have hsmall : ¬ n ≤ 0xff := by omega
    simp only [instruction, Instruction.remains, if_neg hsmall, bind_of_ok (byte_apply _ code),
      operandWord_of_lt hlarge]
    exact ⟨_, rfl⟩
  | discardN count preserveTop =>
    have hcount : count > 0x7f := Nat.lt_of_not_le hwritable
    simp only [instruction, Instruction.remains, Code.extend_nil, if_pos hcount]
    exact ⟨_, rfl⟩
  | popHandler | ret | discard | dup | unbindAll => exact absurd trivial hwritable
  | operation op => exact absurd trivial hwritable

end CodeWriter

/-- Appending succeeds exactly when the instruction can be written, and then appends the spelling. -/
theorem Code.append_eq_ok_iff (code longer : Code) (instruction : Instruction) :
    code.append instruction = .ok longer ↔
      instruction.Writable code.size ∧ longer = code.extend (instruction.spelling code.size) := by
  unfold Code.append
  by_cases hwritable : instruction.Writable code.size
  · rw [CodeWriter.instruction_of_writable hwritable]
    simp only [Except.ok.injEq, hwritable, true_and]
    exact eq_comm
  · obtain ⟨reason, hfail⟩ := CodeWriter.instruction_of_not_writable hwritable
    rw [hfail]
    simp [hwritable]

/-! ### Reading -/

theorem Operation.ofByte?_opcode (operation : Operation) :
    Operation.ofByte? operation.opcode = some operation := by
  rw [Operation.ofByte?_eq_find?]
  cases operation <;> decide

/-- The opcodes of the one-byte operations lie between those of handlers and constants. -/
theorem Operation.opcode_range (operation : Operation) :
    Opcode.popHandler ≤ operation.opcode.toNat ∧ operation.opcode.toNat < Opcode.constant := by
  cases operation <;> decide

namespace Code

/-- The bytes stand in the code from an offset on. -/
def Carries (code : Code) (start : Nat) (bytes : List Nat) : Prop :=
  ∀ place byte, bytes[place]? = some byte → code[start + place]? = some (UInt8.ofNat byte)

theorem Carries.first {code : Code} {start byte : Nat} {bytes : List Nat}
    (hcode : code.Carries start (byte :: bytes)) : code[start]? = some (UInt8.ofNat byte) :=
  hcode 0 byte rfl

theorem Carries.rest {code : Code} {start byte : Nat} {bytes : List Nat}
    (hcode : code.Carries start (byte :: bytes)) : code.Carries (start + 1) bytes := by
  intro place other hother
  have hplace := hcode (place + 1) other hother
  rwa [show start + (place + 1) = start + 1 + place by omega] at hplace

/-- Bytes put at the end of a code string stand there, whatever is put behind them. -/
theorem carries_extend (code : Code) (bytes : List Nat) (suffix : Code) :
    Carries (code.extend bytes ++ suffix) code.size bytes := by
  intro place byte hbyte
  have hplace : place < bytes.length := (List.getElem?_eq_some_iff.mp hbyte).1
  rw [Array.getElem?_append_left (by rw [size_extend]; omega), Code.extend,
    Array.getElem?_append_right (by omega)]
  simp [hbyte]

theorem operandByte_of_carries {code : Code} {start n : Nat} {bytes : List Nat}
    (hcode : code.Carries start (n :: bytes)) (hn : n ≤ 0xff) (opcode : UInt8) (source : Nat) :
    code.operandByte start opcode source = .ok n := by
  unfold Code.operandByte
  rw [hcode.first]
  simp only [UInt8.toNat_ofNat', Except.ok.injEq]
  omega

theorem operandWord_of_carries {code : Code} {start n : Nat}
    (hcode : code.Carries start [n % 256, n / 256]) (hn : n ≤ 0xffff) (opcode : UInt8)
    (source : Nat) : code.operandWord start opcode source = .ok n := by
  unfold Code.operandWord
  rw [operandByte_of_carries hcode (by omega), operandByte_of_carries hcode.rest (by omega)]
  change Except.ok (n % 256 + 256 * (n / 256)) = Except.ok n
  rw [Nat.mod_add_div]

/-- The family and the low part of an opcode of a sized family. -/
theorem sizedOpcode_parts (family : SizedFamily) {low : Nat} (hlow : low < 8) :
    (UInt8.ofNat (family.base + low)).toNat < Opcode.popHandler ∧
      SizedFamily.ofOpcode (UInt8.ofNat (family.base + low)).toNat = family ∧
      (UInt8.ofNat (family.base + low)).toNat % 8 = low := by
  cases family <;> interval_cases low <;> decide

/-- Only the opcode zero of the sized families names no instruction. -/
theorem sizedOpcode_ne_zero (family : SizedFamily) {low : Nat} (hlow : low < 8)
    (hpositive : family = .stackRef → low ≠ 0) : UInt8.ofNat (family.base + low) ≠ 0 := by
  cases family <;> interval_cases low <;> first | decide | exact absurd rfl (hpositive rfl)

/-- Assumes: the spelling of a sized instruction stands at an offset, and its operand fits. Reading
there gives the instruction. -/
theorem decode_sized {code : Code} {start n : Nat} (family : SizedFamily) (hn : n ≤ 0xffff)
    (hpositive : family = .stackRef → n ≠ 0) (hcode : code.Carries start (family.spelling n)) :
    code.decode start =
      .ok (family.instruction n, start + Instruction.sizedLength n) := by
  unfold Code.decode
  unfold SizedFamily.spelling at hcode
  unfold Instruction.sizedLength
  split_ifs at hcode ⊢ with hsmall hbyte
  · obtain ⟨hrange, hfamily, hlow⟩ := sizedOpcode_parts family (show n < 8 by omega)
    have hzero := sizedOpcode_ne_zero family (show n < 8 by omega) hpositive
    rw [hcode.first]
    simp only [if_pos hrange]
    unfold Code.decodeSized
    rw [hfamily, hlow]
    interval_cases n <;> simp only [if_neg hzero] <;> rfl
  · obtain ⟨hrange, hfamily, hlow⟩ := sizedOpcode_parts family (show 6 < 8 by omega)
    rw [hcode.first]
    simp only [if_pos hrange]
    unfold Code.decodeSized
    rw [hfamily, hlow]
    simp only [operandByte_of_carries hcode.rest hbyte]
    rfl
  · obtain ⟨hrange, hfamily, hlow⟩ := sizedOpcode_parts family (show 7 < 8 by omega)
    rw [hcode.first]
    simp only [if_pos hrange]
    unfold Code.decodeSized
    rw [hfamily, hlow]
    simp only [operandWord_of_carries hcode.rest hn]
    rfl

/-- The opcodes that are neither sized, nor those of short constants, nor those of one-byte
operations. -/
def plainOpcodes : List Nat :=
  [Opcode.popHandler, Opcode.pushConditionCase, Opcode.pushCatch, Opcode.constantWide, Opcode.ret,
    Opcode.discard, Opcode.dup, Opcode.unbindAll, Opcode.listN, Opcode.concatN, Opcode.insertN,
    Opcode.stackSet, Opcode.stackSetWide, Opcode.discardN] ++
  (List.range 5).flatMap fun index ↦ [Opcode.goto + index, Opcode.relativeGoto + index]

theorem plainOpcodes_spec : ∀ opcode ∈ plainOpcodes,
    Opcode.popHandler ≤ opcode ∧ opcode < Opcode.constant ∧
      Operation.ofByte? (UInt8.ofNat opcode) = none := by
  simp only [Operation.ofByte?_eq_find?]
  decide

/-- Reading a plain opcode goes by `Code.decodePlain`. -/
theorem decode_plain {code : Code} {start opcode : Nat} {bytes : List Nat}
    (hcode : code.Carries start (opcode :: bytes)) (hplain : opcode ∈ plainOpcodes) :
    code.decode start = code.decodePlain (UInt8.ofNat opcode) start := by
  obtain ⟨hlow, hhigh, hnone⟩ := plainOpcodes_spec opcode hplain
  have hvalue : (UInt8.ofNat opcode).toNat = opcode := by
    simp only [UInt8.toNat_ofNat', Opcode.constant] at hhigh ⊢
    omega
  unfold Code.decode
  rw [hcode.first]
  simp only [hvalue, if_neg (Nat.not_lt.mpr hlow), if_neg (Nat.not_le.mpr hhigh), hnone]

/-- The opcodes of a branch form are its first opcode and the four after it. -/
theorem branchOpcode_parts (kind : BranchKind) :
    kind.index < 5 ∧ BranchKind.ofIndex kind.index = kind ∧
      (UInt8.ofNat (Opcode.goto + kind.index)).toNat = Opcode.goto + kind.index ∧
      (UInt8.ofNat (Opcode.relativeGoto + kind.index)).toNat = Opcode.relativeGoto + kind.index := by
  cases kind <;> decide

/-- Assumes: the spelling of an absolute branch stands at an offset, and its target fits. Reading
there gives the branch. -/
theorem decode_absoluteBranch {code : Code} {start target : Nat} {kind : BranchKind}
    (htarget : target ≤ 0xffff)
    (hcode : code.Carries start [Opcode.goto + kind.index, target % 256, target / 256]) :
    code.decode start = .ok (.branch kind .absolute target, start + 3) := by
  obtain ⟨hindex, hkind, hvalue, -⟩ := branchOpcode_parts kind
  rw [decode_plain hcode (by cases kind <;> decide)]
  unfold Code.decodePlain
  rw [operandWord_of_carries hcode.rest htarget]
  simp only [hvalue]
  rw [if_neg (by simp only [Opcode.goto, Opcode.popHandler]; omega),
    if_neg (by simp only [Opcode.goto, Opcode.pushConditionCase]; omega),
    if_neg (by simp only [Opcode.goto, Opcode.pushCatch]; omega),
    if_neg (by simp only [Opcode.goto, Opcode.constantWide]; omega),
    if_pos ⟨Nat.le_add_right _ _, by omega⟩, Nat.add_sub_cancel_left, hkind]
  rfl

/-- Assumes: the opcode of a relative branch stands at an offset, with a distance behind it. Reading
there gives a branch to where the distance leads, unless that lies before the code. -/
theorem decode_relativeBranch {code : Code} {start distance : Nat} {kind : BranchKind}
    (hdistance : distance ≤ 255)
    (hcode : code.Carries start [Opcode.relativeGoto + kind.index, distance]) :
    code.decode start =
      if start + 2 + distance < 128 then
        .error (.branchOutOfRange start ((start + 2 + distance : Nat) - 128))
      else .ok (.branch kind .relative (start + 2 + distance - 128), start + 2) := by
  obtain ⟨hindex, hkind, -, hvalue⟩ := branchOpcode_parts kind
  rw [decode_plain hcode (by cases kind <;> decide)]
  unfold Code.decodePlain
  rw [operandByte_of_carries hcode.rest hdistance]
  simp only [hvalue]
  rw [if_neg (by simp only [Opcode.relativeGoto, Opcode.popHandler]; omega),
    if_neg (by simp only [Opcode.relativeGoto, Opcode.pushConditionCase]; omega),
    if_neg (by simp only [Opcode.relativeGoto, Opcode.pushCatch]; omega),
    if_neg (by simp only [Opcode.relativeGoto, Opcode.constantWide]; omega),
    if_neg (by simp only [Opcode.relativeGoto, Opcode.goto]; omega),
    if_pos ⟨Nat.le_add_right _ _, by omega⟩, Nat.add_sub_cancel_left, hkind]
  simp only [bind, Except.bind]
  split_ifs <;> rfl

/-- Assumes: the spelling of an instruction stands at an offset, and its operand fits there. Reading
at the offset gives the instruction and the offset behind it. -/
theorem decode_of_carries {code : Code} {start : Nat} {instruction : Instruction}
    (hfits : instruction.Fits start) (hcode : code.Carries start (instruction.spelling start)) :
    code.decode start = .ok (instruction, start + instruction.length) := by
  cases instruction with
  | stackRef n =>
    have hpositive : n ≠ 0 := Nat.one_le_iff_ne_zero.mp hfits.1
    simp only [Instruction.length, if_neg hpositive]
    exact decode_sized .stackRef hfits.2 (fun _ ↦ hpositive) hcode
  | varRef n => exact decode_sized .varRef hfits nofun hcode
  | varSet n => exact decode_sized .varSet hfits nofun hcode
  | varBind n => exact decode_sized .varBind hfits nofun hcode
  | call n => exact decode_sized .call hfits nofun hcode
  | unbind n => exact decode_sized .unbind hfits nofun hcode
  | branch kind form target =>
    cases form with
    | absolute => exact decode_absoluteBranch hfits hcode
    | relative =>
      have hnear : start + 2 ≤ target + 128 ∧ target ≤ start + 2 + 127 := hfits
      have hdistance := relativeDistance_of_near hnear
      rw [decode_relativeBranch (hdistance ▸ by omega) hcode, hdistance, if_neg (by omega),
        show start + 2 + (target + 128 - (start + 2)) - 128 = target by omega]
      rfl
  | pushHandler kind target =>
    rw [decode_plain hcode (by cases kind <;> decide)]
    unfold Code.decodePlain
    rw [operandWord_of_carries hcode.rest hfits]
    cases kind <;> rfl
  | constant n =>
    simp only [Instruction.spelling, Instruction.length] at hcode ⊢
    split_ifs at hcode ⊢ with hsmall
    · have hvalue : (UInt8.ofNat (Opcode.constant + n)).toNat = Opcode.constant + n := by
        simp only [UInt8.toNat_ofNat', Opcode.constant]
        omega
      unfold Code.decode
      rw [hcode.first]
      simp only [hvalue]
      rw [if_neg (by simp only [Opcode.constant, Opcode.popHandler]; omega), if_pos (by omega),
        Nat.add_sub_cancel_left]
    · rw [decode_plain hcode (by decide)]
      unfold Code.decodePlain
      rw [operandWord_of_carries hcode.rest hfits]
      rfl
  | stackSet n =>
    simp only [Instruction.spelling, Instruction.length] at hcode ⊢
    split_ifs at hcode ⊢ with hsmall
    · rw [decode_plain hcode (by decide)]
      unfold Code.decodePlain
      rw [operandByte_of_carries hcode.rest hsmall]
      rfl
    · rw [decode_plain hcode (by decide)]
      unfold Code.decodePlain
      rw [operandWord_of_carries hcode.rest hfits]
      rfl
  | listN n | concatN n | insertN n =>
    rw [decode_plain hcode (by decide)]
    unfold Code.decodePlain
    rw [operandByte_of_carries hcode.rest hfits]
    rfl
  | discardN count preserveTop =>
    have hcount : count ≤ 0x7f := hfits
    rw [decode_plain hcode (by decide)]
    unfold Code.decodePlain
    rw [operandByte_of_carries hcode.rest (by cases preserveTop <;> simp <;> omega)]
    cases preserveTop with
    | false =>
      change Except.ok (Instruction.discardN ((count + 0) % 128) (decide (128 ≤ count + 0)), _) = _
      rw [Nat.add_zero, Nat.mod_eq_of_lt (by omega), decide_eq_false (by omega)]
      rfl
    | true =>
      change Except.ok (Instruction.discardN ((count + 128) % 128) (decide (128 ≤ count + 128)), _) = _
      rw [Nat.add_mod_right, Nat.mod_eq_of_lt (by omega), decide_eq_true (by omega)]
      rfl
  | popHandler | ret | discard | dup | unbindAll =>
    rw [decode_plain hcode (by decide)]
    rfl
  | operation op =>
    have hrange := op.opcode_range
    have hvalue : UInt8.ofNat op.opcode.toNat = op.opcode := UInt8.ofNat_toNat
    unfold Code.decode
    rw [hcode.first, hvalue]
    simp only [if_neg (Nat.not_lt.mpr hrange.1), if_neg (Nat.not_le.mpr hrange.2),
      Operation.ofByte?_opcode]
    rfl

/-- Assumes: the spelling of a writable instruction stands at an offset. Reading there gives the
instruction back exactly when its operand fits. -/
theorem decode_iff_fits {code : Code} {start : Nat} {instruction : Instruction}
    (hwritable : instruction.Writable start)
    (hcode : code.Carries start (instruction.spelling start)) :
    code.decode start = .ok (instruction, start + instruction.length) ↔
      instruction.Fits start := by
  refine ⟨fun hread ↦ ?_, fun hfits ↦ decode_of_carries hfits hcode⟩
  cases instruction with
  | branch kind form target =>
    cases form with
    | absolute => exact hwritable
    | relative =>
      have hdistance : relativeDistance start target ≤ 255 := hwritable
      rw [decode_relativeBranch hdistance hcode] at hread
      split_ifs at hread with hback
      simp only [Except.ok.injEq, Prod.mk.injEq, Instruction.branch.injEq, true_and] at hread
      change start + 2 ≤ target + 128 ∧ target ≤ start + 2 + 127
      omega
  | _ => exact hwritable

end Code

end LispMachine
