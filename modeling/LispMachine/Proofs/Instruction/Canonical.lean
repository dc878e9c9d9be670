import LispMachine.Proofs.Instruction.Decoding
import LispMachine.Proofs.Instruction.Spelling

/-!
Writing again what was read. Several byte strings can be read as one instruction: a small operand
also stands in the wide forms. Every operand that is read fits, `stackRef 0` apart, and the bytes
that were read are the spelling of the instruction unless they are longer (`Respelled`). This is
shown along `Code.decode`, form by form (`canonically_decodeSized`, `canonically_decodePlain`). So
the instruction can be written where it was read, in no more bytes, it is read again there, and the
new bytes are the old ones exactly when there are as many (`decode_canonical`).
-/

set_option autoImplicit false

namespace LispMachine

/-! ### The forms of an opcode -/

namespace SizedFamily

/-- An opcode below the handlers' is the first of its family and a low part. -/
theorem base_add_mod {opcode : Nat} (hrange : opcode < Opcode.popHandler) :
    (ofOpcode opcode).base + opcode % 8 = opcode := by
  have hall : ∀ k < Opcode.popHandler, (ofOpcode k).base + k % 8 = k := by decide
  exact hall opcode hrange

theorem spelling_instruction (family : SizedFamily) (n source : Nat) :
    (family.instruction n).spelling source = family.spelling n := by
  cases family <;> rfl

theorem fits_instruction {family : SizedFamily} {n : Nat} (source : Nat) (hn : n ≤ 0xffff)
    (hspelt : family.instruction n ≠ .stackRef 0) : (family.instruction n).Fits source := by
  cases family with
  | stackRef =>
    have hpositive : n ≠ 0 := fun hzero ↦ hspelt (congrArg Instruction.stackRef hzero)
    exact ⟨Nat.one_le_iff_ne_zero.mpr hpositive, hn⟩
  | _ => exact hn

theorem length_instruction {family : SizedFamily} {n : Nat}
    (hspelt : family.instruction n ≠ .stackRef 0) :
    (family.instruction n).length = Instruction.sizedLength n := by
  cases family with
  | stackRef => exact if_neg fun hzero ↦ hspelt (congrArg Instruction.stackRef hzero)
  | _ => rfl

end SizedFamily

/-- The opcodes of a branch form are its first one and the places of the kinds. -/
theorem BranchKind.add_index_ofIndex {first opcode : Nat}
    (hrange : first ≤ opcode ∧ opcode < first + 5) :
    first + (BranchKind.ofIndex (opcode - first)).index = opcode := by
  have hall : ∀ place < 5, (BranchKind.ofIndex place).index = place := by decide
  rw [hall _ (by omega)]
  omega

/-- The operation that a byte names has that byte for its opcode. -/
theorem Operation.opcode_of_ofByte? {byte : UInt8} {operation : Operation}
    (hbyte : Operation.ofByte? byte = some operation) : operation.opcode.toNat = byte.toNat := by
  rw [Operation.ofByte?_eq_find?] at hbyte
  simpa using List.find?_some hbyte

namespace Code

/-! ### Bytes that were read -/

variable {code : Code} {start next : Nat} {opcode : UInt8}

theorem Carries.nil : code.Carries start [] := nofun

theorem Carries.cons {byte : Nat} {bytes : List Nat}
    (hfirst : code[start]? = some (UInt8.ofNat byte)) (hrest : code.Carries (start + 1) bytes) :
    code.Carries start (byte :: bytes) := by
  intro place other hother
  cases place with
  | zero =>
    have heq : byte = other := by simpa using hother
    rwa [Nat.add_zero, ← heq]
  | succ place =>
    have hplace := hrest place other (by simpa using hother)
    rwa [show start + 1 + place = start + (place + 1) by omega] at hplace

/-- The bytes that stand at an offset are the part of the code that starts there. -/
theorem Carries.eq_extract {bytes : List Nat} (hcode : code.Carries start bytes)
    (hsize : start + bytes.length ≤ code.size) :
    (bytes.map UInt8.ofNat).toArray = code.extract start (start + bytes.length) := by
  apply Array.ext_getElem?
  intro place
  by_cases hplace : place < bytes.length
  · have hbyte := hcode place _ (List.getElem?_eq_getElem hplace)
    rw [Array.getElem?_extract, if_pos (by omega), hbyte]
    simp [hplace]
  · rw [Array.getElem?_eq_none (by simp; omega), Array.getElem?_eq_none (by simp; omega)]

theorem carries_of_operandByte {offset n : Nat}
    (hread : code.operandByte offset opcode start = .ok n) : code.Carries offset [n] := by
  unfold operandByte at hread
  cases hbyte : code[offset]? with
  | none =>
    rw [hbyte] at hread
    cases hread
  | some byte =>
    rw [hbyte] at hread
    cases hread
    exact .cons (by rw [hbyte, UInt8.ofNat_toNat]) .nil

theorem carries_of_operandWord {offset n : Nat}
    (hread : code.operandWord offset opcode start = .ok n) :
    code.Carries offset [n % 256, n / 256] := by
  unfold operandWord at hread
  cases hlow : code.operandByte offset opcode start with
  | error fault =>
    rw [hlow] at hread
    cases hread
  | ok low =>
    rw [hlow] at hread
    change (code.operandByte (offset + 1) opcode start >>= _) = _ at hread
    cases hhigh : code.operandByte (offset + 1) opcode start with
    | error fault =>
      rw [hhigh] at hread
      cases hread
    | ok high =>
      rw [hhigh] at hread
      cases hread
      have hlow_le := (operandByte_bounds hlow).2
      have hhigh_le := (operandByte_bounds hhigh).2
      rw [show (low + 256 * high) % 256 = low by omega,
        show (low + 256 * high) / 256 = high by omega]
      exact .cons (carries_of_operandByte hlow).first (carries_of_operandByte hhigh)

/-! ### What was read fits and is spelled in no more bytes -/

/-- The instruction that was read at `start` from the bytes up to `next` fits there, and these bytes
are its spelling unless they are longer. -/
structure Respelled (code : Code) (start : Nat) (instruction : Instruction) (next : Nat) :
    Prop where
  fits : instruction.Fits start
  length_le : start + instruction.length ≤ next
  carries : start + instruction.length = next → code.Carries start (instruction.spelling start)

/-- What is decoded at `start`, if it is anything but `stackRef 0`, fits there and is spelled in no
more bytes. -/
def Canonically (code : Code) (start : Nat) (decoded : Except Fault (Instruction × Nat)) : Prop :=
  ∀ instruction next, decoded = .ok (instruction, next) → instruction ≠ .stackRef 0 →
    code.Respelled start instruction next

theorem canonically_ok {instruction : Instruction}
    (hok : instruction ≠ .stackRef 0 → code.Respelled start instruction next) :
    code.Canonically start (.ok (instruction, next)) := by
  intro _ _ hdecoded hspelt
  cases hdecoded
  exact hok hspelt

theorem canonically_error (fault : Fault) : code.Canonically start (.error fault) := nofun

theorem canonically_ite {condition : Prop} [Decidable condition]
    {first second : Except Fault (Instruction × Nat)}
    (hfirst : condition → code.Canonically start first)
    (hsecond : ¬ condition → code.Canonically start second) :
    code.Canonically start (if condition then first else second) := by
  by_cases hcondition : condition
  · rw [if_pos hcondition]
    exact hfirst hcondition
  · rw [if_neg hcondition]
    exact hsecond hcondition

theorem canonically_operandByte {rest : Nat → Except Fault (Instruction × Nat)}
    (hrest : ∀ n, n ≤ 0xff → code.Carries (start + 1) [n] → code.Canonically start (rest n)) :
    code.Canonically start (code.operandByte (start + 1) opcode start >>= rest) := by
  cases hread : code.operandByte (start + 1) opcode start with
  | error fault => exact canonically_error fault
  | ok n => exact hrest n (operandByte_bounds hread).2 (carries_of_operandByte hread)

theorem canonically_operandWord {rest : Nat → Except Fault (Instruction × Nat)}
    (hrest : ∀ n, n ≤ 0xffff → code.Carries (start + 1) [n % 256, n / 256] →
      code.Canonically start (rest n)) :
    code.Canonically start (code.operandWord (start + 1) opcode start >>= rest) := by
  cases hread : code.operandWord (start + 1) opcode start with
  | error fault => exact canonically_error fault
  | ok n => exact hrest n (operandWord_bounds hread).2 (carries_of_operandWord hread)

/-- Assumes: an opcode stands at `start` with operand bytes behind it, and so the instruction is
spelled. Then the instruction that was read from these bytes is respelled. -/
theorem respelled_of_spelling {instruction : Instruction} {first : Nat} {bytes : List Nat}
    (hopcode : code[start]? = some opcode) (hfirst : opcode.toNat = first)
    (hbytes : code.Carries (start + 1) bytes) (hfits : instruction.Fits start)
    (hspelling : instruction.spelling start = first :: bytes) :
    code.Respelled start instruction (start + 1 + bytes.length) where
  fits := hfits
  length_le := by
    rw [← Instruction.length_spelling hfits.writable, hspelling, List.length_cons]
    omega
  carries _ := by
    rw [hspelling]
    exact .cons (by rw [hopcode, ← hfirst, UInt8.ofNat_toNat]) hbytes

/-- An instruction that was read from more bytes than it is long. -/
theorem respelled_of_longer {instruction : Instruction} (hfits : instruction.Fits start)
    (hlength : start + instruction.length < next) : code.Respelled start instruction next where
  fits := hfits
  length_le := hlength.le
  carries heq := absurd heq hlength.ne

theorem canonically_decodeSized (hopcode : code[start]? = some opcode)
    (hrange : opcode.toNat < Opcode.popHandler) :
    code.Canonically start (code.decodeSized opcode start) := by
  have hparts := SizedFamily.base_add_mod hrange
  -- The operand decides the shortest form; the low part of the opcode says which form was read.
  have hsized {n next : Nat} (hn : n ≤ 0xffff) (hform : Instruction.sizedLength n ≤ next - start)
      (hshort : Instruction.sizedLength n = next - start →
        code.Carries start ((SizedFamily.ofOpcode opcode.toNat).spelling n))
      (hnext : start < next) :
      code.Canonically start
        (.ok ((SizedFamily.ofOpcode opcode.toNat).instruction n, next)) := by
    refine canonically_ok fun hspelt ↦ ⟨SizedFamily.fits_instruction start hn hspelt, ?_, ?_⟩
    · rw [SizedFamily.length_instruction hspelt]
      omega
    · intro heq
      rw [SizedFamily.length_instruction hspelt] at heq
      rw [SizedFamily.spelling_instruction]
      exact hshort (by omega)
  have hfirst {low : Nat} (hlow : opcode.toNat % 8 = low) : code[start]? =
      some (UInt8.ofNat ((SizedFamily.ofOpcode opcode.toNat).base + low)) := by
    rw [← hlow, hparts, UInt8.ofNat_toNat, hopcode]
  unfold decodeSized
  split
  · rename_i hlow
    refine canonically_operandByte fun n hn hbytes ↦ hsized (by omega) ?_ ?_ (by omega)
    · unfold Instruction.sizedLength
      split_ifs <;> omega
    · intro hshort
      unfold Instruction.sizedLength at hshort
      split_ifs at hshort with hsmall
      · omega
      · rw [SizedFamily.spelling, if_neg hsmall, if_pos hn]
        exact .cons (hfirst hlow) hbytes
  · rename_i hlow
    refine canonically_operandWord fun n hn hbytes ↦ hsized hn ?_ ?_ (by omega)
    · unfold Instruction.sizedLength
      split_ifs <;> omega
    · intro hshort
      unfold Instruction.sizedLength at hshort
      split_ifs at hshort with hsmall hbyte
      · omega
      · omega
      · rw [SizedFamily.spelling, if_neg hsmall, if_neg hbyte]
        exact .cons (hfirst hlow) hbytes
  · rename_i hbyte hword
    have hsmall : opcode.toNat % 8 ≤ 5 := by
      have hne : opcode.toNat % 8 ≠ 6 ∧ opcode.toNat % 8 ≠ 7 := ⟨hbyte, hword⟩
      omega
    refine canonically_ite (fun _ ↦ canonically_error _) fun _ ↦ ?_
    refine hsized (by omega) ?_ ?_ (by omega)
    · rw [Instruction.sizedLength, if_pos hsmall]
      omega
    · intro _
      rw [SizedFamily.spelling, if_pos hsmall]
      exact .cons (hfirst rfl) .nil

theorem canonically_decodePlain (hopcode : code[start]? = some opcode) :
    code.Canonically start (code.decodePlain opcode start) := by
  -- One byte, one operand byte and one operand word, where the spelling has the form that was read.
  have hone {instruction : Instruction} {first : Nat} (hfits : instruction.Fits start)
      (hspelling : instruction.spelling start = [first]) (hfirst : opcode.toNat = first) :
      code.Canonically start (.ok (instruction, start + 1)) :=
    canonically_ok fun _ ↦ respelled_of_spelling hopcode hfirst .nil hfits hspelling
  have hbyte {instruction : Nat → Instruction} {first : Nat}
      (hfits : ∀ n, n ≤ 0xff → (instruction n).Fits start)
      (hspelling : ∀ n, n ≤ 0xff → (instruction n).spelling start = [first, n])
      (hfirst : opcode.toNat = first) :
      code.Canonically start (code.operandByte (start + 1) opcode start >>= fun n ↦
        .ok (instruction n, start + 2)) :=
    canonically_operandByte fun n hn hbytes ↦ canonically_ok fun _ ↦
      respelled_of_spelling hopcode hfirst hbytes (hfits n hn) (hspelling n hn)
  have hword {instruction : Nat → Instruction} {first : Nat}
      (hfits : ∀ n, n ≤ 0xffff → (instruction n).Fits start)
      (hspelling : ∀ n, (instruction n).length < 3 ∨
        (instruction n).spelling start = [first, n % 256, n / 256])
      (hfirst : opcode.toNat = first) :
      code.Canonically start (code.operandWord (start + 1) opcode start >>= fun n ↦
        .ok (instruction n, start + 3)) := by
    refine canonically_operandWord fun n hn hbytes ↦ canonically_ok fun _ ↦ ?_
    by_cases hshort : (instruction n).length < 3
    · exact respelled_of_longer (hfits n hn) (by omega)
    · exact respelled_of_spelling hopcode hfirst hbytes (hfits n hn)
        ((hspelling n).resolve_left hshort)
  unfold decodePlain
  refine canonically_ite (hone trivial rfl) fun _ ↦ ?_
  refine canonically_ite (hword (fun _ hn ↦ hn) fun _ ↦ .inr rfl) fun _ ↦ ?_
  refine canonically_ite (hword (fun _ hn ↦ hn) fun _ ↦ .inr rfl) fun _ ↦ ?_
  refine canonically_ite (hword (fun _ hn ↦ hn) fun n ↦ ?_) fun _ ↦ ?_
  · by_cases hsmall : n < 64
    · exact .inl (by simp [Instruction.length, hsmall])
    · exact .inr (if_neg hsmall)
  refine canonically_ite (fun hrange ↦ ?_) fun _ ↦ ?_
  · exact hword (fun _ hn ↦ hn) (fun _ ↦ .inr rfl) (BranchKind.add_index_ofIndex hrange).symm
  refine canonically_ite (fun hrange ↦ ?_) fun _ ↦ ?_
  · refine canonically_operandByte fun n hn hbytes ↦
      canonically_ite (fun _ ↦ canonically_error _) fun hback ↦ canonically_ok fun _ ↦ ?_
    have hnear : start + 2 ≤ start + 2 + n - 128 + 128 ∧
        start + 2 + n - 128 ≤ start + 2 + 127 := by omega
    refine respelled_of_spelling hopcode (BranchKind.add_index_ofIndex hrange).symm hbytes hnear ?_
    rw [Instruction.spelling, relativeDistance_of_near hnear]
    congr 2
    omega
  refine canonically_ite (hone trivial rfl) fun _ ↦ canonically_ite (hone trivial rfl) fun _ ↦ ?_
  refine canonically_ite (hone trivial rfl) fun _ ↦ canonically_ite (hone trivial rfl) fun _ ↦ ?_
  refine canonically_ite (hbyte (fun _ hn ↦ hn) fun _ _ ↦ rfl) fun _ ↦ ?_
  refine canonically_ite (hbyte (fun _ hn ↦ hn) fun _ _ ↦ rfl) fun _ ↦ ?_
  refine canonically_ite (hbyte (fun _ hn ↦ hn) fun _ _ ↦ rfl) fun _ ↦ ?_
  refine canonically_ite (hbyte (fun n hn ↦ ?_) fun _ hn ↦ if_pos hn) fun _ ↦ ?_
  · exact Nat.le_trans hn (by decide)
  refine canonically_ite (hword (fun _ hn ↦ hn) fun n ↦ ?_) fun _ ↦ ?_
  · by_cases hsmall : n ≤ 0xff
    · exact .inl (by simp [Instruction.length, hsmall])
    · exact .inr (if_neg hsmall)
  refine canonically_ite (hbyte (fun n _ ↦ ?_) fun n hn ↦ ?_) fun _ ↦ canonically_error _
  · exact Nat.le_of_lt_succ (Nat.mod_lt n (by decide))
  · simp only [Instruction.spelling, decide_eq_true_eq]
    congr 2
    split_ifs <;> omega

/-- Assumes: an instruction other than `stackRef 0` was read. It fits where it was read, and the
bytes that were read are its spelling unless they are longer. -/
theorem respelled_decode {instruction : Instruction}
    (hdecode : code.decode start = .ok (instruction, next))
    (hspelt : instruction ≠ .stackRef 0) : code.Respelled start instruction next := by
  suffices code.Canonically start (code.decode start) from this instruction next hdecode hspelt
  unfold decode
  cases hopcode : code[start]? with
  | none => exact canonically_error _
  | some opcode =>
    refine canonically_ite (canonically_decodeSized hopcode) fun _ ↦
      canonically_ite (fun hconstant ↦ canonically_ok fun _ ↦ ?_) fun _ ↦ ?_
    · have hsmall : opcode.toNat - Opcode.constant < 64 := by
        have hbyte := opcode.toNat_lt
        simp only [Opcode.constant] at hconstant ⊢
        omega
      exact respelled_of_spelling hopcode (Nat.add_sub_of_le hconstant).symm .nil
        (show opcode.toNat - Opcode.constant ≤ 0xffff by omega)
        (by rw [Instruction.spelling, if_pos hsmall])
    · cases hoperation : Operation.ofByte? opcode with
      | some operation =>
        exact canonically_ok fun _ ↦ respelled_of_spelling hopcode
          (Operation.opcode_of_ofByte? hoperation).symm .nil trivial rfl
      | none => exact canonically_decodePlain hopcode

/-- Assumes: an instruction was read at `start`, and the next one starts at `next`. Control moves
forward within the code. Put at the same offset of any code, `stackRef 0` is refused; any other
instruction is written, in as many bytes as its length says and no more than were read; it is read
there again whatever follows; and its bytes are those that were read exactly when they are as
many. -/
theorem decode_canonical {instruction : Instruction}
    (hdecode : code.decode start = .ok (instruction, next)) :
    start < next ∧ next ≤ code.size ∧ ∀ before : Code, before.size = start →
      (instruction = .stackRef 0 → before.append instruction = .error .stackRefZero) ∧
      (instruction ≠ .stackRef 0 → ∃ bytes : Code,
        before.append instruction = .ok (before ++ bytes) ∧
        bytes.size = instruction.length ∧ bytes.size ≤ next - start ∧
        (∀ suffix : Code, Code.decode (before ++ bytes ++ suffix) start =
          .ok (instruction, start + bytes.size)) ∧
        (bytes = code.extract start next ↔ bytes.size = next - start)) := by
  have hsound := decode_sound hdecode
  refine ⟨hsound.lt_next, hsound.next_le, ?_⟩
  rintro before rfl
  refine ⟨?_, fun hspelt ↦ ?_⟩
  · rintro rfl
    rfl
  obtain ⟨hfits, hlength, hcarries⟩ := respelled_decode hdecode hspelt
  have hspelling := Instruction.length_spelling hfits.writable
  refine ⟨((instruction.spelling before.size).map UInt8.ofNat).toArray,
    (append_eq_ok_iff before _ instruction).mpr ⟨hfits.writable, rfl⟩, ?_, ?_, ?_, ?_⟩
  · simpa using hspelling
  · simp only [List.size_toArray, List.length_map, hspelling]
    omega
  · intro suffix
    simp only [List.size_toArray, List.length_map, hspelling]
    exact decode_of_carries hfits (carries_extend before _ suffix)
  · have hnext := hsound.next_le
    constructor
    · intro hbytes
      rw [hbytes, Array.size_extract, Nat.min_eq_left hnext]
    · intro hsize
      simp only [List.size_toArray, List.length_map, hspelling] at hsize
      have hend : before.size + (instruction.spelling before.size).length = next := by omega
      have hbytes := (hcarries (by omega)).eq_extract (hend.trans_le hnext)
      rw [hend] at hbytes
      exact hbytes

/-- A variable reference whose small operand stands in the form with one operand byte is written
again in one byte. -/
theorem decode_canonical_wide :
    Code.decode #[0o211, 0o16, 3] 1 = .ok (.varRef 3, 3) ∧
      ∃ bytes : Code, Code.append #[0o211] (.varRef 3) = .ok (#[0o211] ++ bytes) ∧
        bytes.size = 1 ∧ bytes ≠ Array.extract #[0o211, 0o16, 3] 1 3 := by
  have hdecode : Code.decode #[0o211, 0o16, 3] 1 = .ok (.varRef 3, 3) := rfl
  obtain ⟨-, -, hwritten⟩ := decode_canonical hdecode
  obtain ⟨bytes, happend, hsize, -, -, hsame⟩ := (hwritten #[0o211] rfl).2 nofun
  have hone : bytes.size = 1 := hsize
  refine ⟨hdecode, bytes, happend, hone, fun hbytes ↦ ?_⟩
  have htwo : bytes.size = 3 - 1 := hsame.mp hbytes
  omega

end Code

end LispMachine
