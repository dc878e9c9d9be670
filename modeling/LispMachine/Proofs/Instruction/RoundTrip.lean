import LispMachine.Proofs.Instruction.Spelling

/-!
Writing instructions one after the other and reading them back. Appending instructions to a code
string succeeds exactly when each can be written at its own offset. What was written before then
stays in front, each instruction takes as many bytes as `Instruction.length` says, and reading from
the offset of the first gives the same instructions in order, whatever bytes are appended
afterwards (`Code.Reads`), exactly when the operand of each fits. The main statement is
`appendAll_reads_back`; `appendAll_far_target` is a branch that is written and cannot be read.
-/

set_option autoImplicit false

namespace LispMachine

/-- Every instruction of a list meets a condition where it is put when the first is put at an
offset. -/
def AllPut (condition : Nat → Instruction → Prop) : Nat → List Instruction → Prop
  | _, [] => True
  | source, instruction :: rest =>
    condition source instruction ∧ AllPut condition (source + instruction.length) rest

/-- Every instruction of a list can be written where it is put. -/
def AllWritable : Nat → List Instruction → Prop :=
  AllPut fun source instruction ↦ instruction.Writable source

/-- The operand of every instruction of a list fits where the instruction is put. -/
def AllFit : Nat → List Instruction → Prop :=
  AllPut fun source instruction ↦ instruction.Fits source

/-- The bytes that the instructions of a list take together. -/
def totalLength (instructions : List Instruction) : Nat :=
  (instructions.map Instruction.length).sum

namespace Code

/-- The code with instructions put at its end one after the other, or why that failed. -/
def appendAll (code : Code) : List Instruction → Except EncodeError Code
  | [] => .ok code
  | instruction :: rest =>
    match code.append instruction with
    | .ok longer => appendAll longer rest
    | .error reason => .error reason

/-- Reading again and again from an offset gives the instructions of a list, each as long as its
shortest spelling, and ends at `finish`. -/
def Reads (code : Code) : Nat → List Instruction → Nat → Prop
  | start, [], finish => start = finish
  | start, instruction :: rest, finish =>
    code.decode start = .ok (instruction, start + instruction.length) ∧
      code.Reads (start + instruction.length) rest finish

/-- Appending instructions puts the first one's spelling at the end, and the others behind it. -/
theorem appendAll_cons_eq_ok_iff {instruction : Instruction} {rest : List Instruction}
    {code longer : Code} :
    code.appendAll (instruction :: rest) = .ok longer ↔
      instruction.Writable code.size ∧
        (code.extend (instruction.spelling code.size)).appendAll rest = .ok longer := by
  rw [appendAll]
  cases hfirst : code.append instruction with
  | error reason =>
    simp only [reduceCtorEq, false_iff, not_and]
    intro hwritable
    rw [(append_eq_ok_iff code _ instruction).mpr ⟨hwritable, rfl⟩] at hfirst
    exact absurd hfirst (by simp)
  | ok middle =>
    obtain ⟨hwritable, rfl⟩ := (append_eq_ok_iff code middle instruction).mp hfirst
    simp only [hwritable, true_and]

/-- The offset behind an instruction that was put at the end of a code string. -/
theorem size_extend_spelling {instruction : Instruction} {code : Code}
    (hwritable : instruction.Writable code.size) :
    (code.extend (instruction.spelling code.size)).size = code.size + instruction.length := by
  rw [size_extend, Instruction.length_spelling hwritable]

/-- Code that instructions were appended to starts with what it was. -/
theorem exists_append_of_appendAll {instructions : List Instruction} {code longer : Code}
    (hwritten : code.appendAll instructions = .ok longer) :
    ∃ suffix : Code, longer = code ++ suffix := by
  induction instructions generalizing code with
  | nil =>
    rw [appendAll, Except.ok.injEq] at hwritten
    exact ⟨#[], by rw [Array.append_empty, hwritten]⟩
  | cons instruction rest ih =>
    obtain ⟨-, hrest⟩ := appendAll_cons_eq_ok_iff.mp hwritten
    obtain ⟨suffix, rfl⟩ := ih hrest
    exact ⟨_, Array.append_assoc⟩

/-- Appending instructions succeeds exactly when each can be written at its own offset. -/
theorem appendAll_isOk_iff (instructions : List Instruction) (code : Code) :
    (∃ longer, code.appendAll instructions = .ok longer) ↔
      AllWritable code.size instructions := by
  induction instructions generalizing code with
  | nil => exact ⟨fun _ ↦ trivial, fun _ ↦ ⟨code, rfl⟩⟩
  | cons instruction rest ih =>
    constructor
    · rintro ⟨longer, hwritten⟩
      obtain ⟨hwritable, hrest⟩ := appendAll_cons_eq_ok_iff.mp hwritten
      have hothers := (ih _).mp ⟨longer, hrest⟩
      rw [size_extend_spelling hwritable] at hothers
      exact ⟨hwritable, hothers⟩
    · rintro ⟨hwritable, hothers⟩
      have hsize := size_extend_spelling hwritable
      obtain ⟨longer, hrest⟩ := (ih _).mpr (hsize ▸ hothers)
      exact ⟨longer, appendAll_cons_eq_ok_iff.mpr ⟨hwritable, hrest⟩⟩

/-- Instructions that were appended take the bytes that their lengths say. -/
theorem size_of_appendAll {instructions : List Instruction} {code longer : Code}
    (hwritten : code.appendAll instructions = .ok longer) :
    longer.size = code.size + totalLength instructions := by
  induction instructions generalizing code with
  | nil =>
    rw [appendAll, Except.ok.injEq] at hwritten
    rw [hwritten]
    rfl
  | cons instruction rest ih =>
    obtain ⟨hwritable, hrest⟩ := appendAll_cons_eq_ok_iff.mp hwritten
    rw [ih hrest, size_extend_spelling hwritable, totalLength, totalLength, List.map_cons,
      List.sum_cons]
    omega

/-- Assumes: instructions were appended to a code string. Reading from the offset where the first
was put gives the instructions exactly when their operands fit, also when more bytes follow. -/
theorem reads_iff_allFit {instructions : List Instruction} {code longer : Code}
    (hwritten : code.appendAll instructions = .ok longer) (suffix : Code) :
    Reads (longer ++ suffix) code.size instructions longer.size ↔
      AllFit code.size instructions := by
  induction instructions generalizing code with
  | nil =>
    rw [appendAll, Except.ok.injEq] at hwritten
    exact ⟨fun _ ↦ trivial, fun _ ↦ congrArg Array.size hwritten⟩
  | cons instruction rest ih =>
    obtain ⟨hwritable, hrest⟩ := appendAll_cons_eq_ok_iff.mp hwritten
    have hothers := ih hrest
    rw [size_extend_spelling hwritable] at hothers
    obtain ⟨between, rfl⟩ := exists_append_of_appendAll hrest
    have hcarries := carries_extend code (instruction.spelling code.size) (between ++ suffix)
    rw [← Array.append_assoc] at hcarries
    exact and_congr (decode_iff_fits hwritable hcarries) hothers

/-- Appending instructions one after the other succeeds exactly when each can be written at its own
offset. Then the code starts with what was there before and is longer by the lengths of the
instructions. Reading from the offset of the first instruction gives the same instructions in
order, whatever is appended afterwards, exactly when the operand of each fits. -/
theorem appendAll_reads_back (code : Code) (instructions : List Instruction) :
    match code.appendAll instructions with
    | .ok longer =>
      AllWritable code.size instructions ∧ code.toList <+: longer.toList ∧
        longer.size = code.size + totalLength instructions ∧
        ∀ suffix : Code, Reads (longer ++ suffix) code.size instructions longer.size ↔
          AllFit code.size instructions
    | .error _ => ¬ AllWritable code.size instructions := by
  cases hwritten : code.appendAll instructions with
  | ok longer =>
    refine ⟨(appendAll_isOk_iff instructions code).mp ⟨longer, hwritten⟩, ?_,
      size_of_appendAll hwritten, reads_iff_allFit hwritten⟩
    obtain ⟨suffix, rfl⟩ := exists_append_of_appendAll hwritten
    rw [Array.toList_append]
    exact List.prefix_append _ _
  | error reason =>
    intro hwritable
    obtain ⟨longer, hsuccess⟩ := (appendAll_isOk_iff instructions code).mpr hwritable
    rw [hwritten] at hsuccess
    exact absurd hsuccess (by simp)

/-- A relative branch from the start of the code to the largest number of 64 bits does not fit, but
it is written, and reading it fails. -/
theorem appendAll_far_target :
    ¬ AllFit 0 [.branch .goto .relative 0xFFFFFFFFFFFFFFFF] ∧
      appendAll #[] [.branch .goto .relative 0xFFFFFFFFFFFFFFFF] = .ok #[0o252, 0x7d] ∧
      Code.decode #[0o252, 0x7d] 0 = .error (.branchOutOfRange 0 (-1)) := by
  have hdistance : relativeDistance 0 0xFFFFFFFFFFFFFFFF = 125 := by
    unfold relativeDistance
    omega
  have hcarries := carries_extend #[] [Opcode.relativeGoto + BranchKind.goto.index, 125] #[]
  refine ⟨fun hfit ↦ ?_, ?_, decode_relativeBranch (by omega) hcarries⟩
  · have hnear := hfit.1
    simp only [Instruction.Fits] at hnear
    omega
  · rw [appendAll_cons_eq_ok_iff]
    refine ⟨hdistance.le.trans (by omega), ?_⟩
    simp only [Instruction.spelling, Array.size_empty, hdistance]
    rfl

end Code

end LispMachine
