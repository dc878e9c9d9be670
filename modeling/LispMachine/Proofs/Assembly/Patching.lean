import LispMachine.Assembly
import LispMachine.Proofs.Instruction.RoundTrip

/-!
Filling in the targets of jumps. A `Draft` is an instruction as the assembler first writes it: for
good, or with a placeholder in place of a label's offset. The note that is kept for such a jump
(`Draft.fixup?`) says where its instruction stands, and filling in replaces the bytes of exactly
this instruction by the spelling with the offset of the label (`Draft.exists_settles_of_apply`).
Jumps keep their length, so nothing moves: when all notes of the drafts are worked off, the code is
what writing the settled instructions in the first place would have given (`exists_settled`).
-/

set_option autoImplicit false

namespace LispMachine

/-! ### Instructions with their offsets -/

/-- The instructions of a listing stand one behind the other, the first at an offset. -/
def Placed : Nat → List (Nat × Instruction) → Prop
  | _, [] => True
  | start, (offset, instruction) :: rest =>
    offset = start ∧ Placed (start + instruction.length) rest

theorem placed_concat {start offset : Nat} {listing : List (Nat × Instruction)}
    {instruction : Instruction} :
    Placed start (listing ++ [(offset, instruction)]) ↔
      Placed start listing ∧ offset = start + totalLength (listing.map Prod.snd) := by
  induction listing generalizing start with
  | nil => simp [Placed, totalLength]
  | cons entry rest ih =>
    simp only [List.cons_append, Placed, ih, totalLength, List.map_cons, List.sum_cons, and_assoc,
      Nat.add_assoc]

/-- A condition that holds of every instruction where it is put holds of each at its own offset. -/
theorem Placed.allPut_iff {condition : Nat → Instruction → Prop} {start : Nat}
    {listing : List (Nat × Instruction)} (hplaced : Placed start listing) :
    AllPut condition start (listing.map Prod.snd) ↔
      ∀ entry ∈ listing, condition entry.1 entry.2 := by
  induction listing generalizing start with
  | nil => simp [AllPut]
  | cons entry rest ih =>
    obtain ⟨rfl, hrest⟩ := hplaced
    simp only [List.map_cons, AllPut, ih hrest, List.forall_mem_cons]

namespace Code

theorem appendAll_concat {instructions : List Instruction} {instruction : Instruction}
    {code middle : Code} (hwritten : code.appendAll instructions = .ok middle)
    (hwritable : instruction.Writable middle.size) :
    code.appendAll (instructions ++ [instruction]) =
      .ok (middle.extend (instruction.spelling middle.size)) := by
  induction instructions generalizing code with
  | nil =>
    cases hwritten
    exact appendAll_cons_eq_ok_iff.mpr ⟨hwritable, rfl⟩
  | cons first rest ih =>
    obtain ⟨hfirst, hrest⟩ := appendAll_cons_eq_ok_iff.mp hwritten
    exact appendAll_cons_eq_ok_iff.mpr ⟨hfirst, ih hrest⟩

/-- What instructions append depends on where they are put only, not on what stands before them. -/
theorem exists_suffix_of_appendAll {instructions : List Instruction} {code longer : Code}
    (hwritten : code.appendAll instructions = .ok longer) :
    ∃ suffix : Code, longer = code ++ suffix ∧
      ∀ other : Code, other.size = code.size →
        other.appendAll instructions = .ok (other ++ suffix) := by
  induction instructions generalizing code with
  | nil =>
    cases hwritten
    exact ⟨#[], by simp, fun other _ ↦ by simp [appendAll]⟩
  | cons instruction rest ih =>
    obtain ⟨hwritable, hrest⟩ := appendAll_cons_eq_ok_iff.mp hwritten
    obtain ⟨suffix, rfl, hothers⟩ := ih hrest
    refine ⟨((instruction.spelling code.size).map UInt8.ofNat).toArray ++ suffix, ?_, ?_⟩
    · simp [extend]
    · intro other hsize
      refine appendAll_cons_eq_ok_iff.mpr ⟨hsize ▸ hwritable, ?_⟩
      rw [hsize, hothers _ (by rw [size_extend, size_extend, hsize])]
      simp [extend]

/-- Changing one byte of what was put at the end of a code string. -/
theorem setIfInBounds_extend (code suffix : Code) (front back : List Nat) (old byte : Nat) :
    Array.setIfInBounds (code.extend (front ++ old :: back) ++ suffix) (code.size + front.length)
        (UInt8.ofNat byte) =
      code.extend (front ++ byte :: back) ++ suffix := by
  apply Array.ext'
  simp [extend]

end Code

/-! ### One jump -/

/-- The code after an absolute jump, or the push of a handler, got its target. -/
theorem Fixup.apply_absolute (before suffix : Code) (label opcode low high target : Nat) :
    (Fixup.mk before.size label .absolute).apply target
        (before.extend [opcode, low, high] ++ suffix) =
      if target > 0xffff then .error (.operandTooLarge "branch target" target)
      else .ok (before.extend [opcode, target % 256, target / 256] ++ suffix) := by
  have hlow : UInt8.ofNat target = UInt8.ofNat (target % 256) := UInt8.ofNat_mod_size.symm
  have hfirst := before.setIfInBounds_extend suffix [opcode] [high] low (target % 256)
  have hsecond := before.setIfInBounds_extend suffix [opcode, target % 256] [] high (target / 256)
  simp only [List.cons_append, List.nil_append, List.length_cons, List.length_nil] at hfirst hsecond
  simp only [Fixup.apply, hlow, hfirst, hsecond]

/-- The code after a relative branch got its target. -/
theorem Fixup.apply_relative (before suffix : Code) (label opcode distance target : Nat) :
    (Fixup.mk before.size label .relative).apply target
        (before.extend [opcode, distance] ++ suffix) =
      if relativeDistance before.size target ≤ 255 then
        .ok (before.extend [opcode, relativeDistance before.size target] ++ suffix)
      else .error (.relativeOutOfRange before.size target) := by
  have hbyte := before.setIfInBounds_extend suffix [opcode] [] distance
    (relativeDistance before.size target)
  simp only [List.cons_append, List.nil_append, List.length_cons, List.length_nil] at hbyte
  simp only [Fixup.apply, relativeOperand?]
  by_cases hnear : relativeDistance before.size target ≤ 255
  · simp only [if_pos hnear, hbyte]
  · simp only [if_neg hnear]

/-- An instruction as it is first written: for good, or as a jump that waits for the offset of a
label. -/
inductive Draft where
  | final (instruction : Instruction)
  | branch (kind : BranchKind) (form : BranchForm) (label placeholder : Nat)
  | handler (kind : HandlerKind) (label : Nat)

namespace Draft

/-- The instruction that is written first. -/
def written : Draft → Instruction
  | .final instruction => instruction
  | .branch kind form _ placeholder => .branch kind form placeholder
  | .handler kind _ => .pushHandler kind 0

/-- The note that is kept for a draft at an offset that is not final. -/
def fixup? (source : Nat) : Draft → Option Fixup
  | .final _ => none
  | .branch _ form label _ => some ⟨source, label, form⟩
  | .handler _ label => some ⟨source, label, .absolute⟩

/-- What a draft becomes when the labels have their last offsets. -/
inductive Settles (offsetOf? : Nat → Option Nat) : Draft → Instruction → Prop
  | final (instruction : Instruction) : Settles offsetOf? (.final instruction) instruction
  | branch {kind : BranchKind} {form : BranchForm} {label placeholder target : Nat}
      (hbound : offsetOf? label = some target) :
      Settles offsetOf? (.branch kind form label placeholder) (.branch kind form target)
  | handler {kind : HandlerKind} {label target : Nat} (hbound : offsetOf? label = some target) :
      Settles offsetOf? (.handler kind label) (.pushHandler kind target)

variable {offsetOf? : Nat → Option Nat}

/-- A draft takes as many bytes as what it becomes. -/
theorem Settles.length_eq {draft : Draft} {instruction : Instruction}
    (hsettles : draft.Settles offsetOf? instruction) :
    instruction.length = draft.written.length := by
  cases hsettles with
  | @branch kind form => cases form <;> rfl
  | _ => rfl

/-- Assumes: a draft stands in the code, and its note is worked off without an error. Its bytes
are now the spelling of what the draft becomes, which can be written there, and no other byte has
changed. -/
theorem exists_settles_of_apply {draft : Draft} {before suffix patched : Code} {fixup : Fixup}
    {target : Nat} (hfixup : draft.fixup? before.size = some fixup)
    (hbound : offsetOf? fixup.label = some target)
    (happly : fixup.apply target
      (before.extend (draft.written.spelling before.size) ++ suffix) = .ok patched) :
    ∃ instruction, draft.Settles offsetOf? instruction ∧ instruction.Writable before.size ∧
      patched = before.extend (instruction.spelling before.size) ++ suffix := by
  cases draft with
  | final instruction => cases hfixup
  | branch kind form label placeholder =>
    cases hfixup
    refine ⟨_, .branch hbound, ?_⟩
    cases form with
    | absolute =>
      simp only [written, Instruction.spelling, Fixup.apply_absolute] at happly
      split_ifs at happly with hlarge
      cases happly
      exact ⟨Nat.le_of_not_lt hlarge, rfl⟩
    | relative =>
      simp only [written, Instruction.spelling, Fixup.apply_relative] at happly
      split_ifs at happly with hnear
      cases happly
      exact ⟨hnear, rfl⟩
  | handler kind label =>
    cases hfixup
    refine ⟨_, .handler hbound, ?_⟩
    simp only [written, Instruction.spelling, Fixup.apply_absolute] at happly
    split_ifs at happly with hlarge
    cases happly
    exact ⟨Nat.le_of_not_lt hlarge, rfl⟩

/-- A draft without a note is final. -/
theorem settles_of_fixup?_eq_none {draft : Draft} {source : Nat}
    (hfixup : draft.fixup? source = none) : draft.Settles offsetOf? draft.written := by
  cases draft with
  | final instruction => exact .final instruction
  | branch => cases hfixup
  | handler => cases hfixup

end Draft

/-! ### All jumps -/

/-- Drafts with their offsets, as they are first written. -/
def writtenListing (drafts : List (Nat × Draft)) : List (Nat × Instruction) :=
  drafts.map (Prod.map id Draft.written)

/-- The notes that are kept for drafts. -/
def draftFixups (drafts : List (Nat × Draft)) : List Fixup :=
  drafts.filterMap fun entry ↦ entry.2.fixup? entry.1

/-- The code with the target of one jump filled in from the offsets of the labels. -/
def fillIn (offsetOf? : Nat → Option Nat) (code : Code) (fixup : Fixup) :
    Except EncodeError Code :=
  match offsetOf? fixup.label with
  | some target => fixup.apply target code
  | none => .error (.unboundLabel fixup.label)

theorem Assembler.resolve_eq_foldlM (assembler : Assembler) :
    assembler.resolve =
      assembler.fixups.toList.foldlM (fillIn assembler.offsetOf?) assembler.code :=
  (Array.foldlM_toList ..).symm

theorem fillIn_eq_ok {offsetOf? : Nat → Option Nat} {code patched : Code} {fixup : Fixup}
    (hfill : fillIn offsetOf? code fixup = .ok patched) :
    ∃ target, offsetOf? fixup.label = some target ∧ fixup.apply target code = .ok patched := by
  unfold fillIn at hfill
  cases hbound : offsetOf? fixup.label with
  | none =>
    rw [hbound] at hfill
    cases hfill
  | some target =>
    rw [hbound] at hfill
    exact ⟨target, rfl, hfill⟩

/-- An entry of a listing holds what the draft at the same offset becomes. -/
def SettlesAt (offsetOf? : Nat → Option Nat) (draft : Nat × Draft) (entry : Nat × Instruction) :
    Prop :=
  entry.1 = draft.1 ∧ draft.2.Settles offsetOf? entry.2

/-- Assumes: drafts were written behind `before`, and their notes were worked off without an error.
The code is now what `before` and the settled instructions give, each at the offset of its draft. -/
theorem exists_settled {offsetOf? : Nat → Option Nat} {drafts : List (Nat × Draft)}
    {before code patched : Code} (hplaced : Placed before.size (writtenListing drafts))
    (hwritten : before.appendAll ((writtenListing drafts).map Prod.snd) = .ok code)
    (hfilled : (draftFixups drafts).foldlM (fillIn offsetOf?) code = .ok patched) :
    ∃ listing, List.Forall₂ (SettlesAt offsetOf?) drafts listing ∧ Placed before.size listing ∧
      before.appendAll (listing.map Prod.snd) = .ok patched := by
  -- `before` grows by one settled instruction at a time; what stands behind it is still as drafted.
  induction drafts generalizing before code with
  | nil =>
    cases hfilled
    exact ⟨[], .nil, trivial, hwritten⟩
  | cons entry rest ih =>
    obtain ⟨offset, draft⟩ := entry
    obtain ⟨hoffset, hplaced_rest⟩ := hplaced
    obtain rfl : offset = before.size := hoffset
    obtain ⟨hwritable, hwritten_rest⟩ : draft.written.Writable before.size ∧
        (before.extend (draft.written.spelling before.size)).appendAll
          ((writtenListing rest).map Prod.snd) = .ok code :=
      Code.appendAll_cons_eq_ok_iff.mp hwritten
    obtain ⟨suffix, rfl, hothers⟩ := Code.exists_suffix_of_appendAll hwritten_rest
    -- The rest is put behind whatever the draft becomes.
    have hrest {instruction : Instruction} (hsettles : draft.Settles offsetOf? instruction)
        (hwritable' : instruction.Writable before.size)
        (hfilled_rest : (draftFixups rest).foldlM (fillIn offsetOf?)
          (before.extend (instruction.spelling before.size) ++ suffix) = .ok patched) :
        ∃ listing, List.Forall₂ (SettlesAt offsetOf?) ((before.size, draft) :: rest) listing ∧
          Placed before.size listing ∧
          before.appendAll (listing.map Prod.snd) = .ok patched := by
      have hlength : instruction.length = draft.written.length := hsettles.length_eq
      have hsize := Code.size_extend_spelling hwritable'
      have hsame : (before.extend (instruction.spelling before.size)).size =
          (before.extend (draft.written.spelling before.size)).size := by
        rw [hsize, hlength, Code.size_extend_spelling hwritable]
      have hplaced' : Placed (before.extend (instruction.spelling before.size)).size
          (writtenListing rest) := by
        rw [hsize, hlength]
        exact hplaced_rest
      obtain ⟨listing, hsettled, hseats, happended⟩ :=
        ih hplaced' (hothers _ hsame) hfilled_rest
      refine ⟨(before.size, instruction) :: listing, .cons ⟨rfl, hsettles⟩ hsettled,
        ⟨rfl, hsize ▸ hseats⟩, ?_⟩
      exact Code.appendAll_cons_eq_ok_iff.mpr ⟨hwritable', happended⟩
    cases hfixup : draft.fixup? before.size with
    | none =>
      have hsame : draftFixups ((before.size, draft) :: rest) = draftFixups rest :=
        List.filterMap_cons_none hfixup
      rw [hsame] at hfilled
      exact hrest (Draft.settles_of_fixup?_eq_none hfixup) hwritable hfilled
    | some fixup =>
      have hmore : draftFixups ((before.size, draft) :: rest) = fixup :: draftFixups rest :=
        List.filterMap_cons_some hfixup
      rw [hmore, List.foldlM_cons] at hfilled
      cases hfill : fillIn offsetOf?
          (before.extend (draft.written.spelling before.size) ++ suffix) fixup with
      | error reason =>
        rw [hfill] at hfilled
        cases hfilled
      | ok filled =>
        rw [hfill] at hfilled
        obtain ⟨target, hbound, happly⟩ := fillIn_eq_ok hfill
        obtain ⟨instruction, hsettles, hwritable', rfl⟩ :=
          Draft.exists_settles_of_apply hfixup hbound happly
        exact hrest hsettles hwritable' hfilled

end LispMachine
