import LispMachine.Proofs.Run.Progress

/-!
Room on the operand stack. A stack is `Within` a limit if it has this limit and holds no more
values. The interpreter checks before it pushes, so its stack stays within the limit that it started
with (`advance_within`). Native code pushes unchecked, but guarded code asks before each instruction
whether the instruction fits on the stack (`Function.guarded_translate`), and what fits leaves no
more than there is room for (`nativeAdvance_within`).
-/

set_option autoImplicit false

namespace LispMachine

open LispMachine.Action Storage Engine

variable {caller : Caller} {frame : Frame}

/-! ### Stacks -/

/-- The stack has the given limit and holds no more values. -/
structure OperandStack.Within (limit : Nat) (stack : OperandStack) : Prop where
  limit_eq : stack.limit = limit
  depth_le : stack.depth ≤ limit

namespace OperandStack.Within

variable {limit : Nat} {stack rest : OperandStack}

theorem shrink (hstack : stack.Within limit)
    (hrest : rest.depth ≤ stack.depth ∧ rest.limit = stack.limit) : rest.Within limit :=
  ⟨hrest.2.trans hstack.limit_eq, Nat.le_trans hrest.1 hstack.depth_le⟩

theorem push {value : Value} (hlimit : stack.limit = limit) (hpush : stack.push value = .ok rest) :
    rest.Within limit := by
  unfold OperandStack.push at hpush
  split_ifs at hpush with hfull
  cases hpush
  exact ⟨hlimit, hlimit ▸ Nat.lt_of_not_le hfull⟩

end OperandStack.Within

/-! ### Interpreted code -/

/-- The frame is left running on a stack that is not overfull, or returns. -/
def StepOutcome.Within (limit : Nat) : StepOutcome → Prop
  | .running _ stack => stack.Within limit
  | .returned _ => True

theorem pushAndGo_within {limit : Nat} {stack : OperandStack} (hlimit : stack.limit = limit)
    (value : Value) (next : Nat) :
    Yields (StepOutcome.Within limit) (pushAndGo caller stack value next) :=
  .checked_bind fun _ hpush ↦ .pure (OperandStack.Within.push hlimit hpush)

/-- An instruction leaves no more values on the stack than it has room for. -/
theorem execute_within {limit : Nat} {stack : OperandStack} (hstack : stack.Within limit)
    (offset next : Nat) (instruction : Instruction) :
    Yields (StepOutcome.Within limit) (execute caller frame offset next stack instruction) := by
  have hgoes {rest : OperandStack} {count : Nat}
      (hrest : rest.depth + count = stack.depth ∧ rest.limit = stack.limit) :
      Yields (StepOutcome.Within limit) (Pure.pure (.running next rest) : Engine StepOutcome) :=
    .pure (hstack.shrink ⟨by omega, hrest.2⟩)
  have hsame : stack.depth + 0 = stack.depth ∧ stack.limit = stack.limit := ⟨rfl, rfl⟩
  have hpushes {rest : OperandStack} (hlimit : rest.limit = stack.limit) (value : Value) :
      Yields (StepOutcome.Within limit) (pushAndGo caller rest value next) :=
    pushAndGo_within (hlimit.trans hstack.limit_eq) value next
  cases instruction with
  | stackRef | dup => exact .checked_bind fun value _ ↦ hpushes rfl value
  | constant => exact .ofFaulty_bind fun value _ ↦ hpushes rfl value
  | varRef => exact .ofFaulty_bind fun _ _ ↦ .after fun value ↦ hpushes rfl value
  | varSet | varBind =>
    exact .ofFaulty_bind fun _ _ ↦ .checked_bind fun _ hpop ↦ .after fun _ ↦
      hgoes (OperandStack.pop_eq_ok hpop)
  | call | listN | concatN | insertN =>
    exact .checked_bind fun _ hpop ↦ .after fun result ↦
      hpushes (OperandStack.popSlice_eq_ok hpop).2 result
  | unbind | unbindAll | popHandler => exact .after fun _ ↦ hgoes hsame
  | pushHandler =>
    exact .checked_bind fun _ hpop ↦ .after fun _ ↦ hgoes (OperandStack.pop_eq_ok hpop)
  | branch kind form target =>
    refine .ite (.signal _) (.checked_bind fun tested htest ↦ ?_)
    obtain ⟨taken, rest⟩ := tested
    obtain ⟨hlimit, htaken, hpassed⟩ := BranchKind.test_eq_ok htest
    cases taken with
    | true =>
      have hdepth : rest.depth ≤ stack.depth := by
        rw [htaken rfl]
        split_ifs <;> omega
      exact .after fun _ ↦ .pure (hstack.shrink ⟨hdepth, hlimit⟩)
    | false => exact hgoes ⟨(hpassed rfl).2, hlimit⟩
  | ret => exact .checked_bind fun _ _ ↦ .pure trivial
  | discard => exact .checked_bind fun _ hpop ↦ hgoes (OperandStack.pop_eq_ok hpop)
  | discardN count preserveTop =>
    refine .checked_bind fun rest hdiscard ↦ ?_
    split_ifs at hdiscard
    · exact hgoes (OperandStack.discardUnder_eq_ok hdiscard)
    · exact hgoes (OperandStack.discard_eq_ok hdiscard)
  | stackSet =>
    refine .checked_bind fun _ _ ↦ .checked_bind fun changed hset ↦ .checked_bind fun _ hpop ↦ ?_
    obtain ⟨hdepth, hlimit⟩ := OperandStack.set_eq_ok hset
    obtain ⟨hpopped, hsame⟩ := OperandStack.pop_eq_ok hpop
    exact hgoes ⟨hpopped.trans hdepth, hsame.trans hlimit⟩
  | operation op =>
    refine .checked_bind fun _ hpop ↦ .after fun result ↦ ?_
    obtain hrest := OperandStack.popSlice_eq_ok hpop
    exact .ite (hpushes hrest.2 result) (hgoes hrest)

/-- Also where a handler resumes, there is room for what it receives. -/
theorem advance_within {limit : Nat} {activation : Activation}
    (hstack : activation.stack.Within limit) :
    Yields (StepOutcome.Within limit) (advance caller frame activation) := by
  intro machine outcome after hadvance
  rcases dispatching_eq_ok hadvance with hstep | ⟨_, _, handler, payload, _, -, -, hresume⟩
  · have hsteps : Yields (StepOutcome.Within limit) (step caller frame activation) :=
      .after fun _ ↦ execute_within hstack _ _ _
    exact hsteps machine outcome after hstep
  · have hresumes : Yields (StepOutcome.Within limit)
        (resumeAt caller activation.stack handler payload) := by
      unfold resumeAt
      cases handler.resume with
      | offset target =>
        refine .checked_bind fun reset hreset ↦ pushAndGo_within ?_ payload target
        exact (OperandStack.resetTo_eq_ok hreset).2.trans hstack.limit_eq
      | native | host => exact .signal _
    exact hresumes _ outcome after hresume

/-! ### Native code -/

/-- The frame is left running on a stack that is not overfull, or returns. -/
def NativeOutcome.Within (limit : Nat) : NativeOutcome → Prop
  | .running _ stack => stack.Within limit
  | .returned _ => True

/-- A piece of code that is the translation of an instruction and checks that it fits on the stack,
or a trap. -/
def NativeStep.Guarded (function : Function) (step : NativeStep) : Prop :=
  (∃ fault, step.operation = .trap fault) ∨ ∃ instruction offset sites,
    step.need = some ⟨instruction.reach, instruction.effect.toNat⟩ ∧
    step.operation = function.translateInstruction offset sites instruction

theorem Function.guarded_translate {function : Function} {step : NativeStep}
    (hstep : step ∈ (function.translate true).steps) : step.Guarded function := by
  have hscan (sites : Nat) (scan : List Scanned) :
      ∀ step ∈ function.translateFrom true sites scan, step.Guarded function := by
    induction scan generalizing sites with
    | nil =>
      intro step hstep
      rw [translateFrom, List.mem_singleton] at hstep
      exact .inl ⟨_, congrArg _ hstep⟩
    | cons scanned rest ih =>
      intro step hstep
      rw [translateFrom, List.mem_cons] at hstep
      rcases hstep with rfl | hlater
      · obtain ⟨offset, content⟩ := scanned
        cases content with
        | error fault => exact .inl ⟨fault, rfl⟩
        | ok decoded => exact .inr ⟨decoded.1, offset, sites, rfl, rfl⟩
      · exact ih _ step hlater
  exact hscan 0 function.code.scan step (List.mem_toArray.mp hstep)

theorem StackNeed.fitsOn_of_check {instruction : Instruction} {stack : OperandStack}
    (hcheck : StackNeed.check ⟨instruction.reach, instruction.effect.toNat⟩ stack = .ok ()) :
    instruction.FitsOn stack := by
  unfold StackNeed.check at hcheck
  split_ifs at hcheck with hreach hroom
  exact ⟨Nat.le_of_not_lt hreach, Nat.le_of_not_lt hroom⟩

/-- The translation of an instruction that fits on the stack leaves no more values there than it has
room for. -/
theorem nativeExecute_within {limit : Nat} {instruction : Instruction} {stack : OperandStack}
    (hlimit : stack.limit = limit) (hfits : instruction.FitsOn stack) (subject : Function)
    (place offset sites : Nat) :
    Yields (NativeOutcome.Within limit) (nativeExecute caller frame place stack
      (subject.translateInstruction offset sites instruction)) := by
  have hreach := hfits.reach_le
  have hroom := hfits.room
  have hstack : stack.Within limit := ⟨hlimit, hlimit ▸ Nat.le_trans (Nat.le_add_right _ _) hroom⟩
  have hlowered (count place : Nat) : Yields (NativeOutcome.Within limit)
      (Pure.pure (.running place (stack.lower count)) : Engine NativeOutcome) :=
    .pure (hstack.shrink ⟨by rw [OperandStack.depth_lower]; omega, rfl⟩)
  have hoverwritten (n count : Nat) : Yields (NativeOutcome.Within limit)
      (Pure.pure (.running (place + 1) ((stack.overwrite n (stack.slot 0)).lower count)) :
        Engine NativeOutcome) := by
    refine .pure (hstack.shrink ⟨?_, rfl⟩)
    rw [OperandStack.depth_lower, OperandStack.depth_overwrite]
    omega
  have hextends (rest : OperandStack) (hdepth : rest.depth < rest.limit)
      (hrest : rest.limit = stack.limit) (value : Value) : Yields (NativeOutcome.Within limit)
        (Pure.pure (.running (place + 1) (rest.extend value)) : Engine NativeOutcome) :=
    .pure ⟨hrest.trans hlimit, hlimit ▸ hrest ▸ hdepth⟩
  have hconstant {use : Value → NativeOperation} (index : Nat)
      (huse : ∀ value, Yields (NativeOutcome.Within limit)
        (nativeExecute caller frame place stack (use value))) :
      Yields (NativeOutcome.Within limit)
        (nativeExecute caller frame place stack (subject.withConstant index use)) := by
    unfold Function.withConstant
    cases subject.constant index with
    | ok value => exact huse value
    | error fault => exact .signal _
  cases instruction with
  | stackRef | dup => exact hextends stack hroom rfl _
  | constant index => exact hconstant index fun value ↦ hextends stack hroom rfl value
  | varRef index =>
    exact hconstant index fun symbol ↦ .after fun value ↦ hextends stack hroom rfl value
  | varSet index | varBind index => exact hconstant index fun symbol ↦ .after fun _ ↦ hlowered 1 _
  | call count =>
    refine .after fun result ↦ hextends (stack.lower (count + 1)) ?_ rfl result
    exact OperandStack.depth_lower_lt hreach (Nat.le_trans (Nat.le_add_right _ _) hroom)
  | unbind | unbindAll | popHandler => exact .after fun _ ↦ .pure hstack
  | pushHandler => exact .after fun _ ↦ hlowered 1 _
  | branch kind form target =>
    rw [Function.translateInstruction]
    split_ifs
    · exact .signal _
    · refine .ite (.ite (.after fun _ ↦ ?_) (hlowered 1 _)) (.after fun _ ↦ .pure hstack)
      split_ifs
      · exact .pure hstack
      · exact hlowered 1 _
  | ret => exact .pure trivial
  | discard => exact hlowered 1 _
  | discardN count preserveTop =>
    rw [Function.translateInstruction]
    split_ifs
    · exact hoverwritten count count
    · exact hlowered count _
  | stackSet n => exact hoverwritten n 1
  | listN count | concatN count | insertN count =>
    refine .after fun result ↦ hextends (stack.lower count) ?_ rfl result
    exact OperandStack.depth_lower_lt hreach (Instruction.room_of_gathering hroom)
  | operation op =>
    refine .after fun result ↦ ?_
    dsimp only
    split_ifs with hpushes
    · refine hextends (stack.lower op.operands) ?_ rfl result
      exact OperandStack.depth_lower_lt hreach (Instruction.room_of_operation hpushes hroom)
    · exact hlowered _ _

/-- Guarded code does not overfill the stack. -/
theorem nativeStep_within {subject : Function} {limit : Nat} {stack : OperandStack}
    (hlimit : stack.limit = limit) (place : Nat) :
    Yields (NativeOutcome.Within limit)
      (nativeStep caller frame (subject.translate true) place stack) := by
  unfold nativeStep
  cases hstep : (subject.translate true).steps[place]? with
  | none => exact .signal _
  | some step =>
    refine .after fun _ ↦ ?_
    obtain ⟨need, operation⟩ := step
    rcases Function.guarded_translate (Array.mem_of_getElem? hstep) with
      ⟨fault, htrap⟩ | ⟨instruction, offset, sites, hneed, htranslated⟩
    · exact .after fun _ ↦ htrap ▸ .signal _
    · dsimp only at hneed htranslated
      rw [hneed, htranslated]
      exact .checked_bind fun _ hcheck ↦
        nativeExecute_within hlimit (StackNeed.fitsOn_of_check hcheck) subject place offset sites

theorem resumeAtSite_within {code : NativeCode} {limit : Nat} {stack : OperandStack}
    (hlimit : stack.limit = limit) (handler : Handler) (payload : Value) :
    Yields (NativeOutcome.Within limit) (resumeAtSite caller code stack handler payload) := by
  unfold resumeAtSite
  cases handler.resume with
  | native site =>
    refine .checked_bind fun _ hcheck ↦ ?_
    cases code.sites[site]? with
    | none => exact .signal _
    | some place =>
      unfold StackNeed.check at hcheck
      split_ifs at hcheck with _ hroom
      have hreset := (stack.limit_atDepth handler.depth).trans hlimit
      exact .pure ⟨hreset, hreset ▸ Nat.le_of_not_lt hroom⟩
  | offset | host => exact .signal _

theorem nativeAdvance_within {subject : Function} {limit : Nat} {stack : OperandStack}
    (hlimit : stack.limit = limit) (place : Nat) :
    Yields (NativeOutcome.Within limit)
      (nativeAdvance caller frame (subject.translate true) place stack) := by
  unfold nativeAdvance
  split_ifs
  · exact nativeStep_within hlimit place
  · intro machine outcome after hadvance
    rcases dispatching_eq_ok hadvance with hstep | ⟨_, _, handler, payload, _, -, -, hresume⟩
    · exact nativeStep_within hlimit place machine outcome after hstep
    · exact resumeAtSite_within hlimit handler payload _ outcome after hresume

end LispMachine
