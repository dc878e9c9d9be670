import LispMachine.Proofs.Depth.Running

/-!
What the facts about instructions say of their execution. How far an instruction reaches and how it
changes the depth is written down apart from the interpreter, and the analysis of the depth and the
guards of native code trust it. `execute_matches_facts` says that they can: an instruction that fits
on its stack by these facts raises no stack fault of its own, and when it completes, the depth is the
one that the facts give; an instruction that does not fit never completes.

There is one exception: an instruction that discards nothing from below the top looks at no value,
although it is said to reach one. The facts are computed with signed numbers of 64 bits, so they are
those of the instruction only where the number of the values on the stack is such a number.
-/

set_option autoImplicit false

namespace LispMachine

open LispMachine.Action Storage Engine

/-! ### Instructions that complete -/

/-- An instruction that completes fits on its stack, unless it discards nothing from below the
top. -/
theorem execute_fits (caller : Caller) (frame : Frame) (offset next : Nat)
    {instruction : Instruction} {stack : OperandStack} (hdepth : stack.depth ≤ stack.limit)
    (hsmall : stack.depth < 0x8000000000000000) :
    Yields (fun _ ↦ instruction = .discardN 0 true ∨ instruction.FitsOn stack)
      (execute caller frame offset next stack instruction) := by
  have hshrinks {outcome : StepOutcome} (hreach : instruction.reach ≤ stack.depth)
      (heffect : instruction.effect ≤ 0) :
      Yields (fun _ ↦ instruction = .discardN 0 true ∨ instruction.FitsOn stack)
        (Pure.pure outcome : Engine StepOutcome) :=
    .pure (.inr ⟨hreach, by omega⟩)
  have hpushes {rest : OperandStack} {value : Value} (hreach : instruction.reach ≤ stack.depth)
      (hrest : (rest.depth : Int) + 1 = stack.depth + instruction.effect)
      (hsame : rest.limit = stack.limit) :
      Yields (fun _ ↦ instruction = .discardN 0 true ∨ instruction.FitsOn stack)
        (pushAndGo caller rest value next) := by
    refine .checked_bind fun pushed hpush ↦ .pure (.inr ⟨hreach, ?_⟩)
    have hroom := OperandStack.lt_of_push_eq_ok hpush
    omega
  have hpops : (-1 : Int) ≤ 0 := by decide
  cases instruction with
  | stackRef n =>
    exact .checked_bind fun value hpeek ↦ hpushes (OperandStack.lt_of_peek_eq_ok hpeek) rfl rfl
  | dup =>
    exact .checked_bind fun value htop ↦ hpushes (OperandStack.lt_of_peek_eq_ok htop) rfl rfl
  | constant => exact .ofFaulty_bind fun value _ ↦ hpushes (Nat.zero_le _) rfl rfl
  | varRef => exact .ofFaulty_bind fun _ _ ↦ .after fun value ↦ hpushes (Nat.zero_le _) rfl rfl
  | varSet | varBind =>
    refine .ofFaulty_bind fun _ _ ↦ .checked_bind fun popped hpop ↦ .after fun _ ↦ ?_
    exact hshrinks ((OperandStack.pop_eq_ok hpop).1 ▸ Nat.le_add_left 1 _) hpops
  | pushHandler =>
    refine .checked_bind fun popped hpop ↦ .after fun _ ↦ ?_
    exact hshrinks ((OperandStack.pop_eq_ok hpop).1 ▸ Nat.le_add_left 1 _) hpops
  | call count =>
    refine .checked_bind fun popped hpop ↦ .after fun result ↦ ?_
    obtain ⟨hrest, hsame⟩ := OperandStack.popSlice_eq_ok hpop
    have hcount : Instruction.signed count = count := Instruction.signed_of_lt (by omega)
    refine hpushes (hrest ▸ Nat.le_add_left _ _) ?_ hsame
    rw [Instruction.effect, hcount]
    omega
  | unbind | unbindAll | popHandler =>
    exact .after fun _ ↦ hshrinks (Nat.zero_le _) (Int.le_refl 0)
  | branch kind form target =>
    refine .ite (.signal _) (.checked_bind fun tested htest ↦ ?_)
    have hreach : (Instruction.branch kind form target).reach ≤ stack.depth := by
      rw [Instruction.reach]
      split_ifs with hkind
      · exact BranchKind.pos_of_test htest hkind
      · exact Nat.zero_le _
    have heffect : (Instruction.branch kind form target).effect ≤ 0 := by
      rw [Instruction.effect]
      split_ifs <;> decide
    exact .ite (.after fun _ ↦ hshrinks hreach heffect) (hshrinks hreach heffect)
  | ret | discard =>
    refine .checked_bind fun popped hpop ↦ ?_
    exact hshrinks ((OperandStack.pop_eq_ok hpop).1 ▸ Nat.le_add_left 1 _) (by decide)
  | discardN count preserveTop =>
    refine .checked_bind fun rest hdiscard ↦ ?_
    have heffect (hcount : count ≤ stack.depth) :
        (Instruction.discardN count preserveTop).effect ≤ 0 := by
      rw [Instruction.effect, Instruction.signed_of_lt (by omega)]
      omega
    split_ifs at hdiscard with hunder
    · have hlt := OperandStack.lt_of_discardUnder_eq_ok hdiscard
      refine hshrinks ?_ (heffect (Nat.le_of_lt hlt))
      rw [Instruction.reach]
      split_ifs <;> omega
    · have hrest := (OperandStack.discard_eq_ok hdiscard).1
      have hcount : count ≤ stack.depth := hrest ▸ Nat.le_add_left _ _
      cases preserveTop with
      | false => exact hshrinks hcount (heffect hcount)
      | true =>
        obtain rfl : count = 0 := by simpa using hunder
        exact .pure (.inl rfl)
  | stackSet n =>
    refine .checked_bind fun top _ ↦ .checked_bind fun changed hset ↦
      .checked_bind fun popped hpop ↦ ?_
    exact hshrinks (OperandStack.lt_of_set_eq_ok hset) hpops
  | listN count | concatN count | insertN count =>
    refine .checked_bind fun popped hpop ↦ .after fun result ↦ ?_
    obtain ⟨hrest, hsame⟩ := OperandStack.popSlice_eq_ok hpop
    have hcount : Instruction.signed count = count := Instruction.signed_of_lt (by omega)
    refine hpushes (hrest ▸ Nat.le_add_left _ _) ?_ hsame
    rw [Instruction.effect, hcount]
    omega
  | operation op =>
    refine .checked_bind fun popped hpop ↦ .after fun result ↦ ?_
    obtain ⟨hrest, hsame⟩ := OperandStack.popSlice_eq_ok hpop
    have hreach : op.operands ≤ stack.depth := hrest ▸ Nat.le_add_left _ _
    have heffect : (Instruction.operation op).effect =
        (if op.pushes then 1 else 0) - (op.operands : Int) := rfl
    by_cases hresult : op.pushes = true
    · rw [if_pos hresult] at heffect ⊢
      exact hpushes hreach (by omega) hsame
    · rw [if_neg hresult] at heffect ⊢
      exact hshrinks hreach (by omega)

/-- Where nothing is discarded from below the top, the stack and the machine stay as they are. -/
theorem execute_discardN_zero (caller : Caller) (frame : Frame) (offset next : Nat)
    (stack : OperandStack) (machine : Machine) :
    execute caller frame offset next stack (.discardN 0 true) machine =
      .ok (.running next stack) machine :=
  rfl

/-! ### Instructions that fit -/

/-- An instruction that is not about the handlers of its frame is executed alike in all frames of a
function that have the same mark. -/
theorem execute_with_handlerBase {instruction : Instruction} (hpop : instruction ≠ .popHandler)
    (caller : Caller) (frame : Frame) (base offset next : Nat) (stack : OperandStack) :
    execute caller { frame with handlerBase := base } offset next stack instruction =
      execute caller frame offset next stack instruction := by
  cases instruction with
  | popHandler => exact absurd rfl hpop
  | _ => rfl

/-- Machines whose own handlers are the same, over the same others, are equal under equal
backgrounds. -/
theorem Owned.eq_of_equal {limited : Prop} {resumes : Handler → Prop} {low : HandlerStack}
    {depth : Nat} {left right : Machine}
    (howned : Owned (.equal limited) (Handler.Same resumes) low low depth left right) :
    left = right := by
  obtain ⟨ours, theirs, hown, htogether⟩ := howned
  obtain rfl : ours = theirs := by
    have hsame := hown.imp fun _ _ hsame ↦ hsame.1
    exact List.forall₂_eq_eq_eq ▸ hsame
  exact htogether.eq_of_equal

/-- An instruction that fits on its stack ends under a caller that lets no stack fault of its frame
pass as it does under one that lets everything pass. -/
theorem execute_sparing (steps : Nat) (frame : Frame) (offset next : Nat)
    {instruction : Instruction} {stack : OperandStack} (hfits : instruction.FitsOn stack)
    (machine : Machine) :
    SameEnd (fun outcome outcome' left right ↦ outcome = outcome' ∧ left = right)
      (fun _ left right ↦ left = right)
      (execute (.bounded steps) frame offset next stack instruction machine)
      (execute { Caller.bounded steps with permits := sparesStack } frame offset next stack
        instruction machine) := by
  by_cases hpop : instruction = .popHandler
  · subst hpop
    change SameEnd _ _ (execute (.bounded steps) frame offset next stack .popHandler machine)
      (execute (.bounded steps) frame offset next stack .popHandler machine)
    generalize execute (.bounded steps) frame offset next stack .popHandler machine = run
    cases run with
    | ok outcome after => exact .ok ⟨rfl, rfl⟩
    | error stop after =>
      cases stop with
      | signal reason => exact .signal rfl
      | exhausted => exact .exhausted
  · -- All handlers of the machine count as the frame's own.
    let all : Frame := { frame with handlerBase := 0 }
    have hframed : FramedSame (.equal False) (fun _ ↦ True) [] [] machine.evalDepth
        (execute (.bounded steps) all offset next stack instruction)
        (execute { Caller.bounded steps with permits := sparesStack } all offset next stack
          instruction) :=
      framed_execute .nil (companions_sparesStack steps) rfl (.inl hfits)
        fun _ _ _ _ _ _ _ ↦ trivial
    rw [execute_with_handlerBase hpop _ frame 0, execute_with_handlerBase hpop _ frame 0]
      at hframed
    have hhandlers : machine.handlers ++ [] = machine.handlers := List.append_nil _
    refine Coupled.conseq hframed (fun _ _ hstart ↦ hstart)
      (fun _ _ _ _ hdone ↦ ⟨hdone.1, hdone.2.eq_of_equal⟩)
      (fun _ _ _ howned ↦ howned.eq_of_equal) machine machine ?_
    refine ⟨machine.handlers, machine.handlers, List.forall₂_same.mpr fun _ _ ↦ ⟨rfl, trivial⟩, ?_⟩
    exact ⟨rfl, rfl, rfl, rfl, rfl, rfl, hhandlers.symm, hhandlers.symm, rfl, nofun⟩

/-! ### The facts and the execution -/

/-- An instruction that fits on its stack, as its facts say, raises no stack fault of its own: it
ends as it does under a caller that lets none pass. When it completes, it has come to where the facts
say, with the depth that they say. An instruction that does not fit never completes, apart from the
one that discards nothing from below the top. -/
theorem execute_matches_facts (steps : Nat) (frame : Frame) (offset next : Nat)
    (instruction : Instruction) (stack : OperandStack) (machine : Machine)
    (hdepth : stack.depth ≤ stack.limit) (hsmall : stack.depth < 0x8000000000000000) :
    let run := execute (.bounded steps) frame offset next stack instruction machine
    let spared := execute { Caller.bounded steps with permits := sparesStack } frame offset next
      stack instruction machine
    (instruction.FitsOn stack →
      (∀ outcome after, run = .ok outcome after →
        spared = .ok outcome after ∧ StepOutcome.Lands next stack instruction outcome) ∧
      ∀ reason after, run = .error (.signal reason) after →
        spared = .error (.signal reason) after) ∧
    (¬ instruction.FitsOn stack →
      if instruction = .discardN 0 true then run = .ok (.running next stack) machine
      else ∀ outcome after, run ≠ .ok outcome after) := by
  intro run spared
  constructor
  · intro hfits
    have hreach : instruction.reach < 0x8000000000000000 :=
      Nat.lt_of_le_of_lt hfits.reach_le hsmall
    have hlands := execute_lands (.bounded steps) frame offset next stack
      (Instruction.unsigned_of_reach_lt hreach) machine
    have hend : SameEnd _ _ run spared := execute_sparing steps frame offset next hfits machine
    generalize spared = spared at hend ⊢
    constructor
    · intro outcome after hrun
      refine ⟨?_, hlands outcome after hrun⟩
      rw [hrun] at hend
      cases hend with
      | ok hdone =>
        obtain ⟨rfl, rfl⟩ := hdone
        rfl
    · intro reason after hrun
      rw [hrun] at hend
      cases hend with
      | signal hdone =>
        cases hdone
        rfl
  · intro hmisfit
    split_ifs with hnothing
    · subst hnothing
      exact execute_discardN_zero _ _ _ _ _ _
    · intro outcome after hrun
      have hfits := execute_fits (.bounded steps) frame offset next hdepth hsmall machine outcome
        after hrun
      exact hfits.elim hnothing hmisfit

/-- Making a list of no values needs one slot of room: on a full stack it never completes, and where
there is room the depth is one more afterwards. -/
theorem execute_matches_facts_empty_list :
    let machine : Machine := { heap := .empty 1, settings := {} }
    let subject : Function :=
      { code := #[0xAF, 0], constants := #[], maxDepth := 2, parameters := .dynamic [] }
    let frame : Frame := ⟨subject, 0, 0⟩
    let full : OperandStack := ⟨1, [.t], []⟩
    let roomy : OperandStack := ⟨2, [.t], []⟩
    (∀ outcome after,
      execute (.bounded 0) frame 0 2 full (.listN 0) machine ≠ .ok outcome after) ∧
    (Instruction.listN 0).FitsOn roomy ∧
    ∃ stack after, execute (.bounded 0) frame 0 2 roomy (.listN 0) machine =
      .ok (.running 2 stack) after ∧ StepOutcome.Lands 2 roomy (.listN 0) (.running 2 stack) := by
  intro machine subject frame full roomy
  have hmisfit : ¬ (Instruction.listN 0).FitsOn full := fun hfits ↦ absurd hfits.room (by decide)
  have hfits : (Instruction.listN 0).FitsOn roomy := ⟨by decide, by decide⟩
  have hnever := (execute_matches_facts 0 frame 0 2 (.listN 0) full machine (by decide)
    (by decide)).2 hmisfit
  have hends := (execute_matches_facts 0 frame 0 2 (.listN 0) roomy machine (by decide)
    (by decide)).1 hfits
  exact ⟨hnever, hfits, ⟨2, [.nil, .t], []⟩, machine, rfl, (hends.1 _ _ rfl).2⟩

end LispMachine
