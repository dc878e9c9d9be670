import LispMachine.Proofs.Instruction.Decoding
import LispMachine.Proofs.OperandStack
import LispMachine.Proofs.Run.Coupled

/-!
Where instructions lead. `Instruction.Leads` says to which offsets control can get from an
instruction, and with which depth of the operand stack: on to the next instruction, to the target of
a branch, or to the target of a handler that catches something later. The interpreter goes nowhere
else (`execute_follows`).

`Yields` says what holds of the result of an action whenever it gives one.
-/

set_option autoImplicit false

namespace LispMachine

open LispMachine.Action Storage Engine

variable {Reason State α β : Type}

/-! ### Results -/

/-- Whenever the action gives a result, the condition holds of it. -/
def Yields (condition : α → Prop) (action : Action Reason State α) : Prop :=
  ∀ state result after, action state = .ok result after → condition result

namespace Yields

variable {condition : α → Prop} {middle : β → Prop}

theorem pure {result : α} (hresult : condition result) :
    Yields condition (Pure.pure result : Action Reason State α) := by
  rintro state _ after hrun
  cases hrun
  exact hresult

theorem signal (reason : Reason) :
    Yields condition (Action.signal reason : Action Reason State α) := by
  intro state result after hrun
  cases hrun

theorem bind {first : Action Reason State β} {next : β → Action Reason State α} (hfirst : Yields middle first)
    (hnext : ∀ result, middle result → Yields condition (next result)) :
    Yields condition (first >>= next) := by
  intro state result after hrun
  change EStateM.bind first next state = _ at hrun
  unfold EStateM.bind at hrun
  cases hmiddle : first state with
  | ok value between =>
    rw [hmiddle] at hrun
    exact hnext value (hfirst state value between hmiddle) between result after hrun
  | error stop between =>
    rw [hmiddle] at hrun
    cases hrun

/-- What is done before does not matter for the result. -/
theorem after {first : Action Reason State β} {next : β → Action Reason State α}
    (hnext : ∀ result, Yields condition (next result)) : Yields condition (first >>= next) := by
  have hfirst : Yields (fun _ ↦ True) first := fun _ _ _ _ ↦ trivial
  exact bind hfirst fun result _ ↦ hnext result

theorem ofFaulty_bind {result : Except Fault β} {next : β → Action Signal State α}
    (hnext : ∀ value, result = .ok value → Yields condition (next value)) :
    Yields condition ((Action.ofFaulty result : Action Signal State β) >>= next) := by
  cases result with
  | ok value => exact hnext value rfl
  | error reason =>
    intro state result after hrun
    cases hrun

theorem checked_bind {caller : Caller} {result : Except Fault β} {next : β → Engine α}
    (hnext : ∀ value, result = .ok value → Yields condition (next value)) :
    Yields condition (caller.checked result >>= next) := by
  cases result with
  | ok value => exact hnext value rfl
  | error reason =>
    have hnever : Yields (fun _ ↦ False) (caller.checked (.error reason : Except Fault β)) :=
      after fun _ ↦ signal _
    exact bind hnever fun _ hfalse ↦ hfalse.elim

theorem ite {test : Prop} [Decidable test] {first second : Action Reason State α}
    (hfirst : Yields condition first) (hsecond : Yields condition second) :
    Yields condition (if test then first else second) := by
  split_ifs
  · exact hfirst
  · exact hsecond

theorem lift {action : Storage α} (haction : Yields condition action) :
    Yields condition (liftM action : Engine α) := by
  intro machine result after hrun
  rw [liftM_apply] at hrun
  cases hstored : action machine.toStore with
  | ok value store =>
    rw [hstored] at hrun
    cases hrun
    exact haction _ _ _ hstored
  | error stop store =>
    rw [hstored] at hrun
    cases hrun

end Yields

/-- What is known of the results of the first of two coupled actions holds where both give one. -/
theorem Coupled.and_yields {before : Machine → Machine → Prop} {first : Engine α}
    {second : Engine β} {ended : α → β → Machine → Machine → Prop}
    {stopped : Signal → Machine → Machine → Prop} {condition : α → Prop}
    (hcoupled : Coupled before first second ended stopped) (hyields : Yields condition first) :
    Coupled before first second
      (fun a b left right ↦ condition a ∧ ended a b left right) stopped := by
  intro left right hstart
  have hend := hcoupled left right hstart
  have hresult := hyields left
  generalize first left = run, second right = run' at hend hresult ⊢
  cases hend with
  | ok hdone => exact .ok ⟨hresult _ _ rfl, hdone⟩
  | signal hdone => exact .signal hdone
  | exhausted => exact .exhausted

/-! ### Where instructions lead -/

/-- Where an instruction that is met with a depth and followed by `next` can lead, and with which
depth. -/
inductive Instruction.Leads (next depth : Nat) : Instruction → Nat → Nat → Prop where
  /-- Control falls through. -/
  | on {instruction : Instruction} {after : Nat} (hfalls : instruction.isTerminator = false)
      (hafter : (after : Int) = depth + instruction.effect) :
      Leads next depth instruction next after
  /-- A branch is taken. -/
  | taken (kind : BranchKind) (form : BranchForm) (target : Nat) :
      Leads next depth (.branch kind form target) target
        (if kind.isConditional && !kind.isElsePop then depth - 1 else depth)
  /-- A handler that is pushed here catches something: that is one value above the depth which the
  handler keeps. -/
  | caught (kind : HandlerKind) (target : Nat) :
      Leads next depth (.pushHandler kind target) target depth

/-- A step of the interpreter goes where the instruction leads, on a stack with the same limit. -/
def StepOutcome.Follows (instruction : Instruction) (next : Nat) (stack : OperandStack) :
    StepOutcome → Prop
  | .running offset after =>
    instruction.Leads next stack.depth offset after.depth ∧ after.limit = stack.limit
  | .returned _ => True

/-- Whether the instruction is a branch that is taken with the given value on top of the stack. -/
def Instruction.isTaken : Instruction → Value → Bool
  | .branch kind _ _, top => kind.isTaken top
  | _, _ => false

/-- Where an instruction that is executed on the stack ends, and with which depth: only a return
ends the function, and a branch goes to its target just when it is taken with the value on top of
the stack. -/
inductive StepOutcome.Lands (next : Nat) (stack : OperandStack) :
    Instruction → StepOutcome → Prop where
  | returned (value : Value) : Lands next stack .ret (.returned value)
  | fallen {instruction : Instruction} {after : OperandStack}
      (hfalls : instruction.isTerminator = false)
      (hpassed : instruction.isTaken (stack.slot 0) = false)
      (hdepth : (after.depth : Int) = stack.depth + instruction.effect)
      (hlimit : after.limit = stack.limit) :
      Lands next stack instruction (.running next after)
  | taken {kind : BranchKind} {form : BranchForm} {target : Nat} {after : OperandStack}
      (htaken : kind.isTaken (stack.slot 0) = true)
      (hdepth : after.depth =
        if kind.isConditional && !kind.isElsePop then stack.depth - 1 else stack.depth)
      (hlimit : after.limit = stack.limit) :
      Lands next stack (.branch kind form target) (.running target after)

/-- An instruction leads to where it ends. -/
theorem StepOutcome.Lands.follows {instruction : Instruction} {next : Nat} {stack : OperandStack}
    {outcome : StepOutcome} (hlands : StepOutcome.Lands next stack instruction outcome) :
    outcome.Follows instruction next stack := by
  cases hlands with
  | returned value => trivial
  | fallen hfalls hpassed hdepth hlimit => exact ⟨.on hfalls hdepth, hlimit⟩
  | @taken kind form target after htaken hdepth hlimit =>
    exact ⟨hdepth ▸ .taken kind form target, hlimit⟩

/-- The operand that counts values on the stack does not stand for a negative number. -/
def Instruction.Unsigned : Instruction → Prop
  | .call n | .listN n | .concatN n | .insertN n | .discardN n _ => signed n = n
  | _ => True

theorem Instruction.signed_of_lt {n : Nat} (hn : n < 0x8000000000000000) :
    Instruction.signed n = n := by
  unfold Instruction.signed
  rw [Int.bmod_eq_of_le] <;> omega

theorem Instruction.unsigned_of_reach_lt {instruction : Instruction}
    (hreach : instruction.reach < 0x8000000000000000) : instruction.Unsigned := by
  cases instruction with
  | call n | listN n | concatN n | insertN n | discardN n =>
    simp only [reach] at hreach
    exact signed_of_lt (by omega)
  | _ => trivial

theorem Instruction.Small.unsigned {instruction : Instruction} (hsmall : instruction.Small) :
    instruction.Unsigned := by
  cases instruction with
  | call n | listN n | concatN n | insertN n | discardN n =>
    have hn : n ≤ 0xffff := hsmall
    exact signed_of_lt (by omega)
  | _ => trivial

theorem pushAndGo_lands {caller : Caller} {instruction : Instruction} {next : Nat}
    {stack rest : OperandStack} (hfalls : instruction.isTerminator = false)
    (hpassed : instruction.isTaken (stack.slot 0) = false)
    (hdepth : (rest.depth : Int) + 1 = stack.depth + instruction.effect)
    (hlimit : rest.limit = stack.limit) (value : Value) :
    Yields (StepOutcome.Lands next stack instruction) (pushAndGo caller rest value next) := by
  refine .checked_bind fun pushed hpush ↦ .pure ?_
  obtain ⟨hpushed, hsame⟩ := OperandStack.push_eq_ok hpush
  have hdepth' : (pushed.depth : Int) = stack.depth + instruction.effect := by omega
  exact .fallen hfalls hpassed hdepth' (hsame.trans hlimit)

/-- An instruction whose operand is not negative ends only where `Lands` says. -/
theorem execute_lands (caller : Caller) (frame : Frame) (offset next : Nat)
    (stack : OperandStack) {instruction : Instruction} (hunsigned : instruction.Unsigned) :
    Yields (StepOutcome.Lands next stack instruction)
      (execute caller frame offset next stack instruction) := by
  have hgoes {rest : OperandStack} (hfalls : instruction.isTerminator = false)
      (hpassed : instruction.isTaken (stack.slot 0) = false)
      (hdepth : (rest.depth : Int) = stack.depth + instruction.effect)
      (hlimit : rest.limit = stack.limit) :
      Yields (StepOutcome.Lands next stack instruction)
        (Pure.pure (.running next rest) : Engine StepOutcome) :=
    .pure (.fallen hfalls hpassed hdepth hlimit)
  cases instruction with
  | stackRef | dup => exact .checked_bind fun value _ ↦ pushAndGo_lands rfl rfl rfl rfl value
  | constant => exact .ofFaulty_bind fun value _ ↦ pushAndGo_lands rfl rfl rfl rfl value
  | varRef =>
    exact .ofFaulty_bind fun _ _ ↦ .after fun value ↦ pushAndGo_lands rfl rfl rfl rfl value
  | varSet | varBind =>
    refine .ofFaulty_bind fun _ _ ↦ .checked_bind fun popped hpop ↦ .after fun _ ↦ ?_
    obtain ⟨hdepth, hlimit⟩ := OperandStack.pop_eq_ok hpop
    exact hgoes rfl rfl (by simp only [Instruction.effect]; omega) hlimit
  | call count =>
    refine .checked_bind fun popped hpop ↦ .after fun result ↦ ?_
    obtain ⟨hdepth, hlimit⟩ := OperandStack.popSlice_eq_ok hpop
    refine pushAndGo_lands rfl rfl ?_ hlimit result
    have hcount : Instruction.signed count = count := hunsigned
    rw [Instruction.effect, hcount]
    omega
  | unbind | unbindAll | popHandler =>
    exact .after fun _ ↦ hgoes rfl rfl (Int.add_zero _).symm rfl
  | pushHandler kind target =>
    refine .checked_bind fun popped hpop ↦ .after fun _ ↦ ?_
    obtain ⟨hdepth, hlimit⟩ := OperandStack.pop_eq_ok hpop
    exact hgoes rfl rfl (by simp only [Instruction.effect]; omega) hlimit
  | branch kind form target =>
    refine .ite (.signal _) (.checked_bind fun tested htest ↦ ?_)
    obtain ⟨taken, rest⟩ := tested
    obtain ⟨hlimit, htaken, hpassed⟩ := BranchKind.test_eq_ok htest
    have hdecided := BranchKind.isTaken_of_test htest
    cases taken with
    | true => exact .after fun _ ↦ .pure (.taken hdecided (htaken rfl) hlimit)
    | false =>
      obtain ⟨hkind, hdepth⟩ := hpassed rfl
      refine hgoes ?_ hdecided ?_ hlimit
      · cases kind with
        | goto => cases hkind
        | _ => rfl
      · rw [Instruction.effect, if_pos hkind]
        omega
  | ret => exact .checked_bind fun popped _ ↦ .pure (.returned popped.1)
  | discard =>
    refine .checked_bind fun popped hpop ↦ ?_
    obtain ⟨hdepth, hlimit⟩ := OperandStack.pop_eq_ok hpop
    exact hgoes rfl rfl (by simp only [Instruction.effect]; omega) hlimit
  | discardN count preserveTop =>
    refine .checked_bind fun rest hdiscard ↦ ?_
    have hrest : rest.depth + count = stack.depth ∧ rest.limit = stack.limit := by
      split_ifs at hdiscard
      · exact OperandStack.discardUnder_eq_ok hdiscard
      · exact OperandStack.discard_eq_ok hdiscard
    refine hgoes rfl rfl ?_ hrest.2
    have hcount : Instruction.signed count = count := hunsigned
    rw [Instruction.effect, hcount]
    omega
  | stackSet n =>
    refine .checked_bind fun top _ ↦ .checked_bind fun changed hset ↦
      .checked_bind fun popped hpop ↦ ?_
    obtain ⟨hchanged, hlimit⟩ := OperandStack.set_eq_ok hset
    obtain ⟨hdepth, hsame⟩ := OperandStack.pop_eq_ok hpop
    exact hgoes rfl rfl (by simp only [Instruction.effect]; omega) (hsame.trans hlimit)
  | listN count | concatN count | insertN count =>
    refine .checked_bind fun popped hpop ↦ .after fun result ↦ ?_
    obtain ⟨hdepth, hlimit⟩ := OperandStack.popSlice_eq_ok hpop
    refine pushAndGo_lands rfl rfl ?_ hlimit result
    have hcount : Instruction.signed count = count := hunsigned
    rw [Instruction.effect, hcount]
    omega
  | operation op =>
    refine .checked_bind fun popped hpop ↦ .after fun result ↦ ?_
    obtain ⟨hdepth, hlimit⟩ := OperandStack.popSlice_eq_ok hpop
    have heffect : (Instruction.operation op).effect =
        (if op.pushes then 1 else 0) - (op.operands : Int) := rfl
    split_ifs with hpushes
    · refine pushAndGo_lands rfl rfl ?_ hlimit result
      rw [heffect, if_pos hpushes]
      omega
    · refine hgoes rfl rfl ?_ hlimit
      rw [heffect, if_neg hpushes]
      omega

/-- The interpreter goes nowhere but where instructions lead. -/
theorem execute_follows (caller : Caller) (frame : Frame) (offset next : Nat)
    (stack : OperandStack) {instruction : Instruction} (hsmall : instruction.Small) :
    Yields (StepOutcome.Follows instruction next stack)
      (execute caller frame offset next stack instruction) :=
  fun machine outcome after hrun ↦
    (execute_lands caller frame offset next stack hsmall.unsigned machine outcome after hrun).follows

/-! ### Instructions that fit -/

/-- The stack has the slots that the instruction reaches and room for what it pushes. -/
structure Instruction.FitsOn (instruction : Instruction) (stack : OperandStack) : Prop where
  reach_le : instruction.reach ≤ stack.depth
  room : stack.depth + instruction.effect.toNat ≤ stack.limit

theorem Instruction.room_of_gathering {count room limit : Nat}
    (hroom : room + (1 - Instruction.signed count).toNat ≤ limit) :
    room + (if count = 0 then 1 else 0) ≤ limit := by
  split_ifs with hcount
  · subst hcount
    exact hroom
  · exact Nat.le_trans (Nat.le_add_right _ _) hroom

theorem Instruction.room_of_operation {op : Operation} (hpushes : op.pushes = true)
    {room limit : Nat} (hroom : room + op.effect.toNat ≤ limit) :
    room + (if op.operands = 0 then 1 else 0) ≤ limit := by
  rw [Operation.effect, if_pos hpushes] at hroom
  split_ifs <;> omega

/-! ### Stacks that bodies start with -/

/-- Values for which there is room are pushed whoever is the caller. -/
theorem pushAll_of_room {stack : OperandStack} {values : List Value}
    (hroom : stack.depth + values.length ≤ stack.limit) :
    ∃ pushed : OperandStack, pushed.values = stack.values ++ values ∧
      pushed.limit = stack.limit ∧ ∀ caller, pushAll caller stack values = Pure.pure pushed := by
  induction values generalizing stack with
  | nil => exact ⟨stack, (List.append_nil _).symm, rfl, fun _ ↦ rfl⟩
  | cons value values ih =>
    rw [List.length_cons] at hroom
    have hextended : (stack.extend value).values = stack.values ++ [value] := List.reverse_cons
    have hmore : (stack.extend value).depth + values.length ≤ (stack.extend value).limit := by
      change stack.depth + 1 + values.length ≤ stack.limit
      omega
    obtain ⟨pushed, hpushed, hlimit, hrun⟩ := ih hmore
    refine ⟨pushed, ?_, hlimit, fun caller ↦ ?_⟩
    · rw [hpushed, hextended, List.append_assoc, List.singleton_append]
    · rw [pushAll, OperandStack.push_of_lt (by omega)]
      exact hrun caller

theorem templateSlots_yields (template : Template) (arguments : List Value) :
    Yields (fun slots ↦ slots.length = template.entryDepth) (templateSlots template arguments) := by
  have hfilled : (arguments.take template.positional ++ List.replicate (template.positional -
      (arguments.take template.positional).length) Value.nil).length = template.positional := by
    simp only [List.length_append, List.length_replicate, List.length_take]
    omega
  unfold templateSlots Template.entryDepth
  dsimp only
  by_cases hrest : template.rest = true
  · rw [if_pos hrest, if_pos hrest]
    refine .after fun rest ↦ .pure ?_
    rw [List.length_append, hfilled, List.length_singleton]
  · rw [if_neg hrest, if_neg hrest]
    exact .pure hfilled

/-- The body of a function starts with a stack that the arguments fill as declared. -/
theorem receiveArguments_yields (caller : Caller) (subject : Function) (arguments : List Value) :
    Yields (fun stack ↦ stack.depth = subject.entryDepth ∧ stack.limit = subject.stackLimit)
      (receiveArguments caller subject.parameters arguments (.empty subject.stackLimit)) := by
  have hroom := subject.entryDepth_le_stackLimit
  unfold Function.entryDepth at *
  generalize subject.stackLimit = limit, subject.parameters = parameters at *
  cases parameters with
  | template template =>
    unfold receiveArguments
    refine .ite (.bind (.lift (templateSlots_yields template arguments)) fun slots hslots ↦ ?_) ?_
    · have hempty : (OperandStack.empty limit).depth + slots.length = template.entryDepth :=
        (Nat.zero_add _).trans hslots
      obtain ⟨pushed, hvalues, hlimit, hrun⟩ :=
        pushAll_of_room (Nat.le_trans (Nat.le_of_eq hempty) hroom)
      rw [hrun]
      refine .pure ⟨?_, hlimit⟩
      rw [← OperandStack.length_values, hvalues]
      exact hslots
    · exact .lift (.after fun _ ↦ .after fun _ ↦ .signal _)
  | dynamic symbols =>
    refine .ite (.lift (.after fun _ ↦ .after fun _ ↦ .signal _)) ?_
    exact .after fun _ ↦ .after fun _ ↦ .pure ⟨rfl, rfl⟩

end LispMachine
