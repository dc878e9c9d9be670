import LispMachine.Proofs.Instruction.Canonical
import LispMachine.Proofs.Run.Faults
import LispMachine.Proofs.Run.Leads
import LispMachine.Proofs.Store.Applied

/-!
How long an interpreted frame can go without a checkpoint. An instruction that does not end the run
of its frame goes on to the instruction behind it, or takes a branch, which passes a checkpoint, or
stops with a signal that one of the frame's handlers catches, and then control is where the handler
resumes (`advance_goes`). Nothing is executed behind the end of the code. So as long as control only
moves forward, the frame comes to the end of the code in as many instructions as there are bytes:
`interpret_meets_checkpoint` says that within this many instructions the run ends, takes a branch or
resumes at a handler that is not ahead.

Resuming passes no checkpoint. `loops_without_checkpoint` is a frame that goes back through its
handler for ever, with a request to quit that is never noticed.
-/

set_option autoImplicit false

namespace LispMachine

open LispMachine.Action Storage Engine

variable {α β : Type}

/-! ### What an instruction can do -/

/-- Where an interpreted frame stands, and on which machine. -/
abbrev FrameState := Activation × Machine

/-- The instruction at which the frame stands is a branch to `target` that is taken, and the machine
passes a checkpoint. -/
def PassesCheckpoint (frame : Frame) (state : FrameState) (target : Nat) : Prop :=
  ∃ opcode kind form next stack after,
    frame.function.code[state.1.offset]? = some opcode ∧
    frame.function.code.decode state.1.offset = .ok (.branch kind form target, next) ∧
    kind.test state.1.stack = .ok (true, stack) ∧
    (do countOpcode state.1.lastOpcode opcode; checkpoint (target ≤ state.1.offset) : Engine Unit)
      state.2 = .ok () after

/-- The instruction at which the frame stands stops with a signal, and a handler of the frame that
resumes at `target` catches it. -/
def ResumesAt (caller : Caller) (frame : Frame) (state : FrameState) (target : Nat) : Prop :=
  ∃ reason between handler payload after,
    step caller frame state.1 state.2 = .error (.signal reason) between ∧
    dispatch caller frame.handlerBase reason between = .ok (.resume handler payload) after ∧
    handler.resume = .offset target

/-- Control goes on at an offset, unless the function returns. -/
def StepOutcome.GoesTo (target : Nat) : StepOutcome → Prop
  | .running offset _ => offset = target
  | .returned _ => True

section Step

variable {caller : Caller} {frame : Frame} {activation : Activation} {machine : Machine}

theorem fetch_eq_ok {instruction : Instruction} {next : Nat} {between : Machine}
    (hfetch : fetch caller frame activation machine = .ok (instruction, next) between) :
    ∃ opcode, frame.function.code[activation.offset]? = some opcode ∧
      frame.function.code.decode activation.offset = .ok (instruction, next) ∧
      countOpcode activation.lastOpcode opcode machine = .ok () between := by
  unfold fetch at hfetch
  cases hopcode : frame.function.code[activation.offset]? with
  | none =>
    rw [hopcode] at hfetch
    cases hfetch
  | some opcode =>
    rw [hopcode] at hfetch
    obtain ⟨_, counted, hcount, hdecoded⟩ := bind_eq_ok hfetch
    obtain ⟨decoded, same, hdecode, hobserved⟩ := bind_eq_ok hdecoded
    obtain ⟨_, last, hobserve, hreturn⟩ := bind_eq_ok hobserved
    cases hreturn
    cases hresult : frame.function.code.decode activation.offset with
    | error reason =>
      rw [hresult] at hdecode
      cases hdecode
    | ok parts =>
      rw [hresult] at hdecode
      cases hdecode
      unfold Caller.observe at hobserve
      split_ifs at hobserve
      cases hobserve
      exact ⟨opcode, rfl, rfl, hcount⟩

theorem pushAndGo_goesTo (stack : OperandStack) (value : Value) (next : Nat) :
    Yields (StepOutcome.GoesTo next) (pushAndGo caller stack value next) :=
  .checked_bind fun _ _ ↦ .pure rfl

/-- Control falls through every instruction that is no branch. -/
theorem execute_goesTo {instruction : Instruction} (offset next : Nat) (stack : OperandStack)
    (hbranch : ∀ kind form target, instruction ≠ .branch kind form target) :
    Yields (StepOutcome.GoesTo next) (execute caller frame offset next stack instruction) := by
  have hgoes (rest : OperandStack) : Yields (StepOutcome.GoesTo next)
      (Pure.pure (.running next rest) : Engine StepOutcome) := .pure rfl
  cases instruction with
  | branch kind form target => exact absurd rfl (hbranch kind form target)
  | stackRef | dup => exact .checked_bind fun _ _ ↦ pushAndGo_goesTo _ _ _
  | constant => exact .ofFaulty_bind fun _ _ ↦ pushAndGo_goesTo _ _ _
  | varRef => exact .ofFaulty_bind fun _ _ ↦ .after fun _ ↦ pushAndGo_goesTo _ _ _
  | varSet | varBind =>
    exact .ofFaulty_bind fun _ _ ↦ .checked_bind fun _ _ ↦ .after fun _ ↦ hgoes _
  | call => exact .checked_bind fun _ _ ↦ .after fun _ ↦ pushAndGo_goesTo _ _ _
  | unbind | unbindAll | popHandler => exact .after fun _ ↦ hgoes _
  | pushHandler => exact .checked_bind fun _ _ ↦ .after fun _ ↦ hgoes _
  | ret => exact .checked_bind fun _ _ ↦ .pure trivial
  | discard => exact .checked_bind fun _ _ ↦ hgoes _
  | discardN => exact .checked_bind fun _ _ ↦ hgoes _
  | stackSet =>
    exact .checked_bind fun _ _ ↦ .checked_bind fun _ _ ↦ .checked_bind fun _ _ ↦ hgoes _
  | listN | concatN | insertN =>
    exact .checked_bind fun _ _ ↦ .after fun _ ↦ pushAndGo_goesTo _ _ _
  | operation op =>
    exact .checked_bind fun _ _ ↦ .after fun _ ↦ .ite (pushAndGo_goesTo _ _ _) (hgoes _)

/-- A branch is passed by, or it is taken and the machine passes a checkpoint. -/
theorem branch_eq_running {offset next target goal : Nat} {stack rest : OperandStack}
    {kind : BranchKind} {after : Machine}
    (hbranch : branch caller frame offset next stack kind target machine =
      .ok (.running goal rest) after) :
    goal = next ∨ goal = target ∧ kind.test stack = .ok (true, rest) ∧
      checkpoint (target ≤ offset) machine = .ok () after := by
  unfold branch at hbranch
  split_ifs at hbranch with hrange
  · cases hbranch
  · obtain ⟨⟨taken, tested⟩, between, htest, hgoes⟩ := bind_eq_ok hbranch
    cases hresult : kind.test stack with
    | error reason =>
      rw [hresult] at htest
      obtain ⟨-, _, -, hfault⟩ := bind_eq_ok htest
      cases hfault
    | ok result =>
      rw [hresult] at htest
      cases htest
      cases taken with
      | false =>
        cases hgoes
        exact .inl rfl
      | true =>
        obtain ⟨_, _, hcheck, hreturn⟩ := bind_eq_ok hgoes
        cases hreturn
        exact .inr ⟨rfl, rfl, hcheck⟩

/-- A step that leaves the frame running moves control forward, or takes a branch. -/
theorem step_goes {target : Nat} {stack : OperandStack} {after : Machine}
    (hstep : step caller frame activation machine = .ok (.running target stack) after) :
    activation.offset < target ∨ PassesCheckpoint frame (activation, machine) target := by
  obtain ⟨⟨instruction, next⟩, between, hfetch, hexecute⟩ := bind_eq_ok hstep
  obtain ⟨opcode, hopcode, hdecode, hcount⟩ := fetch_eq_ok hfetch
  have hforward : activation.offset < next := (Code.decode_sound hdecode).lt_next
  by_cases hbranch : ∃ kind form goal, instruction = .branch kind form goal
  · obtain ⟨kind, form, goal, rfl⟩ := hbranch
    rcases branch_eq_running hexecute with rfl | ⟨rfl, htest, hcheck⟩
    · exact .inl hforward
    · refine .inr ⟨opcode, kind, form, next, stack, after, hopcode, hdecode, htest, ?_⟩
      exact (bind_of_ok hcount).trans hcheck
  · have hgoes := execute_goesTo activation.offset next activation.stack
      (fun kind form goal heq ↦ hbranch ⟨kind, form, goal, heq⟩) between _ after hexecute
    obtain rfl : target = next := hgoes
    exact .inl hforward

/-- Execution goes on where the handler says. -/
theorem resumeAt_yields (stack : OperandStack) (handler : Handler) (payload : Value) :
    Yields (fun outcome ↦ ∃ target rest, outcome = .running target rest ∧
      handler.resume = .offset target) (resumeAt caller stack handler payload) := by
  unfold resumeAt
  cases handler.resume with
  | offset target => exact .checked_bind fun _ _ ↦ .checked_bind fun _ _ ↦ .pure ⟨_, _, rfl, rfl⟩
  | native site => exact .signal _
  | host => exact .signal _

/-- A step whose signals are dispatched gives a result by itself, or stops with a signal for which
there is a handler, and goes on there. -/
theorem dispatching_eq_ok {take : Engine α} {resume : Handler → Value → Engine α} {outcome : α}
    {after : Machine} (hrun : dispatching caller frame take resume machine = .ok outcome after) :
    take machine = .ok outcome after ∨ ∃ reason between handler payload dispatched,
      take machine = .error (.signal reason) between ∧
      dispatch caller frame.handlerBase reason between =
        .ok (.resume handler payload) dispatched ∧
      resume handler payload dispatched = .ok outcome after := by
  obtain ⟨attempted, between, hattempt, hrest⟩ := bind_eq_ok hrun
  rw [Caller.attempt_apply] at hattempt
  cases htake : take machine with
  | ok result machine' =>
    rw [htake] at hattempt
    cases hattempt
    cases hrest
    exact .inl rfl
  | error stop machine' =>
    rw [htake] at hattempt
    cases stop with
    | exhausted => cases hattempt
    | signal reason =>
      dsimp only at hattempt
      split_ifs at hattempt
      cases hattempt
      obtain ⟨disposition, dispatched, hdispatch, hresume⟩ := bind_eq_ok hrest
      cases disposition with
      | propagate reason => cases hresume
      | resume handler payload =>
        exact .inr ⟨reason, between, handler, payload, dispatched, rfl, hdispatch, hresume⟩

/-- An instruction that leaves its frame running moves control forward, or takes a branch and passes
a checkpoint, or is resumed at a handler of the frame. -/
theorem advance_goes {target : Nat} {stack : OperandStack} {after : Machine}
    (hadvance : advance caller frame activation machine = .ok (.running target stack) after) :
    activation.offset < target ∨ PassesCheckpoint frame (activation, machine) target ∨
      ResumesAt caller frame (activation, machine) target := by
  rcases dispatching_eq_ok hadvance with hstep |
    ⟨reason, between, handler, payload, dispatched, hstep, hdispatch, hresume⟩
  · exact (step_goes hstep).imp_right .inl
  · obtain ⟨_, _, hrunning, htarget⟩ := resumeAt_yields _ _ _ _ _ _ hresume
    cases hrunning
    exact .inr (.inr ⟨reason, between, handler, payload, dispatched, hstep, hdispatch, htarget⟩)

/-- A fault goes to no handler, so the frame does not go on after it. -/
theorem advance_of_fault {reason : Fault} {between : Machine}
    (hstep : step caller frame activation machine = .error (.signal (.fatal reason)) between) :
    ∃ stop after, advance caller frame activation machine = .error stop after := by
  have hdispatch : dispatch caller frame.handlerBase (.fatal reason) between =
      .ok (.propagate (.fatal reason)) between := by
    change dispatchWithin caller _ (between.handlers.length + 1 + caller.rounds) _ between = _
    rw [show between.handlers.length + 1 + caller.rounds =
      between.handlers.length + caller.rounds + 1 by omega, dispatchWithin]
    exact bind_of_ok (findHandler_fatal ..)
  unfold advance dispatching
  by_cases hpermits : caller.permits (.stopping (.fatal reason)) between = true
  · have hattempt : caller.attempt (step caller frame activation) machine =
        .ok (.error (.fatal reason)) between := by
      rw [Caller.attempt_apply, hstep]
      exact if_pos hpermits
    rw [bind_of_ok hattempt]
    exact ⟨_, between, bind_of_ok hdispatch⟩
  · have hattempt : caller.attempt (step caller frame activation) machine =
        .error (.exhausted .rounds) between := by
      rw [Caller.attempt_apply, hstep]
      exact if_neg hpermits
    exact ⟨.exhausted .rounds, between, bind_of_error hattempt⟩

/-- Behind the end of the code no instruction is executed, and no handler is resumed. -/
theorem advance_of_size_le (hoffset : frame.function.code.size ≤ activation.offset) :
    ∃ stop after, advance caller frame activation machine = .error stop after := by
  have hfetch : fetch caller frame activation machine =
      .error (.signal (.fatal (.fellOffEnd frame.function.displayName))) machine := by
    unfold fetch
    rw [Array.getElem?_eq_none hoffset]
    rfl
  exact advance_of_fault (bind_of_error hfetch)

end Step

/-! ### Runs of a frame -/

namespace Engine

/-- Where the frame stands after the next instruction, if it is still running then. -/
def next? (caller : Caller) (frame : Frame) (state : FrameState) : Option FrameState :=
  match advance caller frame state.1 state.2 with
  | .ok (.running offset stack) after =>
    some (⟨offset, stack, frame.function.code.getD state.1.offset 0⟩, after)
  | _ => none

/-- Where the frame stands after so many instructions, if it is still running then. -/
def stateAfter (caller : Caller) (frame : Frame) : Nat → FrameState → Option FrameState
  | 0, state => some state
  | count + 1, state => (next? caller frame state).bind (stateAfter caller frame count)

end Engine

section Runs

variable {caller : Caller} {frame : Frame} {start state : FrameState}

theorem next?_eq_some {later : FrameState} (hnext : next? caller frame state = some later) :
    ∃ offset stack after,
      advance caller frame state.1 state.2 = .ok (.running offset stack) after ∧
      later = (⟨offset, stack, frame.function.code.getD state.1.offset 0⟩, after) := by
  unfold next? at hnext
  split at hnext
  · next offset stack after hadvance =>
    cases hnext
    exact ⟨offset, stack, after, hadvance, rfl⟩
  · cases hnext

theorem stateAfter_add {first second : Nat} :
    stateAfter caller frame (first + second) start =
      (stateAfter caller frame first start).bind (stateAfter caller frame second) := by
  induction first generalizing start with
  | zero => rw [Nat.zero_add]; rfl
  | succ first ih =>
    rw [Nat.succ_add, stateAfter, stateAfter, Option.bind_assoc]
    exact congrArg _ (funext fun later ↦ ih)

theorem stateAfter_succ {count : Nat}
    (hstate : stateAfter caller frame count start = some state) :
    stateAfter caller frame (count + 1) start = next? caller frame state := by
  rw [stateAfter_add, hstate]
  exact Option.bind_fun_some _

/-- The run of a frame goes through the states in order. -/
theorem interpretWithin_add {count : Nat}
    (hstate : stateAfter caller frame count start = some state) (rounds : Nat) :
    interpretWithin caller frame (count + rounds) start.1 start.2 =
      interpretWithin caller frame rounds state.1 state.2 := by
  induction count generalizing start with
  | zero =>
    cases hstate
    rw [Nat.zero_add]
  | succ count ih =>
    obtain ⟨later, hnext, hrest⟩ := Option.bind_eq_some_iff.mp hstate
    obtain ⟨offset, stack, after, hadvance, rfl⟩ := next?_eq_some hnext
    rw [← ih hrest, Nat.succ_add, interpretWithin, bind_of_ok hadvance]

/-- What the frame meets when it stands at a state: the run of the frame, begun at `start` and
`count` instructions long until now, ends with the next instruction, with a value or not; or this
instruction takes a branch and passes a checkpoint; or it resumes at a handler that is not ahead. -/
inductive Meets (caller : Caller) (frame : Frame) (start : FrameState) (count : Nat)
    (state : FrameState) : Prop
  | returns (value : Value) (after : Machine)
      (hends : ∀ rounds, interpretWithin caller frame (count + 1 + rounds) start.1 start.2 =
        .ok value after)
      (hreturns : advance caller frame state.1 state.2 = .ok (.returned value) after)
  | stops (stop : Stop Signal) (after : Machine)
      (hends : ∀ rounds, interpretWithin caller frame (count + 1 + rounds) start.1 start.2 =
        .error stop after)
      (hstops : advance caller frame state.1 state.2 = .error stop after)
  | branches (target : Nat) (hpasses : PassesCheckpoint frame state target)
  | resumes (target : Nat) (hresumes : ResumesAt caller frame state target)
      (hback : target ≤ state.1.offset)

/-- Where nothing is met, the frame goes on, further forward. -/
theorem meets_or_next {count : Nat} (hstate : stateAfter caller frame count start = some state) :
    Meets caller frame start count state ∨
      state.1.offset < frame.function.code.size ∧
        ∃ later, stateAfter caller frame (count + 1) start = some later ∧
          state.1.offset < later.1.offset := by
  have hround (rounds : Nat) :
      interpretWithin caller frame (count + 1 + rounds) start.1 start.2 =
        interpretWithin caller frame (rounds + 1) state.1 state.2 := by
    rw [show count + 1 + rounds = count + (rounds + 1) by omega, interpretWithin_add hstate]
  cases hadvance : advance caller frame state.1 state.2 with
  | error stop after =>
    refine .inl (.stops stop after (fun rounds ↦ ?_) hadvance)
    rw [hround, interpretWithin, bind_of_error hadvance]
  | ok outcome after =>
    cases outcome with
    | returned value =>
      refine .inl (.returns value after (fun rounds ↦ ?_) hadvance)
      rw [hround, interpretWithin, bind_of_ok hadvance]
      rfl
    | running target stack =>
      have hnext : next? caller frame state =
          some (⟨target, stack, frame.function.code.getD state.1.offset 0⟩, after) := by
        unfold next?
        rw [hadvance]
      have hinside : state.1.offset < frame.function.code.size := by
        by_contra houtside
        have hstops : ∃ stop after, advance caller frame state.1 state.2 = .error stop after :=
          advance_of_size_le (Nat.le_of_not_lt houtside)
        simp [hadvance] at hstops
      by_cases hforward : state.1.offset < target
      · have hlater : stateAfter caller frame (count + 1) start =
            some (⟨target, stack, frame.function.code.getD state.1.offset 0⟩, after) :=
          (stateAfter_succ hstate).trans hnext
        exact .inr ⟨hinside, _, hlater, hforward⟩
      · rcases advance_goes hadvance with hless | hpasses | hresumes
        · exact absurd hless hforward
        · exact .inl (.branches target hpasses)
        · exact .inl (.resumes target hresumes (Nat.le_of_not_lt hforward))

/-- A frame that has `left` bytes of code before it meets something in as many instructions. -/
theorem exists_meets {count left : Nat} (hstate : stateAfter caller frame count start = some state)
    (hleft : frame.function.code.size ≤ state.1.offset + left) :
    ∃ later ≤ count + left, count ≤ later ∧ ∃ met, stateAfter caller frame later start = some met ∧
      Meets caller frame start later met := by
  -- Each instruction that meets nothing uses up one byte of what is left.
  induction left generalizing count state with
  | zero =>
    rcases meets_or_next hstate with hmeets | ⟨hinside, -⟩
    · exact ⟨count, Nat.le_refl _, Nat.le_refl _, state, hstate, hmeets⟩
    · omega
  | succ left ih =>
    rcases meets_or_next hstate with hmeets | ⟨-, later, hlater, hforward⟩
    · exact ⟨count, by omega, Nat.le_refl _, state, hstate, hmeets⟩
    · obtain ⟨last, hlast, hafter, met, hmet, hmeets⟩ := ih hlater (by omega)
      exact ⟨last, by omega, by omega, met, hmet, hmeets⟩

end Runs

/-- Within as many instructions as the code has bytes, from any state of an interpreted frame, the
run of the frame returns, stops, takes a branch and passes a checkpoint, or resumes at a handler
that is not ahead. So a run that never ends passes infinitely many checkpoints or resumes infinitely
often at such a handler. -/
theorem interpret_meets_checkpoint (caller : Caller) (frame : Frame) (start : FrameState) :
    (∃ count ≤ frame.function.code.size, ∃ state, stateAfter caller frame count start = some state ∧
      Meets caller frame start count state) ∧
    ((∀ count, (stateAfter caller frame count start).isSome) → ∀ count, ∃ later state,
      count ≤ later ∧ later ≤ count + frame.function.code.size ∧
      stateAfter caller frame later start = some state ∧
      ((∃ target, PassesCheckpoint frame state target) ∨
        ∃ target ≤ state.1.offset, ResumesAt caller frame state target)) := by
  constructor
  · have hstart : stateAfter caller frame 0 start = some start := rfl
    obtain ⟨count, hcount, -, state, hstate, hmeets⟩ :=
      exists_meets hstart (Nat.le_add_left _ start.1.offset)
    exact ⟨count, by omega, state, hstate, hmeets⟩
  · intro hruns count
    obtain ⟨before, hbefore⟩ := Option.isSome_iff_exists.mp (hruns count)
    obtain ⟨later, hlater, hcount, state, hstate, hmeets⟩ :=
      exists_meets hbefore (Nat.le_add_left _ before.1.offset)
    refine ⟨later, state, hcount, hlater, hstate, ?_⟩
    -- A run that goes on for ever neither returns nor stops.
    have hgoes := hruns (later + 1)
    rw [stateAfter_succ hstate] at hgoes
    obtain ⟨next, hnext⟩ := Option.isSome_iff_exists.mp hgoes
    obtain ⟨offset, stack, after, hadvance, -⟩ := next?_eq_some hnext
    cases hmeets with
    | returns value after _ hreturns => simp [hadvance] at hreturns
    | stops stop after _ hstops => simp [hadvance] at hstops
    | branches target hpasses => exact .inl ⟨target, hpasses⟩
    | resumes target hresumes hback => exact .inr ⟨target, hback, hresumes⟩

/-! ### Going back through a handler -/

section Step

variable {caller : Caller} {frame : Frame} {activation : Activation} {machine after : Machine}
  {opcode : UInt8} {instruction : Instruction} {next target : Nat} {stack : OperandStack}

/-- An instruction that the caller permits is executed when its opcode has been counted. -/
theorem step_of_decode (hopcode : frame.function.code[activation.offset]? = some opcode)
    (hdecode : frame.function.code.decode activation.offset = .ok (instruction, next))
    (hpermits : ∀ machine,
      caller.permits (.interpreting instruction activation.stack) machine = true) :
    step caller frame activation machine =
      execute caller frame activation.offset next activation.stack instruction
        { machine with
          meter := machine.meter.map fun meter ↦ meter.record activation.lastOpcode opcode } := by
  have hobserve (counted : Machine) :
      caller.observe (.interpreting instruction activation.stack) counted = .ok () counted :=
    if_pos (hpermits counted)
  have hfetch : fetch caller frame activation machine = .ok (instruction, next) { machine with
      meter := machine.meter.map fun meter ↦ meter.record activation.lastOpcode opcode } := by
    unfold fetch
    rw [hopcode, hdecode]
    exact bind_of_ok (hobserve _)
  exact bind_of_ok hfetch

theorem next?_of_advance
    (hadvance : advance caller frame activation machine = .ok (.running target stack) after) :
    next? caller frame (activation, machine) =
      some (⟨target, stack, frame.function.code.getD activation.offset 0⟩, after) := by
  unfold next?
  rw [hadvance]

theorem advance_of_step
    (hstep : step caller frame activation machine = .ok (.running target stack) after) :
    advance caller frame activation machine = .ok (.running target stack) after := by
  have hattempt : caller.attempt (step caller frame activation) machine =
      .ok (.ok (.running target stack)) after := by
    rw [Caller.attempt_apply, hstep]
  exact bind_of_ok hattempt

/-- A signal that a handler of the frame catches. -/
theorem advance_of_resume {reason : Signal} {between dispatched : Machine} {handler : Handler}
    {payload : Value}
    (hstep : step caller frame activation machine = .error (.signal reason) between)
    (hpermits : caller.permits (.stopping reason) between = true)
    (hdispatch : dispatch caller frame.handlerBase reason between =
      .ok (.resume handler payload) dispatched) :
    advance caller frame activation machine =
      resumeAt caller activation.stack handler payload dispatched := by
  have hattempt : caller.attempt (step caller frame activation) machine =
      .ok (.error reason) between := by
    rw [Caller.attempt_apply, hstep]
    exact if_pos hpermits
  unfold advance dispatching
  rw [bind_of_ok hattempt]
  exact bind_of_ok hdispatch

end Step

/-- Reading a void variable. -/
theorem variableValue_void {index : Nat} {store : Store}
    (hvoid : (store.symbols.get index).cell = .plain none) :
    variableValue (.symbol index) store =
      .error (.signal ⟨Symbols.voidVariable, (store.heap.list [.symbol index]).1⟩)
        { store with heap := (store.heap.list [.symbol index]).2 } := by
  have hplain := SymbolTable.plainValue?_of_plain hvoid
  have hresolve := SymbolTable.resolve?_of_plain hvoid
  rw [variableValue_apply, hplain]
  refine (symbolValue_apply index store).trans ?_
  rw [hresolve]
  dsimp only
  rw [hplain]
  rfl

/-- A handler for all errors receives an error without conditions of its own, where there are no
entries to undo. -/
theorem dispatch_of_t {caller : Caller} {machine : Machine} {index depth mark : Nat} {data : Value}
    {resume : Resume} (hhandlers : machine.handlers = [⟨.t, .conditionCase, depth, mark, resume⟩])
    (hbindings : machine.bindings = [])
    (hproperties : (machine.symbols.get index).properties = [])
    (hpermits : caller.permits (.catching (.error (.symbol index) data) .t) machine = true) :
    dispatch caller 0 (.error (.symbol index) data) machine =
      .ok (.resume ⟨.t, .conditionCase, depth, mark, resume⟩
          (machine.heap.allocate (.cons (.symbol index) data)).1)
        { machine with
          handlers := []
          heap := (machine.heap.allocate (.cons (.symbol index) data)).2 } := by
  have hconditions : errorConditions (.symbol index) machine.toStore =
      .ok [.symbol index] machine.toStore := by
    rw [errorConditions_apply, SymbolTable.property?, hproperties]
    rfl
  have hfind : findHandler 0 (.error (.symbol index) data) machine =
      .ok (some (⟨.t, .conditionCase, depth, mark, resume⟩, [])) machine := by
    have hlifted : (liftM (errorConditions (.symbol index)) : Engine (List Value)) machine =
        .ok [.symbol index] machine := by
      rw [liftM_apply, hconditions]
    refine (bind_of_ok hlifted).trans ?_
    change ((liftM (innermostMatch (.error (.symbol index) data) [.symbol index]
      machine.handlers) : Engine _) >>= _) machine = _
    rw [hhandlers]
    rfl
  have hunwind (first : Option Signal) (other : Machine) (hnone : other.bindings = []) :
      unwindFrom caller mark (caller.rounds + 1) first other = .ok first other := by
    have htake : takeBinding mark other = .ok none other := by
      rw [takeBinding_apply, hnone]
    rw [unwindFrom, bind_of_ok htake]
    rfl
  have hunbind (other : Machine) (hnone : other.bindings = []) :
      unbindTo caller mark other = .ok () other := by
    have hrounds : other.bindings.length + 1 + caller.rounds = caller.rounds + 1 := by
      rw [hnone, List.length_nil]
      omega
    change (unwindFrom caller mark (other.bindings.length + 1 + caller.rounds) none >>= _) other = _
    rw [hrounds, bind_of_ok (hunwind none other hnone)]
    rfl
  have hobserve : caller.observe (.catching (.error (.symbol index) data) .t) machine =
      .ok () machine := if_pos hpermits
  have hattempt : caller.attempt (unbindTo caller mark) { machine with handlers := [] } =
      .ok (.ok ()) { machine with handlers := [] } := by
    rw [Caller.attempt_apply, hunbind { machine with handlers := [] } hbindings]
  have hrounds : machine.handlers.length + 1 + caller.rounds = 1 + caller.rounds + 1 := by
    rw [hhandlers, List.length_singleton]
    omega
  change dispatchWithin caller 0 (machine.handlers.length + 1 + caller.rounds) _ machine = _
  rw [hrounds, dispatchWithin, bind_of_ok hfind]
  exact (bind_of_ok hobserve).trans (bind_of_ok hattempt)

/-- The names `inhibit-quit`, `quit` and `void-variable` have neither a value nor properties at
first. -/
theorem SymbolTable.get_initial {index : Nat} (hindex : index ∈ [13, 16, 19]) :
    (SymbolTable.initial.get index).cell = .plain none ∧
      (SymbolTable.initial.get index).properties = [] := by
  have hall : ∀ index ∈ [13, 16, 19], (SymbolTable.initial.get index).cell = .plain none ∧
      (SymbolTable.initial.get index).properties = [] := by decide +kernel
  exact hall index hindex

/-- Permits everything but branches, calls and applications. -/
def avoidsCheckpoints : Event → Machine → Bool
  | .interpreting (.branch _ _ _) _, _ | .interpreting (.call _) _, _ | .applying _ _, _ => false
  | _, _ => true

/-- A function that goes back through a handler: it drops what was caught, pushes the handler again,
and reads a void variable. -/
def circlingFunction : Function :=
  { code := #[0xC0, 0x88, 0xC1, 0x31, 0x01, 0x00, 0x0A], constants := #[.nil, .t, Symbols.quit],
    maxDepth := 1, parameters := .dynamic [] }

/-- What stays the same while the function circles: no entries are logged, and a request to quit
waits. -/
structure Circling (handlers : HandlerStack) (machine : Machine) : Prop where
  symbols : machine.symbols = .initial
  handlers_eq : machine.handlers = handlers
  bindings : machine.bindings = []
  pending : machine.quitPending = true

theorem Circling.with_meter {handlers : HandlerStack} {machine : Machine}
    (hcircling : Circling handlers machine) (meter : Option Meter) :
    Circling handlers { machine with meter := meter } :=
  ⟨hcircling.symbols, hcircling.handlers_eq, hcircling.bindings, hcircling.pending⟩

theorem Circling.not_inhibits {handlers : HandlerStack} {machine : Machine}
    (hcircling : Circling handlers machine) : machine.inhibitsQuit = false := by
  change (!((machine.symbols.plainValue? 13).getD .nil).isNil) = false
  unfold SymbolTable.plainValue?
  rw [hcircling.symbols, (SymbolTable.get_initial (by decide)).1]
  rfl

/-- The states that the function goes through. -/
inductive Circles : FrameState → Prop
  | start {spent : List Value} {last : UInt8} {machine : Machine}
      (hcircling : Circling [] machine) : Circles (⟨0, ⟨1, [], spent⟩, last⟩, machine)
  | caught {payload : Value} {spent : List Value} {last : UInt8} {machine : Machine}
      (hcircling : Circling [] machine) : Circles (⟨1, ⟨1, [payload], spent⟩, last⟩, machine)
  | dropped {spent : List Value} {last : UInt8} {machine : Machine}
      (hcircling : Circling [] machine) : Circles (⟨2, ⟨1, [], spent⟩, last⟩, machine)
  | tagged {spent : List Value} {last : UInt8} {machine : Machine}
      (hcircling : Circling [] machine) : Circles (⟨3, ⟨1, [.t], spent⟩, last⟩, machine)
  | guarded {spent : List Value} {last : UInt8} {machine : Machine}
      (hcircling : Circling [⟨.t, .conditionCase, 0, 0, .offset 1⟩] machine) :
      Circles (⟨6, ⟨1, [], spent⟩, last⟩, machine)

/-- Each state leads to the next. -/
theorem Circles.next {caller : Caller}
    (hpermits : ∀ event machine, avoidsCheckpoints event machine = true →
      caller.permits event machine = true)
    {state : FrameState} (hcircles : Circles state) :
    ∃ later, next? caller ⟨circlingFunction, 0, 0⟩ state = some later ∧ Circles later := by
  cases hcircles with
  | @start spent last machine hcircling =>
    have hdecode : circlingFunction.code.decode 0 = .ok (.constant 0, 1) := rfl
    have hstep : step caller ⟨circlingFunction, 0, 0⟩ ⟨0, ⟨1, [], spent⟩, last⟩ machine = _ :=
      step_of_decode rfl hdecode fun _ ↦ hpermits _ _ rfl
    exact ⟨_, next?_of_advance (advance_of_step hstep), .caught (hcircling.with_meter _)⟩
  | @caught payload spent last machine hcircling =>
    have hdecode : circlingFunction.code.decode 1 = .ok (.discard, 2) :=
      Code.decode_of_carries trivial (.cons rfl .nil)
    have hstep :
        step caller ⟨circlingFunction, 0, 0⟩ ⟨1, ⟨1, [payload], spent⟩, last⟩ machine = _ :=
      step_of_decode rfl hdecode fun _ ↦ hpermits _ _ rfl
    exact ⟨_, next?_of_advance (advance_of_step hstep), .dropped (hcircling.with_meter _)⟩
  | @dropped spent last machine hcircling =>
    have hdecode : circlingFunction.code.decode 2 = .ok (.constant 1, 3) := rfl
    have hstep : step caller ⟨circlingFunction, 0, 0⟩ ⟨2, ⟨1, [], spent⟩, last⟩ machine = _ :=
      step_of_decode rfl hdecode fun _ ↦ hpermits _ _ rfl
    exact ⟨_, next?_of_advance (advance_of_step hstep), .tagged (hcircling.with_meter _)⟩
  | @tagged spent last machine hcircling =>
    have hdecode : circlingFunction.code.decode 3 = .ok (.pushHandler .conditionCase 1, 6) :=
      Code.decode_of_carries (show 1 ≤ 0xffff by decide) (.cons rfl (.cons rfl (.cons rfl .nil)))
    have hstep : step caller ⟨circlingFunction, 0, 0⟩ ⟨3, ⟨1, [.t], spent⟩, last⟩ machine = _ :=
      step_of_decode rfl hdecode fun _ ↦ hpermits _ _ rfl
    refine ⟨_, next?_of_advance (advance_of_step hstep), .guarded ?_⟩
    refine ⟨hcircling.symbols, ?_, hcircling.bindings, hcircling.pending⟩
    change ⟨.t, .conditionCase, 0, machine.bindings.length, .offset 1⟩ :: machine.handlers = _
    rw [hcircling.bindings, hcircling.handlers_eq]
    rfl
  | @guarded spent last machine hcircling =>
    have hdecode : circlingFunction.code.decode 6 = .ok (.varRef 2, 7) := rfl
    have hstep : step caller ⟨circlingFunction, 0, 0⟩ ⟨6, ⟨1, [], spent⟩, last⟩ machine = _ :=
      step_of_decode rfl hdecode fun _ ↦ hpermits _ _ rfl
    -- The machine as the instruction finds it, and as the error leaves it.
    generalize hcounted :
      ({ machine with meter := machine.meter.map _ } : Machine) = counted at hstep
    have hready : Circling [⟨.t, .conditionCase, 0, 0, .offset 1⟩] counted :=
      hcounted ▸ hcircling.with_meter _
    have hvoid : (counted.symbols.get 16).cell = .plain none := by
      rw [hready.symbols]
      exact (SymbolTable.get_initial (by decide)).1
    have herror : step caller ⟨circlingFunction, 0, 0⟩ ⟨6, ⟨1, [], spent⟩, last⟩ machine =
        .error (.signal (.error Symbols.voidVariable (counted.heap.list [Symbols.quit]).1))
          { counted with heap := (counted.heap.list [Symbols.quit]).2 } := by
      have hread : (liftM (variableValue (.symbol 16)) : Engine Value) counted =
          .error (.signal (.error Symbols.voidVariable (counted.heap.list [Symbols.quit]).1))
            { counted with heap := (counted.heap.list [Symbols.quit]).2 } := by
        rw [liftM_apply, variableValue_void hvoid]
        rfl
      rw [hstep]
      change ((liftM (variableValue (.symbol 16)) : Engine Value) >>= _) counted = _
      exact bind_of_error hread
    have hproperties : (counted.symbols.get 19).properties = [] := by
      rw [hready.symbols]
      exact (SymbolTable.get_initial (by decide)).2
    have hresumes := advance_of_resume herror (hpermits _ _ rfl)
      (dispatch_of_t hready.handlers_eq hready.bindings hproperties (hpermits _ _ rfl))
    exact ⟨_, next?_of_advance hresumes,
      .caught ⟨hready.symbols, rfl, hready.bindings, hready.pending⟩⟩

/-- The function circles for ever. -/
theorem Circles.exists_stateAfter {caller : Caller}
    (hpermits : ∀ event machine, avoidsCheckpoints event machine = true →
      caller.permits event machine = true)
    {start : FrameState} (hstart : Circles start) (count : Nat) :
    ∃ state, stateAfter caller ⟨circlingFunction, 0, 0⟩ count start = some state ∧
      Circles state := by
  induction count with
  | zero => exact ⟨start, rfl, hstart⟩
  | succ count ih =>
    obtain ⟨state, hstate, hcircles⟩ := ih
    obtain ⟨later, hnext, hlater⟩ := hcircles.next hpermits
    exact ⟨later, (stateAfter_succ hstate).trans hnext, hlater⟩

/-- A frame can run for ever, with a request to quit that is not deferred and still waits after any
number of instructions, although the run meets no branch and no call and applies no function. -/
theorem loops_without_checkpoint :
    ∃ (frame : Frame) (start : FrameState), ∀ count, ∃ state,
      stateAfter (.watched avoidsCheckpoints stepBound) frame count start = some state ∧
      state.2.quitPending = true ∧ state.2.inhibitsQuit = false := by
  let machine : Machine :=
    { heap := .empty 1, settings := {}, functions := #[circlingFunction], quitPending := true }
  have hstart : Circles (⟨0, .empty 1, 0⟩, machine) := .start ⟨rfl, rfl, rfl, rfl⟩
  have hpermits : ∀ event machine, avoidsCheckpoints event machine = true →
      (Caller.watched avoidsCheckpoints stepBound).permits event machine = true :=
    fun _ _ hevent ↦ hevent
  refine ⟨⟨circlingFunction, 0, 0⟩, (⟨0, .empty 1, 0⟩, machine), fun count ↦ ?_⟩
  obtain ⟨state, hstate, hcircles⟩ := hstart.exists_stateAfter hpermits count
  refine ⟨state, hstate, ?_⟩
  cases hcircles with
  | start h | caught h | dropped h | tagged h | guarded h => exact ⟨h.pending, h.not_inhibits⟩

end LispMachine
