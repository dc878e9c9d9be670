import LispMachine.Proofs.Machine.Boot
import LispMachine.Proofs.Run.Progress

/-!
The turns of an interpreted frame. In a turn the frame fetches an opcode, which is counted, executes
the instruction and, if that stops with a signal, has it dispatched. What comes after the counting
is `turn`, so a turn begins on the machine on which the opcode has been counted (`advance_eq_turn`).
`turns` are the states at which the frame takes its turns, in order.

From one turn to the next the frame remembers the opcode that it fetched, also when a handler has
caught a signal in between, and this is never the byte zero, which starts no instruction
(`fetched?_of_next?`). What holds of the turns one by one, and adds up, holds of the whole frame
(`interpretWithin_of_turns`).
-/

set_option autoImplicit false

namespace LispMachine

open LispMachine.Action Storage Engine

variable {α : Type}

namespace Engine

/-- The instruction at which an activation stands, without its opcode being counted. -/
def readInstruction (caller : Caller) (frame : Frame) (activation : Activation) :
    Engine (Instruction × Nat) := do
  match frame.function.code[activation.offset]? with
  | none => fault (.fellOffEnd frame.function.displayName)
  | some _ =>
    let (instruction, next) ← ofFaulty (frame.function.code.decode activation.offset)
    caller.observe (.interpreting instruction activation.stack)
    return (instruction, next)

/-- What a frame does with the next instruction once its opcode has been counted. -/
def turn (caller : Caller) (frame : Frame) (activation : Activation) : Engine StepOutcome :=
  dispatching caller frame
    (do
      let (instruction, next) ← readInstruction caller frame activation
      execute caller frame activation.offset next activation.stack instruction)
    (resumeAt caller activation.stack)

/-- The opcode that is fetched where a frame stands, if that is inside the code. -/
def fetched? (frame : Frame) (state : FrameState) : Option UInt8 :=
  frame.function.code[state.1.offset]?

/-- The machine on which the opcode that is fetched has been counted. -/
def counted (frame : Frame) (state : FrameState) : Machine :=
  match fetched? frame state with
  | some opcode =>
    { state.2 with meter := state.2.meter.map fun meter => meter.record state.1.lastOpcode opcode }
  | none => state.2

/-- The states at which a frame takes its turns, in at most so many rounds. -/
def turns (caller : Caller) (frame : Frame) : Nat → FrameState → List FrameState
  | 0, _ => []
  | rounds + 1, state =>
    state ::
      match next? caller frame state with
      | some later => turns caller frame rounds later
      | none => []

end Engine

/-! ### A turn and its counting -/

theorem advance_eq_turn (caller : Caller) (frame : Frame) (state : FrameState) :
    advance caller frame state.1 state.2 = turn caller frame state.1 (counted frame state) := by
  have hstep : step caller frame state.1 state.2 =
      (readInstruction caller frame state.1 >>= fun fetched ↦
        execute caller frame state.1.offset fetched.2 state.1.stack fetched.1)
        (counted frame state) := by
    change EStateM.bind (fetch caller frame state.1) _ state.2 = EStateM.bind _ _ _
    unfold fetch readInstruction counted fetched?
    cases frame.function.code[state.1.offset]? <;> rfl
  have hattempt : caller.attempt (step caller frame state.1) state.2 =
      caller.attempt (readInstruction caller frame state.1 >>= fun fetched ↦
        execute caller frame state.1.offset fetched.2 state.1.stack fetched.1)
        (counted frame state) := by
    rw [Caller.attempt_apply, Caller.attempt_apply, hstep]
  change EStateM.bind (caller.attempt _) _ state.2 = EStateM.bind (caller.attempt _) _ _
  unfold EStateM.bind
  rw [hattempt]

/-- A turn is put together from the parts that a frame has, and counts nothing. -/
theorem Stepped.turn {frame : Frame} (activation : Activation) :
    Stepped frame false true .outward fun caller ↦ Engine.turn caller frame activation := by
  have hread : Stepped frame false true .faulting fun caller ↦
      readInstruction caller frame activation := by
    unfold readInstruction
    cases frame.function.code[activation.offset]? with
    | none => exact fault _
    | some opcode =>
      cases frame.function.code.decode activation.offset with
      | error reason => exact fault reason
      | ok decoded =>
        refine bind (pure decoded) fun decoded ↦ ?_
        exact bind (observe (.interpreting decoded.1 activation.stack) rfl) fun _ ↦ pure decoded
  refine dispatching (bind (leaving hread) fun decoded ↦ ?_) (resumeAt activation.stack)
  exact execute _ _ _ fun _ _ _ ↦ rfl

/-! ### From one turn to the next -/

section Runs

variable {caller : Caller} {frame : Frame} {state later : FrameState}

/-- The byte zero starts no instruction. -/
theorem Code.decode_of_zero {code : Code} {offset : Nat} (hzero : code[offset]? = some 0) :
    code.decode offset = .error (.invalidOpcode 0 offset) := by
  rw [decode, hzero]
  rfl

/-- Where the byte zero stands, the frame does not go on. -/
theorem advance_of_zero (hzero : fetched? frame state = some 0) :
    ∃ stop after, advance caller frame state.1 state.2 = .error stop after := by
  unfold fetched? at hzero
  have hfetch : fetch caller frame state.1 state.2 =
      .error (.signal (.fatal (.invalidOpcode 0 state.1.offset)))
        { state.2 with
          meter := state.2.meter.map fun meter ↦ meter.record state.1.lastOpcode 0 } := by
    unfold fetch
    rw [hzero, Code.decode_of_zero hzero]
    rfl
  exact advance_of_fault (bind_of_error hfetch)

/-- A frame that goes on has fetched an opcode, which it remembers, and it was not zero. -/
theorem fetched?_of_next? (hnext : next? caller frame state = some later) :
    ∃ opcode ≠ 0, fetched? frame state = some opcode ∧ later.1.lastOpcode = opcode := by
  obtain ⟨offset, stack, after, hadvance, rfl⟩ := next?_eq_some hnext
  cases hopcode : fetched? frame state with
  | none =>
    obtain ⟨stop, stopped, hstop⟩ :=
      advance_of_size_le (Array.getElem?_eq_none_iff.mp hopcode)
    rw [hstop] at hadvance
    cases hadvance
  | some opcode =>
    refine ⟨opcode, ?_, rfl, ?_⟩
    · rintro rfl
      obtain ⟨stop, stopped, hstop⟩ := advance_of_zero hopcode
      rw [hstop] at hadvance
      cases hadvance
    · change frame.function.code.getD state.1.offset 0 = opcode
      rw [Array.getD_eq_getD_getElem?, show frame.function.code[state.1.offset]? = some opcode from
        hopcode]
      rfl

/-- Where the machine is after a frame: after its last turn, or where its rounds are used up. -/
theorem machineAfter_interpretWithin_succ (rounds : Nat) :
    machineAfter (interpretWithin caller frame (rounds + 1) state.1 state.2) =
      match next? caller frame state with
      | some later => machineAfter (interpretWithin caller frame rounds later.1 later.2)
      | none => machineAfter (turn caller frame state.1 (counted frame state)) := by
  rw [← advance_eq_turn, interpretWithin]
  unfold next?
  cases hadvance : advance caller frame state.1 state.2 with
  | error stop after => rw [bind_of_error hadvance]; rfl
  | ok outcome after =>
    rw [bind_of_ok hadvance]
    cases outcome <;> rfl

/-- The next turn begins on the machine on which this one ended. -/
theorem machineAfter_turn (hnext : next? caller frame state = some later) :
    machineAfter (turn caller frame state.1 (counted frame state)) = later.2 := by
  obtain ⟨offset, stack, after, hadvance, rfl⟩ := next?_eq_some hnext
  rw [← advance_eq_turn, hadvance]
  rfl

/-- What holds of every turn of a frame, and adds up over turns, holds of the frame as a whole. -/
theorem interpretWithin_of_turns (holds : Machine → List FrameState → Machine → Prop)
    (hnone : ∀ machine, holds machine [] machine)
    (hadd : ∀ {before between after : Machine} {states others : List FrameState},
      holds before states between → holds between others after →
        holds before (states ++ others) after)
    (rounds : Nat) (start : FrameState)
    (hturn : ∀ state ∈ turns caller frame rounds start,
      holds state.2 [state] (machineAfter (turn caller frame state.1 (counted frame state)))) :
    holds start.2 (turns caller frame rounds start)
      (machineAfter (interpretWithin caller frame rounds start.1 start.2)) := by
  induction rounds generalizing start with
  | zero => exact hnone start.2
  | succ rounds ih =>
    rw [machineAfter_interpretWithin_succ]
    rw [turns] at hturn ⊢
    have hfirst := hturn start List.mem_cons_self
    cases hnext : next? caller frame start with
    | none => exact hfirst
    | some later =>
      rw [machineAfter_turn hnext] at hfirst
      rw [hnext] at hturn
      exact hadd hfirst (ih later fun state hmem ↦ hturn state (List.mem_cons_of_mem _ hmem))

end Runs

end LispMachine
