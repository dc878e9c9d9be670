import LispMachine.Proofs.Run.Ownership
import LispMachine.Proofs.Run.Room

/-!
Resuming at handlers. When a handler receives a signal, execution goes on where the handler says,
and that could fail in two ways: the handler may be for another kind of frame, or there may be no
room on the operand stack for what was caught. Neither happens. A frame pushes handlers of its own
kind only, and each takes its tag from the stack first, so the depth that it keeps is less than what
the stack can hold. Since the handlers that a signal is offered to were all pushed by the frame
itself, the one that receives it is good to resume at (`resuming_never_fails`).

An interpreted frame goes through the states that `stateAfter` gives (`interpretWithin_add`), and a
native frame through those that `nativeStateAfter` gives, one for each piece of code that it is done
with. Of native code it is needed that it is guarded: code that overfills its stack can push a
handler at a depth above which there is no room.
-/

set_option autoImplicit false

namespace LispMachine

open LispMachine.Action Storage Engine

variable {caller : Caller} {frame : Frame} {low : HandlerStack}

/-! ### Interpreted frames -/

/-- The instruction at which the frame stands pushes the handler. -/
def PushesHandler (frame : Frame) (state : FrameState) (handler : Handler) : Prop :=
  ∃ kind target next tag rest,
    frame.function.code.decode state.1.offset = .ok (.pushHandler kind target, next) ∧
    state.1.stack.pop = .ok (tag, rest) ∧
    handler = ⟨tag, kind, rest.depth, state.2.bindings.length, .offset target⟩

theorem PushesHandler.depth_lt {limit : Nat} {state : FrameState} {handler : Handler}
    (hpushes : PushesHandler frame state handler) (hstack : state.1.stack.Within limit) :
    handler.depth < limit := by
  obtain ⟨kind, target, next, tag, rest, -, hpop, rfl⟩ := hpushes
  have hdepth := (OperandStack.pop_eq_ok hpop).1
  have hlimit := hstack.depth_le
  dsimp only
  omega

/-- Only popping a handler asks for the handlers that the frame was entered with. -/
theorem execute_of_base {instruction : Instruction} (hpop : instruction ≠ .popHandler) (base : Nat)
    (offset next : Nat) (stack : OperandStack) :
    execute caller { frame with handlerBase := base } offset next stack instruction =
      execute caller frame offset next stack instruction := by
  cases instruction with
  | popHandler => exact absurd rfl hpop
  | _ => rfl

section Obeyed

variable (hobeyed : Law.vacuous.Obeyed caller)

include hobeyed

/-- An instruction keeps the handlers, pushes one or pops one of the frame's own. If it stops, it
has not changed them. -/
theorem endsAs_execute (state : FrameState) {instruction : Instruction} {next : Nat}
    (hdecode : frame.function.code.decode state.1.offset = .ok (instruction, next)) :
    EndsAs
      (fun _ after ↦ HandlerStack.Changes frame.handlerBase (PushesHandler frame state)
        state.2.handlers after.handlers)
      (fun _ after ↦ after.handlers = state.2.handlers)
      (execute caller frame state.1.offset next state.1.stack instruction state.2) := by
  by_cases hpop : instruction = .popHandler
  · subst hpop
    exact endsAs_popOwnHandler frame _ state.2
  by_cases hpush : ∃ kind target, instruction = .pushHandler kind target
  · obtain ⟨kind, target, rfl⟩ := hpush
    refine endsAs_checked_bind (fun popped hpop ↦ ?_) fun _ ↦ rfl
    exact .ok (.pushed _ ⟨kind, target, next, popped.1, popped.2, hdecode, hpop, rfl⟩ rfl)
  · let based : Frame := { frame with handlerBase := state.2.handlers.length }
    have hstepped : Stepped based true false .signalling fun caller ↦
        execute caller based state.1.offset next state.1.stack instruction :=
      .execute _ _ _ fun kind target heq ↦ absurd ⟨kind, target, heq⟩ hpush
    have hkept := hstepped.keeps_handlers hobeyed rfl
    rw [execute_of_base hpop] at hkept
    exact hkept.mono (fun _ _ heq ↦ .kept heq) fun _ _ heq ↦ heq

theorem endsAs_step (state : FrameState) :
    EndsAs
      (fun _ after ↦ HandlerStack.Changes frame.handlerBase (PushesHandler frame state)
        state.2.handlers after.handlers)
      (fun _ after ↦ after.handlers = state.2.handlers)
      (step caller frame state.1 state.2) := by
  cases hfetch : fetch caller frame state.1 state.2 with
  | ok fetched between =>
    obtain ⟨instruction, next⟩ := fetched
    obtain ⟨opcode, -, hdecode, hcount⟩ := fetch_eq_ok hfetch
    cases hcount
    unfold step
    rw [bind_of_ok hfetch]
    let counted : Machine :=
      { state.2 with meter := state.2.meter.map fun meter ↦ meter.record state.1.lastOpcode opcode }
    exact endsAs_execute hobeyed (state.1, counted) hdecode
  | error stop between =>
    have hstepped : Stepped { frame with handlerBase := state.2.handlers.length } true false .signalling
        fun caller ↦ fetch caller frame state.1 :=
      .leaving (.fetch state.1)
    have hkept := hstepped.keeps_handlers hobeyed rfl
    rw [hfetch] at hkept
    unfold step
    rw [bind_of_error hfetch]
    cases hkept with
    | signal heq => exact .signal heq
    | exhausted => exact .exhausted

/-- The next state of the frame has no handlers above `low` but those there were and the one that is
pushed. -/
theorem ownsAbove_next {condition : Handler → Prop} (hbase : frame.handlerBase = low.length)
    {state later : FrameState} (hnext : next? caller frame state = some later)
    (howns : state.2.OwnsAbove low condition) :
    later.2.OwnsAbove low fun handler ↦ condition handler ∨ PushesHandler frame state handler := by
  obtain ⟨offset, stack, after, hadvance, rfl⟩ := next?_eq_some hnext
  refine ownsAbove_of_dispatching hobeyed hbase (hbase ▸ endsAs_step hobeyed state)
    (fun handler payload between ↦ ?_) howns hadvance
  let based : Frame := { frame with handlerBase := between.handlers.length }
  have hstepped : Stepped based true false .signalling fun caller ↦
      resumeAt caller state.1.stack handler payload := .leaving (.resumeAt _ _ _)
  exact hstepped.keeps_handlers hobeyed rfl

end Obeyed

theorem stateAfter_succ_eq_bind {start : FrameState} (count : Nat) :
    stateAfter caller frame (count + 1) start =
      (stateAfter caller frame count start).bind (next? caller frame) := by
  rw [stateAfter_add]
  exact congrArg _ (funext fun state ↦ Option.bind_fun_some _)

theorem stateAfter_within {limit count : Nat} {start state : FrameState}
    (hstack : start.1.stack.Within limit)
    (hstate : stateAfter caller frame count start = some state) : state.1.stack.Within limit := by
  refine holds_of_steps (motive := fun _ state ↦ state.1.stack.Within limit)
    (fun count ↦ stateAfter caller frame count start) stateAfter_succ_eq_bind
    (fun _ hstart ↦ ?_) (fun _ state later _ hnext hwithin ↦ ?_) hstate
  · cases hstart
    exact hstack
  · obtain ⟨offset, stack, after, hadvance, rfl⟩ := next?_eq_some hnext
    exact advance_within hwithin state.2 _ after hadvance

/-- An interpreted frame has pushed the handler in one of its first `count` steps. So it resumes at
an offset, and there is room for what it receives. -/
structure HasPushed (caller : Caller) (frame : Frame) (start : FrameState) (count : Nat)
    (handler : Handler) : Prop where
  pushed : PushedWithin (fun count ↦ stateAfter caller frame count start) (PushesHandler frame)
    count handler
  resume : ∃ target, handler.resume = .offset target
  depth_lt : handler.depth < frame.function.stackLimit

/-- Going on at a handler with an offset succeeds if there is room for what it receives. -/
theorem resumeAt_eq_ok {stack : OperandStack} {handler : Handler} {target : Nat}
    (hresume : handler.resume = .offset target) (hdepth : handler.depth < stack.limit)
    (payload : Value) (machine : Machine) :
    ∃ outcome, resumeAt caller stack handler payload machine = .ok outcome machine := by
  have hroom : (stack.atDepth handler.depth).depth < (stack.atDepth handler.depth).limit := by
    rwa [OperandStack.depth_atDepth, OperandStack.limit_atDepth]
  refine ⟨.running target ((stack.atDepth handler.depth).extend payload), ?_⟩
  unfold resumeAt
  rw [hresume, OperandStack.resetTo_of_le (Nat.le_of_lt hdepth)]
  change pushAndGo caller (stack.atDepth handler.depth) payload target machine = _
  unfold pushAndGo
  rw [OperandStack.push_of_lt hroom]
  rfl

/-- Whenever a step of an interpreted frame stops with a signal, the signal is offered to handlers
that the frame has pushed, and resuming at the one that receives it succeeds. -/
theorem offered_of_stateAfter (hobeyed : Law.vacuous.Obeyed caller)
    (hbase : frame.handlerBase = low.length) {start : FrameState} (hstart : start.2.handlers = low)
    (hstack : start.1.stack.Within frame.function.stackLimit) {count : Nat} {state : FrameState}
    (hstate : stateAfter caller frame count start = some state) {reason : Signal}
    {between : Machine}
    (hstops : step caller frame state.1 state.2 = .error (.signal reason) between) :
    Offered caller low (HasPushed caller frame start count) (resumeAt caller state.1.stack) reason
      between := by
  have howns : state.2.OwnsAbove low (HasPushed caller frame start count) := by
    refine (ownsAbove_pushedWithin (fun count ↦ stateAfter caller frame count start)
      stateAfter_succ_eq_bind (fun _ hzero ↦ ?_)
      (fun hnext howns ↦ ownsAbove_next hobeyed hbase hnext howns) hstate).mono
        fun handler hpushed ↦ ?_
    · cases hzero
      exact hstart
    · obtain ⟨earlier, hless, past, hpast, hpushes⟩ := hpushed
      refine ⟨⟨earlier, hless, past, hpast, hpushes⟩, ?_,
        hpushes.depth_lt (stateAfter_within hstack hpast)⟩
      obtain ⟨kind, target, next, tag, rest, -, -, rfl⟩ := hpushes
      exact ⟨target, rfl⟩
  refine offered_of_stops hobeyed (endsAs_step hobeyed state) hstops howns
    fun handler payload after hown ↦ ?_
  obtain ⟨target, htarget⟩ := hown.resume
  have hroom : handler.depth < state.1.stack.limit :=
    (stateAfter_within hstack hstate).limit_eq ▸ hown.depth_lt
  obtain ⟨outcome, hresume⟩ := resumeAt_eq_ok htarget hroom payload after
  exact ⟨outcome, after, hresume⟩

/-! ### Native frames -/

/-- Where a native frame stands, at a place and with an operand stack, and on which machine. -/
abbrev NativeState := (Nat × OperandStack) × Machine

namespace Engine

/-- Where the frame stands after the next piece of its code, if it is still running then. -/
def nextNative? (caller : Caller) (frame : Frame) (code : NativeCode) (state : NativeState) :
    Option NativeState :=
  match nativeAdvance caller frame code state.1.1 state.1.2 state.2 with
  | .ok (.running place stack) after => some ((place, stack), after)
  | _ => none

/-- Where the frame stands after so many pieces of its code, if it is still running then. -/
def nativeStateAfter (caller : Caller) (frame : Frame) (code : NativeCode) (start : NativeState) :
    Nat → Option NativeState
  | 0 => some start
  | count + 1 =>
    (nativeStateAfter caller frame code start count).bind (nextNative? caller frame code)

end Engine

theorem nextNative?_eq_some {code : NativeCode} {state later : NativeState}
    (hnext : nextNative? caller frame code state = some later) :
    ∃ place stack after,
      nativeAdvance caller frame code state.1.1 state.1.2 state.2 =
        .ok (.running place stack) after ∧
      later = ((place, stack), after) := by
  unfold nextNative? at hnext
  split at hnext
  · next place stack after hadvance =>
    cases hnext
    exact ⟨place, stack, after, hadvance, rfl⟩
  · cases hnext

/-- The code at which the frame stands pushes the handler, whose tag is on the stack. -/
def NativelyPushes (code : NativeCode) (state : NativeState) (handler : Handler) : Prop :=
  ∃ step kind site, code.steps[state.1.1]? = some step ∧ step.operation = .pushHandler kind site ∧
    0 < state.1.2.depth ∧
    handler = ⟨state.1.2.slot 0, kind, (state.1.2.lower 1).depth, state.2.bindings.length,
      .native site⟩

theorem NativelyPushes.depth_lt {code : NativeCode} {limit : Nat} {state : NativeState}
    {handler : Handler} (hpushes : NativelyPushes code state handler)
    (hstack : state.1.2.Within limit) : handler.depth < limit := by
  obtain ⟨_, _, _, -, -, hdepth, rfl⟩ := hpushes
  have hlimit := hstack.depth_le
  dsimp only
  rw [OperandStack.depth_lower]
  omega

theorem NativelyPushes.resume {code : NativeCode} {state : NativeState} {handler : Handler}
    (hpushes : NativelyPushes code state handler) :
    ∃ site < code.sites.size, handler.resume = .native site := by
  obtain ⟨step, kind, site, hstep, hoperation, -, rfl⟩ := hpushes
  exact ⟨site, code.sited step (Array.mem_of_getElem? hstep) kind site hoperation, rfl⟩

/-- Guarded code pushes a handler only if the handler's tag is on the stack. -/
theorem NativeStep.Guarded.depth_pos {subject : Function} {step : NativeStep}
    (hguarded : step.Guarded subject) {kind : HandlerKind} {site : Nat}
    (hpushes : step.operation = .pushHandler kind site) {stack : OperandStack}
    (hneed : ∀ need, step.need = some need → need.check stack = .ok ()) : 0 < stack.depth := by
  rcases hguarded with ⟨fault, htrap⟩ | ⟨instruction, offset, sites, hsome, htranslated⟩
  · rw [htrap] at hpushes
    cases hpushes
  · have hfits := StackNeed.fitsOn_of_check (hneed _ hsome)
    have hscanned : (subject.translateScanned true sites ⟨offset, .ok (instruction, 0)⟩).operation =
        .pushHandler kind site := htranslated.symm.trans hpushes
    have htarget := (Function.handlerTarget?_isSome_of_translateScanned hscanned).2
    cases instruction with
    | pushHandler => exact hfits.reach_le
    | _ => cases htarget

theorem nativeExecute_of_base {operation : NativeOperation} (hpop : operation ≠ .popHandler)
    (base place : Nat) (stack : OperandStack) :
    nativeExecute caller { frame with handlerBase := base } place stack operation =
      nativeExecute caller frame place stack operation := by
  cases operation with
  | popHandler => exact absurd rfl hpop
  | _ => rfl

theorem endsAs_guardStack_bind {α : Type} {stack : OperandStack} {need : Option StackNeed}
    {next : Unit → Engine α} {ended : α → Machine → Prop} {stopped : Signal → Machine → Prop}
    {machine : Machine}
    (hnext : (∀ needed, need = some needed → needed.check stack = .ok ()) →
      EndsAs ended stopped (next () machine))
    (hstopped : ∀ reason, stopped reason machine) :
    EndsAs ended stopped ((guardStack caller stack need >>= next) machine) := by
  cases need with
  | none => exact hnext nofun
  | some need =>
    refine endsAs_checked_bind (fun _ hcheck ↦ hnext ?_) hstopped
    rintro _ ⟨⟩
    exact hcheck

section Obeyed

variable (hobeyed : Law.vacuous.Obeyed caller) {subject : Function}

include hobeyed

theorem endsAs_nativeStep (state : NativeState) :
    EndsAs
      (fun _ after ↦ HandlerStack.Changes frame.handlerBase
        (NativelyPushes (subject.translate true) state) state.2.handlers after.handlers)
      (fun _ after ↦ after.handlers = state.2.handlers)
      (nativeStep caller frame (subject.translate true) state.1.1 state.1.2 state.2) := by
  unfold nativeStep
  cases hstep : (subject.translate true).steps[state.1.1]? with
  | none => exact .signal rfl
  | some step =>
    refine endsAs_observe_bind (endsAs_guardStack_bind (fun hneed ↦ ?_) fun _ ↦ rfl)
    by_cases hpop : step.operation = .popHandler
    · rw [hpop]
      exact endsAs_popOwnHandler frame _ state.2
    by_cases hpush : ∃ kind site, step.operation = .pushHandler kind site
    · obtain ⟨kind, site, hpush⟩ := hpush
      have hdepth : 0 < state.1.2.depth :=
        (Function.guarded_translate (Array.mem_of_getElem? hstep)).depth_pos hpush hneed
      rw [hpush]
      exact .ok (.pushed _ ⟨step, kind, site, hstep, hpush, hdepth, rfl⟩ rfl)
    · let based : Frame := { frame with handlerBase := state.2.handlers.length }
      have hstepped : Stepped based true false .signalling fun caller ↦
          nativeExecute caller based state.1.1 state.1.2 step.operation :=
        .nativeExecute _ _ fun kind site heq ↦ absurd ⟨kind, site, heq⟩ hpush
      have hkept := hstepped.keeps_handlers hobeyed rfl
      rw [nativeExecute_of_base hpop] at hkept
      exact hkept.mono (fun _ _ heq ↦ .kept heq) fun _ _ heq ↦ heq

theorem ownsAbove_nextNative {condition : Handler → Prop} (hbase : frame.handlerBase = low.length)
    {state later : NativeState}
    (hnext : nextNative? caller frame (subject.translate true) state = some later)
    (howns : state.2.OwnsAbove low condition) :
    later.2.OwnsAbove low fun handler ↦
      condition handler ∨ NativelyPushes (subject.translate true) state handler := by
  obtain ⟨place, stack, after, hadvance, rfl⟩ := nextNative?_eq_some hnext
  have hstep : EndsAs _ _
      (nativeStep caller frame (subject.translate true) state.1.1 state.1.2 state.2) :=
    hbase ▸ endsAs_nativeStep hobeyed state
  unfold nativeAdvance at hadvance
  split_ifs at hadvance
  · rw [hadvance] at hstep
    cases hstep with
    | ok hchanges => exact howns.changes hchanges
  · refine ownsAbove_of_dispatching hobeyed hbase hstep (fun handler payload between ↦ ?_) howns
      hadvance
    let based : Frame := { frame with handlerBase := between.handlers.length }
    have hstepped : Stepped based true false .signalling fun caller ↦
        resumeAtSite caller (subject.translate true) state.1.2 handler payload :=
      .leaving (.resumeAtSite _ _ _)
    exact hstepped.keeps_handlers hobeyed rfl

end Obeyed

theorem nativeStateAfter_within {subject : Function} {limit count : Nat}
    {start state : NativeState} (hstack : start.1.2.Within limit)
    (hstate : nativeStateAfter caller frame (subject.translate true) start count = some state) :
    state.1.2.Within limit := by
  refine holds_of_steps (motive := fun _ state ↦ state.1.2.Within limit)
    (nativeStateAfter caller frame (subject.translate true) start) (fun _ ↦ rfl)
    (fun _ hstart ↦ ?_) (fun _ state later _ hnext hwithin ↦ ?_) hstate
  · cases hstart
    exact hstack
  · obtain ⟨place, stack, after, hadvance, rfl⟩ := nextNative?_eq_some hnext
    exact nativeAdvance_within hwithin.limit_eq _ state.2 _ after hadvance

/-- A native frame has pushed the handler in one of its first `count` steps. So it resumes at one of
the sites of the code, and there is room for what it receives. -/
structure HasNativelyPushed (caller : Caller) (frame : Frame) (code : NativeCode)
    (start : NativeState) (count : Nat) (handler : Handler) : Prop where
  pushed : PushedWithin (nativeStateAfter caller frame code start) (NativelyPushes code) count
    handler
  resume : ∃ site < code.sites.size, handler.resume = .native site
  depth_lt : handler.depth < frame.function.stackLimit

theorem resumeAtSite_eq_ok {code : NativeCode} {stack : OperandStack} {handler : Handler}
    {site : Nat} (hresume : handler.resume = .native site) (hsite : site < code.sites.size)
    (hdepth : handler.depth < stack.limit) (payload : Value) (machine : Machine) :
    ∃ outcome, resumeAtSite caller code stack handler payload machine = .ok outcome machine := by
  have hcheck : StackNeed.check ⟨0, 1⟩ (stack.atDepth handler.depth) = .ok () := by
    rw [StackNeed.check, OperandStack.depth_atDepth, OperandStack.limit_atDepth,
      if_neg (Nat.not_lt_zero _)]
    exact if_neg (Nat.not_lt.mpr hdepth)
  refine ⟨.running code.sites[site] ((stack.atDepth handler.depth).extend payload), ?_⟩
  unfold resumeAtSite guardStack
  rw [hresume]
  dsimp only
  rw [hcheck, Array.getElem?_eq_getElem hsite]
  rfl

/-- Whenever a step of a native frame with guarded code stops with a signal, the signal is offered
to handlers that the frame has pushed, and resuming at the one that receives it succeeds. -/
theorem offered_of_nativeStateAfter (hobeyed : Law.vacuous.Obeyed caller)
    (hbase : frame.handlerBase = low.length) {start : NativeState}
    (hstart : start.2.handlers = low) {subject : Function}
    (hstack : start.1.2.Within frame.function.stackLimit) {count : Nat} {state : NativeState}
    (hstate : nativeStateAfter caller frame (subject.translate true) start count = some state)
    {reason : Signal} {between : Machine}
    (hstops : nativeStep caller frame (subject.translate true) state.1.1 state.1.2 state.2 =
      .error (.signal reason) between) :
    Offered caller low (HasNativelyPushed caller frame (subject.translate true) start count)
      (resumeAtSite caller (subject.translate true) state.1.2) reason between := by
  have howns : state.2.OwnsAbove low
      (HasNativelyPushed caller frame (subject.translate true) start count) := by
    refine (ownsAbove_pushedWithin (nativeStateAfter caller frame (subject.translate true) start)
      (fun _ ↦ rfl) (fun _ hzero ↦ ?_)
      (fun hnext howns ↦ ownsAbove_nextNative hobeyed hbase hnext howns) hstate).mono
        fun handler hpushed ↦ ?_
    · cases hzero
      exact hstart
    · obtain ⟨earlier, hless, past, hpast, hpushes⟩ := hpushed
      exact ⟨⟨earlier, hless, past, hpast, hpushes⟩, hpushes.resume,
        hpushes.depth_lt (nativeStateAfter_within hstack hpast)⟩
  refine offered_of_stops hobeyed (endsAs_nativeStep hobeyed state) hstops howns
    fun handler payload after hown ↦ ?_
  obtain ⟨site, hsite, hresume⟩ := hown.resume
  have hroom : handler.depth < state.1.2.limit :=
    (nativeStateAfter_within hstack hstate).limit_eq ▸ hown.depth_lt
  obtain ⟨outcome, hresumed⟩ := resumeAtSite_eq_ok hresume hsite hroom payload after
  exact ⟨outcome, after, hresumed⟩

/-! ### Bodies under a handler of a primitive -/

/-- Whenever a body that runs under a handler of a primitive stops with a signal, the signal is
offered to this handler and to no other. -/
theorem offered_of_body (hobeyed : Law.vacuous.Obeyed caller) {body : Caller → Engine Value}
    (hbody : Called body) {handler : Handler} {machine : Machine} {reason : Signal}
    {between : Machine}
    (hstops : body caller { machine with handlers := handler :: machine.handlers } =
      .error (.signal reason) between) :
    Offered caller machine.handlers (· = handler)
      (fun _ payload ↦ do
        truncateHandlers machine.handlers.length
        return BodyOutcome.caught payload)
      reason between := by
  let pushed : Machine := { machine with handlers := handler :: machine.handlers }
  have hkeeps : Law.vacuous.Keeps (body caller) := hbody.keeps hobeyed
  have hat : Law.vacuous.At pushed.handlers pushed.evalDepth pushed := ⟨trivial, rfl, rfl⟩
  have hends : EndsAs (fun _ after ↦ after.handlers = pushed.handlers)
      (fun _ after ↦ after.handlers = pushed.handlers) (body caller pushed) :=
    (hkeeps pushed.handlers pushed.evalDepth pushed hat).mono (fun _ _ hafter ↦ hafter.handlers_eq)
      fun _ _ hdone ↦ hdone.1.handlers_eq
  have howns : pushed.OwnsAbove machine.handlers (· = handler) := ⟨[handler], rfl, by simp⟩
  exact offered_of_stops hobeyed hends hstops howns fun _ payload after _ ↦ ⟨_, _, rfl⟩

/-! ### Runs -/

/-- Resuming at a handler never fails. In every run, a signal is offered to a frame when a step of
the frame stops with it, and to a primitive when the body that it runs under its handler does. Then
the handlers above those which the frame or the primitive has found are its own. Those of an
interpreted frame were pushed by one of its earlier steps and resume at an offset, those of guarded
native code resume at a site in the same way, and the depth that they keep is below the limit of the
operand stack; the one of a primitive returns to it. So if one of them receives the signal,
execution goes on there. -/
theorem resuming_never_fails (watch : Event → Machine → Bool) (steps : Nat) (machine : Machine) :
    let caller : Caller := .watched watch steps
    (∀ (subject : Function) (arguments : List Value) (stack : OperandStack) (entered : Machine),
      receiveArguments caller subject.parameters arguments (.empty subject.stackLimit) machine =
        .ok stack entered →
      let frame : Frame := ⟨subject, entered.bindings.length, machine.handlers.length⟩
      (let start : FrameState :=
        (⟨0, stack, 0⟩, { entered with interpretedCalls := entered.interpretedCalls + 1 })
      ∀ count state reason between, stateAfter caller frame count start = some state →
        step caller frame state.1 state.2 = .error (.signal reason) between →
        Offered caller machine.handlers (HasPushed caller frame start count)
          (resumeAt caller state.1.stack) reason between) ∧
      ∀ code, subject.compiled = some code → code.native = subject.translate true →
        let start : NativeState :=
          ((0, stack), { entered with compiledCalls := entered.compiledCalls + 1 })
        ∀ count state reason between,
          nativeStateAfter caller frame code.native start count = some state →
          nativeStep caller frame code.native state.1.1 state.1.2 state.2 =
            .error (.signal reason) between →
          Offered caller machine.handlers (HasNativelyPushed caller frame code.native start count)
            (resumeAtSite caller code.native state.1.2) reason between) ∧
    ∀ (kind : HandlerKind) (tag : Value) (body : Caller → Engine Value), Called body →
      let handler : Handler := ⟨tag, kind, 0, machine.bindings.length, .host⟩
      ∀ reason between,
        body caller { machine with handlers := handler :: machine.handlers } =
          .error (.signal reason) between →
        Offered caller machine.handlers (· = handler)
          (fun _ payload ↦ do
            truncateHandlers machine.handlers.length
            return BodyOutcome.caught payload)
          reason between := by
  intro caller
  have hobeyed : Law.vacuous.Obeyed caller := Law.obeyed_watched (fun _ _ ↦ trivial) steps
  refine ⟨fun subject arguments stack entered hreceived ↦ ?_,
    fun _ _ _ hbody _ _ hstops ↦ offered_of_body hobeyed hbody hstops⟩
  -- What receives the arguments leaves the handlers alone and does not overfill the stack.
  have hstack : stack.Within subject.stackLimit := by
    obtain ⟨hdepth, hlimit⟩ := receiveArguments_yields caller subject arguments machine stack
      entered hreceived
    exact ⟨hlimit, hdepth ▸ subject.entryDepth_le_stackLimit⟩
  have hentered : entered.handlers = machine.handlers := by
    have hkeeps : Law.vacuous.Keeps (receiveArguments caller subject.parameters arguments
        (.empty subject.stackLimit)) := (Called.receiveArguments _ _ _).keeps hobeyed
    have hends := hkeeps machine.handlers machine.evalDepth machine ⟨trivial, rfl, rfl⟩
    rw [hreceived] at hends
    cases hends with
    | ok hat => exact hat.handlers_eq
  refine ⟨fun _ _ _ _ hstate hstops ↦ ?_, fun code _ hnative _ _ _ _ hstate hstops ↦ ?_⟩
  · exact offered_of_stateAfter hobeyed rfl hentered hstack hstate hstops
  · rw [hnative] at hstate hstops ⊢
    exact offered_of_nativeStateAfter hobeyed rfl hentered hstack hstate hstops

/-- A function throws to its own catch, interpreted and compiled, and a primitive runs a throw under
its catch. Each time the throw is offered to the one handler that was pushed, and both frames go on
there. -/
theorem resuming_never_fails_of_throw :
    let subject : Function :=
      { code := #[0xC0, 0x32, 0x09, 0x00, 0xC1, 0xC0, 0xC2, 0x22, 0x30, 0x87]
        constants := #[.t, .object 0, .fixnum 7], maxDepth := 3, parameters := .dynamic [] }
    let compiled : Function := { subject with compiled := some ⟨0, subject.translate true⟩ }
    let machine : Machine :=
      { heap := ((Heap.empty 1).allocate (.primitive 115 "throw")).2, settings := {}
        functions := #[] }
    let caller : Caller := .bounded 8
    let thrown : Signal := .thrown .t (.fixnum 7)
    let start : FrameState := (⟨0, .empty 3, 0⟩, { machine with interpretedCalls := 1 })
    let nativeStart : NativeState := ((0, .empty 3), { machine with compiledCalls := 1 })
    (∃ state between, stateAfter caller ⟨subject, 0, 0⟩ 5 start = some state ∧
      step caller ⟨subject, 0, 0⟩ state.1 state.2 = .error (.signal thrown) between ∧
      (stateAfter caller ⟨subject, 0, 0⟩ 6 start).isSome ∧
      Offered caller [] (HasPushed caller ⟨subject, 0, 0⟩ start 5) (resumeAt caller state.1.stack)
        thrown between) ∧
    (∃ state between,
      nativeStateAfter caller ⟨compiled, 0, 0⟩ (subject.translate true) nativeStart 5 =
        some state ∧
      nativeStep caller ⟨compiled, 0, 0⟩ (subject.translate true) state.1.1 state.1.2 state.2 =
        .error (.signal thrown) between ∧
      (nativeStateAfter caller ⟨compiled, 0, 0⟩ (subject.translate true) nativeStart 6).isSome ∧
      Offered caller []
        (HasNativelyPushed caller ⟨compiled, 0, 0⟩ (subject.translate true) nativeStart 5)
        (resumeAtSite caller (subject.translate true) state.1.2) thrown between) ∧
    ∃ between,
      caller.apply (.object 0) [.t, .fixnum 7]
        { machine with handlers := [⟨.t, .catching, 0, 0, .host⟩] } =
        .error (.signal thrown) between ∧
      Offered caller [] (· = ⟨.t, .catching, 0, 0, .host⟩)
        (fun _ payload ↦ do
          truncateHandlers 0
          return BodyOutcome.caught payload)
        thrown between := by
  intro subject compiled machine caller thrown start nativeStart
  obtain ⟨hframes, hbody⟩ := resuming_never_fails (fun _ _ ↦ true) 8 machine
  have hinterpreted := (hframes subject [] (.empty 3) machine rfl).1
  have htranslated : subject.translate true = compiled.translate true := by decide +kernel
  have hnative := (hframes compiled [] (.empty 3) machine rfl).2 ⟨0, subject.translate true⟩ rfl
    htranslated
  have hruns :
      (∃ state ∈ stateAfter caller ⟨subject, 0, 0⟩ 5 start,
        StopsWith thrown (step caller ⟨subject, 0, 0⟩ state.1 state.2)) ∧
      (stateAfter caller ⟨subject, 0, 0⟩ 6 start).isSome ∧
      (∃ state ∈ nativeStateAfter caller ⟨compiled, 0, 0⟩ (subject.translate true) nativeStart 5,
        StopsWith thrown (nativeStep caller ⟨compiled, 0, 0⟩ (subject.translate true) state.1.1
          state.1.2 state.2)) ∧
      (nativeStateAfter caller ⟨compiled, 0, 0⟩ (subject.translate true) nativeStart 6).isSome ∧
      StopsWith thrown (caller.apply (.object 0) [.t, .fixnum 7]
        { machine with handlers := [⟨.t, .catching, 0, 0, .host⟩] }) := by decide +kernel
  obtain ⟨⟨state, hstate, between, hstops⟩, hlater, ⟨state', hstate', between', hstops'⟩, hlater',
    after, hthrown⟩ := hruns
  have hcalled : Called fun caller ↦ caller.apply (.object 0) [.t, .fixnum 7] :=
    .composed (.apply _ _)
  refine ⟨⟨state, between, hstate, hstops, hlater, ?_⟩,
    ⟨state', between', hstate', hstops', hlater', ?_⟩, after, hthrown, ?_⟩
  · exact hinterpreted 5 state thrown between hstate hstops
  · exact hnative 5 state' thrown between' hstate' hstops'
  · exact hbody .catching .t _ hcalled thrown after hthrown

end LispMachine
