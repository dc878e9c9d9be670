import LispMachine.Proofs.Run.Together

/-!
How frames and calls are put together. `Composed` names the parts of the actions that need no frame.
A frame has parts of its own: it counts what it fetches, pushes and pops its handlers, goes back to
its mark, and dispatches the signals of its steps. `Stepped` says of an action, as a function of its
caller, that it is put together from these, and also how a signal may leave it (`Exit`). `Called`
says the same of what an application does once it is admitted: it may compile and add functions and
invoke them.

The main statements are `Stepped.runFrame` and `Called.call`: every frame, interpreted or native,
and every call is put together in this way. So a property that holds of the parts and passes to what
is put together from them holds of whole runs, and needs no second look at the instructions.
-/

set_option autoImplicit false

namespace LispMachine

open LispMachine.Action Storage Engine

/-- How a signal may leave a part of a frame. -/
inductive Exit where
  /-- Only a fault leaves it. -/
  | faulting
  /-- The signals that leave it have not found a handler of the frame. -/
  | outward
  /-- Any signal may leave it, also one for which the frame has a handler. -/
  | signalling

/-- The action, as a function of its caller, is put together from the parts that a frame has, which
counts what it interprets only if `counts` says so, and pushes handlers of its own only if `pushes`
does. -/
inductive Stepped (frame : Frame) (counts pushes : Bool) :
    {α : Type} → Exit → (Caller → Engine α) → Prop where
  | pure {α : Type} (result : α) : Stepped frame counts pushes .faulting fun _ ↦ Pure.pure result
  | exhausted {α : Type} :
      Stepped frame counts pushes .faulting fun _ ↦ (Action.exhausted : Engine α)
  | fault {α : Type} (reason : Fault) :
      Stepped frame counts pushes .faulting fun _ ↦ (Action.fault reason : Engine α)
  | observe (event : Event) (hcourse : event.concernsCourse = false) :
      Stepped frame counts pushes .faulting fun caller ↦ caller.observe event
  | countOpcode (previous opcode : UInt8) (hcounts : counts = true) :
      Stepped frame counts pushes .faulting fun _ ↦ Engine.countOpcode previous opcode
  | countInterpretedCall (hcounts : counts = true) :
      Stepped frame counts pushes .faulting fun _ ↦ Engine.countInterpretedCall
  | countCompiledCall : Stepped frame counts pushes .faulting fun _ ↦ Engine.countCompiledCall
  | pushHandler (kind : HandlerKind) (tag : Value) (depth : Nat) (resume : Resume)
      (hpushes : pushes = true) :
      Stepped frame counts pushes .faulting fun _ ↦ pushOwnHandler kind tag depth resume
  | popHandler : Stepped frame counts pushes .faulting fun _ ↦ popOwnHandler frame
  | unbindAll : Stepped frame counts pushes .signalling fun caller ↦ unbindTo caller frame.mark
  | composed {α : Type} {use : LogUse} {action : Caller → Engine α}
      (hcomposed : Composed use action) : Stepped frame counts pushes .signalling action
  | bind {α β : Type} {exit : Exit} {first : Caller → Engine α} {next : α → Caller → Engine β}
      (hfirst : Stepped frame counts pushes exit first)
      (hnext : ∀ result, Stepped frame counts pushes exit (next result)) :
      Stepped frame counts pushes exit fun caller ↦ first caller >>= fun result ↦ next result caller
  /-- A part that takes as many rounds as the caller allows. -/
  | rounds {α : Type} {exit : Exit} {action : Nat → Caller → Engine α}
      (haction : ∀ rounds, Stepped frame counts pushes exit (action rounds)) :
      Stepped frame counts pushes exit fun caller ↦ action caller.rounds caller
  /-- A fault leaves in every way. -/
  | leaving {α : Type} {exit : Exit} {action : Caller → Engine α}
      (haction : Stepped frame counts pushes .faulting action) :
      Stepped frame counts pushes exit action
  /-- A frame without handlers has none for any signal. -/
  | unhandled {α : Type} {action : Caller → Engine α} (hpushes : pushes = false)
      (haction : Stepped frame counts pushes .signalling action) :
      Stepped frame counts pushes .outward action
  | dispatching {α : Type} {step : Caller → Engine α} {resume : Handler → Value → Caller → Engine α}
      (hstep : Stepped frame counts pushes .signalling step)
      (hresume : ∀ handler payload, Stepped frame counts pushes .faulting (resume handler payload)) :
      Stepped frame counts pushes .outward fun caller ↦
        Engine.dispatching caller frame (step caller) fun handler payload ↦
          resume handler payload caller

namespace Stepped

variable {frame : Frame} {counts pushes : Bool} {exit : Exit} {α β : Type}

theorem checked (result : Except Fault α) :
    Stepped frame counts pushes .faulting fun caller ↦ caller.checked result := by
  cases result with
  | ok value => exact pure value
  | error reason => exact bind (observe (.overdrawing reason) rfl) fun _ ↦ fault reason

theorem checked_bind (result : Except Fault α) {next : α → Caller → Engine β}
    (hnext : ∀ value, Stepped frame counts pushes exit (next value)) :
    Stepped frame counts pushes exit fun caller ↦
      caller.checked result >>= fun value ↦ next value caller :=
  bind (leaving (checked result)) hnext

theorem composed_bind {use : LogUse} {action : Caller → Engine α} {next : α → Caller → Engine β}
    (haction : Composed use action)
    (hnext : ∀ value, Stepped frame counts pushes .signalling (next value)) :
    Stepped frame counts pushes .signalling fun caller ↦
      action caller >>= fun value ↦ next value caller :=
  bind (composed haction) hnext

theorem signalling_pure (result : α) :
    Stepped frame counts pushes .signalling fun _ ↦ Pure.pure result :=
  leaving (pure result)

/-! ### Interpreting -/

theorem pushAndGo (stack : OperandStack) (value : Value) (next : Nat) :
    Stepped frame counts pushes exit fun caller ↦ Engine.pushAndGo caller stack value next :=
  checked_bind _ fun _ ↦ leaving (pure _)

theorem fetch (activation : Activation) :
    Stepped frame true pushes .faulting fun caller ↦ Engine.fetch caller frame activation := by
  unfold Engine.fetch
  cases frame.function.code[activation.offset]? with
  | none => exact fault _
  | some opcode =>
    refine bind (countOpcode _ _ rfl) fun _ ↦ ?_
    cases frame.function.code.decode activation.offset with
    | error reason => exact fault reason
    | ok decoded =>
      refine bind (pure decoded) fun decoded ↦ ?_
      exact bind (observe (.interpreting decoded.1 activation.stack) rfl) fun _ ↦ pure decoded

theorem branch (offset next : Nat) (stack : OperandStack) (kind : BranchKind) (target : Nat) :
    Stepped frame counts pushes .signalling fun caller ↦
      Engine.branch caller frame offset next stack kind target := by
  unfold Engine.branch
  split_ifs with houtside
  · exact leaving (fault _)
  refine checked_bind _ fun tested ↦ ?_
  exact composed (Composed.ite (.bind (.checkpoint _) fun _ ↦ .pure _) (.pure _))

/-- What an instruction does, in a frame that may push handlers if the instruction does. -/
theorem execute (offset next : Nat) (stack : OperandStack) {instruction : Instruction}
    (hpushes : ∀ kind target, instruction = .pushHandler kind target → pushes = true) :
    Stepped frame counts pushes .signalling fun caller ↦
      Engine.execute caller frame offset next stack instruction := by
  have hconstant {γ : Type} (index : Nat) {use : Value → Caller → Engine γ}
      (huse : ∀ value, Stepped frame counts pushes .signalling (use value)) :
      Stepped frame counts pushes .signalling fun caller ↦
        (ofFaulty (frame.function.constant index) : Engine Value) >>= fun value ↦
          use value caller :=
    composed_bind (.ofFaulty _) huse
  cases instruction with
  | stackRef n => exact checked_bind _ fun value ↦ pushAndGo stack value next
  | dup => exact checked_bind _ fun value ↦ pushAndGo stack value next
  | constant index => exact hconstant index fun value ↦ pushAndGo stack value next
  | varRef index =>
    refine hconstant index fun symbol ↦ ?_
    exact composed_bind (.stored _) fun value ↦ pushAndGo stack value next
  | varSet index =>
    refine hconstant index fun symbol ↦ checked_bind _ fun popped ↦ ?_
    exact composed_bind (.stored _) fun _ ↦ signalling_pure _
  | varBind index =>
    refine hconstant index fun symbol ↦ checked_bind _ fun popped ↦ ?_
    exact composed_bind (.bindVariable _ _) fun _ ↦ signalling_pure _
  | call count =>
    refine checked_bind _ fun popped ↦ composed_bind (.apply _ _) fun result ↦ ?_
    exact pushAndGo popped.2 result next
  | unbind count => exact composed_bind (.unbinding count) fun _ ↦ signalling_pure _
  | unbindAll => exact bind unbindAll fun _ ↦ signalling_pure _
  | popHandler => exact bind (leaving popHandler) fun _ ↦ signalling_pure _
  | pushHandler kind target =>
    refine checked_bind _ fun popped ↦ ?_
    exact bind (leaving (pushHandler _ _ _ _ (hpushes kind target rfl))) fun _ ↦ signalling_pure _
  | branch kind form target => exact branch offset next stack kind target
  | ret => exact checked_bind _ fun popped ↦ signalling_pure _
  | discard => exact checked_bind _ fun popped ↦ signalling_pure _
  | discardN count preserveTop => exact checked_bind _ fun rest ↦ signalling_pure _
  | stackSet n =>
    refine checked_bind _ fun top ↦ checked_bind _ fun changed ↦ ?_
    exact checked_bind _ fun popped ↦ signalling_pure _
  | listN count | concatN count | insertN count =>
    refine checked_bind _ fun popped ↦ composed_bind (.stored _) fun result ↦ ?_
    exact pushAndGo popped.2 result next
  | operation op =>
    refine checked_bind _ fun popped ↦ composed_bind (.perform op _) fun result ↦ ?_
    split_ifs
    · exact pushAndGo popped.2 result next
    · exact signalling_pure _

theorem resumeAt (stack : OperandStack) (handler : Handler) (payload : Value) :
    Stepped frame counts pushes .faulting fun caller ↦
      Engine.resumeAt caller stack handler payload := by
  unfold Engine.resumeAt
  cases handler.resume with
  | offset target => exact checked_bind _ fun reset ↦ pushAndGo reset payload target
  | native | host => exact fault _

theorem advance (hpushes : pushes = true) (activation : Activation) :
    Stepped frame true pushes .outward fun caller ↦ Engine.advance caller frame activation := by
  refine dispatching (bind (leaving (fetch activation)) fun fetched ↦ ?_)
    (resumeAt activation.stack)
  exact execute _ _ _ fun _ _ _ ↦ hpushes

theorem interpretWithin (hpushes : pushes = true) (rounds : Nat) (activation : Activation) :
    Stepped frame true pushes .outward fun caller ↦
      Engine.interpretWithin caller frame rounds activation := by
  induction rounds generalizing activation with
  | zero => exact leaving exhausted
  | succ rounds ih =>
    refine bind (advance hpushes activation) fun outcome ↦ ?_
    cases outcome with
    | running offset stack => exact ih _
    | returned value => exact leaving (pure value)

theorem interpret (hpushes : pushes = true) (stack : OperandStack) :
    Stepped frame true pushes .outward fun caller ↦ Engine.interpret caller frame stack := by
  have hwithin (rounds : Nat) : Stepped frame true pushes .outward fun caller ↦
      Engine.interpretWithin caller frame rounds ⟨0, stack, 0⟩ := interpretWithin hpushes rounds _
  exact rounds hwithin

/-! ### Running native code -/

theorem guardStack (stack : OperandStack) (need : Option StackNeed) :
    Stepped frame counts pushes .faulting fun caller ↦ Engine.guardStack caller stack need := by
  cases need with
  | none => exact pure ()
  | some need => exact checked _

theorem nativeExecute (place : Nat) (stack : OperandStack) {operation : NativeOperation}
    (hpushes : ∀ kind site, operation = .pushHandler kind site → pushes = true) :
    Stepped frame counts pushes .signalling fun caller ↦
      Engine.nativeExecute caller frame place stack operation := by
  by_cases hall : operation = .unbindAll
  · subst hall
    exact bind unbindAll fun _ ↦ signalling_pure _
  by_cases hpop : operation = .popHandler
  · subst hpop
    exact bind (leaving popHandler) fun _ ↦ signalling_pure _
  by_cases hpush : ∃ kind site, operation = .pushHandler kind site
  · obtain ⟨kind, site, rfl⟩ := hpush
    exact bind (leaving (pushHandler _ _ _ _ (hpushes kind site rfl))) fun _ ↦ signalling_pure _
  · have hnever : ∀ kind site, operation ≠ .pushHandler kind site :=
      fun kind site heq ↦ hpush ⟨kind, site, heq⟩
    exact composed (.nativeExecute frame place stack hall hpop hnever)

variable {code : NativeCode}

/-- A step of native code, in a frame that may push handlers if the code has sites. -/
theorem nativeStep (hpushes : pushes = !code.sites.isEmpty) (place : Nat) (stack : OperandStack) :
    Stepped frame counts pushes .signalling fun caller ↦
      Engine.nativeStep caller frame code place stack := by
  unfold Engine.nativeStep
  cases hstep : code.steps[place]? with
  | none => exact leaving (fault _)
  | some step =>
    refine bind (leaving (observe (.executing step.operation stack) rfl)) fun _ ↦ ?_
    refine bind (leaving (guardStack stack step.need)) fun _ ↦ nativeExecute place stack ?_
    intro kind site hpush
    have hsite := code.sited step (Array.mem_of_getElem? hstep) kind site hpush
    rw [hpushes, Bool.not_eq_true', Array.isEmpty_eq_false_iff]
    intro hnone
    rw [hnone] at hsite
    exact Nat.not_lt_zero site hsite

theorem resumeAtSite (stack : OperandStack) (handler : Handler) (payload : Value) :
    Stepped frame counts pushes .faulting fun caller ↦
      Engine.resumeAtSite caller code stack handler payload := by
  unfold Engine.resumeAtSite
  cases handler.resume with
  | native site =>
    refine bind (guardStack _ _) fun _ ↦ ?_
    cases code.sites[site]? with
    | some place => exact pure _
    | none => exact fault _
  | offset | host => exact fault _

theorem nativeAdvance (hpushes : pushes = !code.sites.isEmpty) (place : Nat)
    (stack : OperandStack) :
    Stepped frame counts pushes .outward fun caller ↦
      Engine.nativeAdvance caller frame code place stack := by
  have hstep : Stepped frame counts pushes .signalling fun caller ↦
      Engine.nativeStep caller frame code place stack := nativeStep hpushes place stack
  unfold Engine.nativeAdvance
  by_cases hsites : code.sites.isEmpty
  · simp only [hsites, if_true]
    exact unhandled (by rw [hpushes, hsites]; rfl) hstep
  · simp only [hsites]
    exact dispatching hstep (resumeAtSite stack)

theorem runNativeWithin (hpushes : pushes = !code.sites.isEmpty) (rounds place : Nat)
    (stack : OperandStack) :
    Stepped frame counts pushes .outward fun caller ↦
      Engine.runNativeWithin caller frame code rounds place stack := by
  induction rounds generalizing place stack with
  | zero => exact leaving exhausted
  | succ rounds ih =>
    refine bind (nativeAdvance hpushes place stack) fun outcome ↦ ?_
    cases outcome with
    | running place stack => exact ih place stack
    | returned value => exact leaving (pure value)

theorem runNative (hpushes : pushes = !code.sites.isEmpty) (stack : OperandStack) :
    Stepped frame counts pushes .outward fun caller ↦
      Engine.runNative caller frame code stack := by
  have hwithin (rounds : Nat) : Stepped frame counts pushes .outward fun caller ↦
      Engine.runNativeWithin caller frame code rounds 0 stack :=
    runNativeWithin hpushes rounds 0 stack
  exact rounds hwithin

/-- Every frame is put together from the parts that a frame has. A signal that leaves it has not
found a handler of the frame. -/
theorem runFrame (frame : Frame) (stack : OperandStack) :
    ∃ pushes, Stepped frame true pushes .outward fun caller ↦
      Engine.runFrame caller frame stack := by
  unfold Engine.runFrame
  cases frame.function.compiled with
  | none => exact ⟨true, bind (leaving (countInterpretedCall rfl)) fun _ ↦ interpret rfl stack⟩
  | some code => exact ⟨_, bind (leaving countCompiledCall) fun _ ↦ runNative rfl stack⟩

end Stepped

/-! ### Calls -/

/-- The action, as a function of its caller, is put together from the parts that a call has. -/
inductive Called : {α : Type} → (Caller → Engine α) → Prop where
  | composed {α : Type} {use : LogUse} {action : Caller → Engine α}
      (hcomposed : Composed use action) : Called action
  | observe (event : Event) (hcourse : event.concernsCourse = false) :
      Called fun caller ↦ caller.observe event
  | bind {α β : Type} {first : Caller → Engine α} {next : α → Caller → Engine β}
      (hfirst : Called first) (hnext : ∀ result, Called (next result)) :
      Called fun caller ↦ first caller >>= fun result ↦ next result caller
  | compileIfDue (id : Nat) : Called fun _ ↦ Engine.compileIfDue id
  | addFunction (function : Function) (hnew : function.compiled = none) :
      Called fun _ ↦ Engine.addFunction function
  | function (id : Nat) : Called fun _ ↦ Engine.function id
  /-- An invocation, which receives its arguments in this way and whose bindings are undone. -/
  | bracketed (subject : Function) (arguments : List Value)
      (hreceived : Called fun caller ↦
        receiveArguments caller subject.parameters arguments (.empty subject.stackLimit)) :
      Called fun caller ↦ do
        let mark ← bindingMark
        unwindingTo caller mark (runInvocation caller subject arguments)

namespace Called

theorem checked {α : Type} (result : Except Fault α) :
    Called fun caller ↦ caller.checked result := by
  cases result with
  | ok value => exact composed (.pure value)
  | error reason => exact bind (observe (.overdrawing reason) rfl) fun _ ↦ composed (.fault reason)

theorem pushAll (stack : OperandStack) (values : List Value) :
    Called fun caller ↦ Engine.pushAll caller stack values := by
  induction values generalizing stack with
  | nil => exact composed (.pure stack)
  | cons value values ih => exact bind (checked _) fun pushed ↦ ih pushed

theorem receiveArguments (parameters : Parameters) (arguments : List Value)
    (stack : OperandStack) :
    Called fun caller ↦ Engine.receiveArguments caller parameters arguments stack := by
  unfold Engine.receiveArguments
  cases parameters with
  | template template =>
    dsimp only
    split_ifs
    · exact bind (composed (.stored _)) fun slots ↦ pushAll stack slots
    · exact composed (.stored _)
  | dynamic symbols =>
    exact composed (.ite (.growing (.stored _)) (.bind (.bindParameters _ _) fun _ ↦
      .bind (.bindRest _ _ _) fun _ ↦ .growing (.pure _)))

theorem invoke (id : Nat) (arguments : List Value) :
    Called fun caller ↦ Engine.invoke caller id arguments :=
  bind (compileIfDue id) fun _ ↦ bind (function id) fun subject ↦
    bracketed subject arguments (receiveArguments _ arguments _)

theorem executeString (text constants maxDepth : Value) :
    Called fun caller ↦ Engine.executeString caller text constants maxDepth :=
  bind (composed (.stored _)) fun _ ↦ bind (addFunction _ rfl) fun id ↦ invoke id []

theorem callPrimitive (callee : Value) (index : Nat) (arguments : List Value) :
    Called fun caller ↦ Engine.callPrimitive caller callee index arguments := by
  unfold Engine.callPrimitive
  cases hprimitive : Primitive.catalogue[index]? with
  | none => exact composed (.stored _)
  | some primitive =>
    dsimp only
    split_ifs
    · obtain hcomposed | hcode := Composed.primitive (Array.mem_of_getElem? hprimitive)
      · exact composed (hcomposed arguments)
      · rw [hcode]
        exact executeString _ _ _
    · exact composed (.stored _)

/-- Every call is put together from the parts that a call has. -/
theorem call (function : Value) (arguments : List Value) :
    Called fun caller ↦ Engine.call caller function arguments := by
  refine bind (composed (.stored _)) fun callee ↦ bind (composed (.stored _)) fun object ↦ ?_
  split
  · exact callPrimitive callee _ arguments
  · exact invoke _ arguments
  · exact composed (.stored _)

end Called

end LispMachine
