import LispMachine.Proofs.Run.Balance
import LispMachine.Proofs.Run.Law

/-!
Whole runs keep laws. Within a frame the handlers may be more than at its start: it has handlers of
its own, whose marks the law allows because they were taken while it held. What leaves the frame is
awaited by the handlers outside of it, for it was dispatched to its own (`Stepped.keeps`). An
invocation drops its handlers and undoes its bindings, so it keeps the law like any other part of a
call (`Called.keeps`).

The main statement is `Law.obeyed_watched`, by induction on the steps of a run: a caller obeys a law
as soon as its watch lets no code have entries undone below the marks that the law allows.
-/

set_option autoImplicit false

namespace LispMachine

open LispMachine.Action Storage Engine

variable {α : Type} {law : Law} {caller : Caller} {low : HandlerStack} {depth : Nat} {pushes : Bool}

/-! ### Frames -/

/-- By which handlers a signal that leaves a part of a frame is awaited: by none, as only a fault is
then left, by those outside of the frame, or by those that the machine now has. -/
def Exit.Awaits (low : HandlerStack) (reason : Signal) (after : Machine) : Exit → Prop
  | .faulting => HandlerStack.Awaits [] reason
  | .outward => low.Awaits reason
  | .signalling => after.handlers.Awaits reason

/-- What is awaited by no handlers is awaited by all, because it is no throw. -/
theorem HandlerStack.Awaits.of_nil {reason : Signal} (hawaits : HandlerStack.Awaits [] reason)
    (handlers : HandlerStack) : handlers.Awaits reason := by
  cases reason with
  | error | fatal => trivial
  | thrown tag value => cases hawaits

theorem Exit.Awaits.of_faulting {reason : Signal} {after : Machine}
    (hawaits : Exit.Awaits low reason after .faulting) (exit : Exit) :
    exit.Awaits low reason after := by
  cases exit with
  | faulting => exact hawaits
  | outward | signalling => exact HandlerStack.Awaits.of_nil hawaits _

namespace Law

/-- The action keeps the law of a machine with own handlers above `low`, and a signal may leave it
in the given way. -/
def KeepsOwned (law : Law) (pushes : Bool) (low : HandlerStack) (depth : Nat) (exit : Exit)
    (action : Engine α) : Prop :=
  Ends (law.Owned pushes low depth) action (fun _ ↦ law.Owned pushes low depth)
    (fun reason after ↦ law.Owned pushes low depth after ∧ exit.Awaits low reason after)

theorem Keeps.owned {action : Engine α} (hkeeps : law.Keeps action) :
    law.KeepsOwned pushes low depth .signalling action := by
  rintro machine ⟨own, hmarks, hat⟩
  refine (hkeeps (own ++ low) depth).conseq (fun _ hat ↦ hat)
    (fun _ _ hat ↦ ⟨own, hmarks, hat⟩) (fun reason after hdone ↦ ?_) machine hat
  exact ⟨⟨own, hmarks, hdone.1⟩, by rw [Exit.Awaits, hdone.1.handlers_eq]; exact hdone.2⟩

theorem Owned.with_background {machine : Machine} (howned : law.Owned pushes low depth machine)
    (functions : Array Function) (interpreted compiled : Nat) (meter : Option Meter)
    (compiler : Option CompilerState) :
    law.Owned pushes low depth { machine with
      functions := functions, interpretedCalls := interpreted, compiledCalls := compiled,
      meter := meter, compiler := compiler } := by
  obtain ⟨own, hmarks, hat⟩ := howned
  exact ⟨own, hmarks, { hat with holds := law.background _ _ _ _ _ hat.holds }⟩

theorem Owned.weaken {machine : Machine} (howned : law.Owned pushes low depth machine) :
    law.Owned true low depth machine := by
  obtain ⟨own, hmarks, hat⟩ := howned
  exact ⟨own, fun handler hmem ↦ ⟨rfl, (hmarks handler hmem).2⟩, hat⟩

/-- A machine in a frame that pushes no handlers has those that it was entered with. -/
theorem Owned.handlers_eq {machine : Machine} (howned : law.Owned false low depth machine) :
    machine.handlers = low := by
  obtain ⟨own, hmarks, hat⟩ := howned
  cases own with
  | nil => exact hat.handlers_eq
  | cons handler own => exact absurd (hmarks handler List.mem_cons_self).1 (by simp)

theorem keepsOwned_pushOwnHandler (kind : HandlerKind) (tag : Value) (under : Nat)
    (resume : Resume) (hpushes : pushes = true) :
    law.KeepsOwned pushes low depth .faulting (pushOwnHandler kind tag under resume) := by
  rintro machine ⟨own, hmarks, hat⟩
  let pushed : Handler := ⟨tag, kind, under, machine.bindings.length, resume⟩
  refine .ok ⟨pushed :: own, ?_, law.handled _ hat.holds, ?_, hat.depth_eq⟩
  · intro handler hmem
    rcases List.mem_cons.mp hmem with rfl | hmem
    · exact ⟨hpushes, law.marked hat.holds⟩
    · exact hmarks handler hmem
  · exact congrArg (pushed :: ·) hat.handlers_eq

theorem keepsOwned_popOwnHandler {frame : Frame} (hbase : frame.handlerBase = low.length) :
    law.KeepsOwned pushes low depth .faulting (popOwnHandler frame) := by
  rintro machine ⟨own, hmarks, hat⟩
  change EndsAs _ _ ((if machine.handlers.length ≤ frame.handlerBase then _ else _ : Engine Unit)
    machine)
  rw [hat.handlers_eq, hbase]
  cases own with
  | nil =>
    rw [if_pos (by simp)]
    exact .signal ⟨⟨[], by simp, hat⟩, trivial⟩
  | cons handler own =>
    rw [if_neg (by simp only [List.cons_append, List.length_cons, List.length_append]; omega)]
    refine .ok ⟨own, fun handler hmem ↦ hmarks handler (List.mem_cons_of_mem _ hmem), ?_⟩
    refine ⟨law.handled _ hat.holds, ?_, hat.depth_eq⟩
    dsimp only
    rw [hat.handlers_eq]
    rfl

section Obeyed

variable (hobeyed : law.Obeyed caller)

include hobeyed

/-- The signals of a step are dispatched, so what leaves has not found a handler of the frame. -/
theorem keepsOwned_dispatching {frame : Frame} (hbase : frame.handlerBase = low.length)
    {step : Engine α} {resume : Handler → Value → Engine α}
    (hstep : law.KeepsOwned pushes low depth .signalling step)
    (hresume : ∀ handler payload,
      law.KeepsOwned pushes low depth .faulting (resume handler payload)) :
    law.KeepsOwned pushes low depth .outward (dispatching caller frame step resume) := by
  refine .attempt_bind hstep (fun outcome ↦ .pure fun _ howned ↦ howned) fun reason ↦ ?_
  dsimp only
  rw [hbase]
  refine .bind (ends_dispatch hobeyed reason) fun disposition ↦ ?_
  rintro machine ⟨howned, hawaited⟩
  cases disposition with
  | propagate reason => exact .signal ⟨howned, hawaited⟩
  | resume handler payload =>
    refine (hresume handler payload).conseq (fun _ howned ↦ howned) (fun _ _ howned ↦ howned)
      (fun reason after hdone ↦ ?_) machine howned
    exact ⟨hdone.1, hdone.2.of_faulting .outward⟩

end Obeyed

end Law

/-- What is put together from the parts of a frame keeps every law that its caller obeys. -/
theorem Stepped.keeps (hobeyed : law.Obeyed caller) {frame : Frame} (hmark : law.within frame.mark)
    (hbase : frame.handlerBase = low.length) {counts : Bool} {exit : Exit}
    {action : Caller → Engine α} (hstepped : Stepped frame counts pushes exit action) :
    law.KeepsOwned pushes low depth exit (action caller) := by
  induction hstepped with
  | pure result => exact .pure fun _ howned ↦ howned
  | exhausted => exact .exhausted
  | fault reason => exact .signal fun _ howned ↦ ⟨howned, trivial⟩
  | observe event _ =>
    exact (Ends.observe caller event).conseq (fun _ howned ↦ howned) (fun _ _ hdone ↦ hdone.1)
      fun _ _ hdone ↦ hdone
  | countOpcode previous opcode _ => exact fun machine howned ↦ .ok (howned.with_background _ _ _ _ _)
  | countInterpretedCall _ => exact fun machine howned ↦ .ok (howned.with_background _ _ _ _ _)
  | countCompiledCall => exact fun machine howned ↦ .ok (howned.with_background _ _ _ _ _)
  | pushHandler kind tag under resume hpushes =>
    exact Law.keepsOwned_pushOwnHandler kind tag under resume hpushes
  | popHandler => exact Law.keepsOwned_popOwnHandler hbase
  | unbindAll => exact (Law.keeps_unbindTo hobeyed hmark).owned
  | composed hcomposed => exact (hcomposed.keeps hobeyed).owned
  | bind _ _ hfirst hnext => exact .bind hfirst hnext
  | rounds _ ih => exact ih caller.rounds
  | leaving _ ih =>
    exact ih.conseq (fun _ howned ↦ howned) (fun _ _ howned ↦ howned)
      fun reason after hdone ↦ ⟨hdone.1, hdone.2.of_faulting _⟩
  | unhandled hpushes _ ih =>
    subst hpushes
    refine ih.conseq (fun _ howned ↦ howned) (fun _ _ howned ↦ howned) fun reason after hdone ↦ ?_
    refine ⟨hdone.1, ?_⟩
    have hawaits : after.handlers.Awaits reason := hdone.2
    rwa [hdone.1.handlers_eq] at hawaits
  | dispatching _ _ hstep hresume => exact Law.keepsOwned_dispatching hobeyed hbase hstep hresume

/-! ### Compiling -/

namespace Law

theorem keeps_compile (id : Nat) : law.Keeps (compile id) := by
  intro handlers depth machine hat
  have hkept (functions : Array Function) (compiler : Option CompilerState) :
      law.At handlers depth { machine with functions := functions, compiler := compiler } :=
    { hat with holds := law.background functions _ _ _ compiler hat.holds }
  have hcompiles := compiles id machine
  generalize compile id machine = run at hcompiles ⊢
  cases hcompiles with
  | missing => exact .exhausted
  | compiled => exact .ok hat
  | misplaced => exact .signal ⟨hkept machine.functions _, trivial⟩
  | placed => exact .ok (hkept _ _)

theorem keeps_compileIfDue (id : Nat) : law.Keeps (compileIfDue id) := by
  intro handlers depth machine hat
  change EndsAs _ _ ((if machine.settings.compileOnFirstCall then _ else _ : Engine Unit) machine)
  split_ifs
  · exact Keeps.bind (keeps_compile id) (fun _ ↦ .pure ()) handlers depth machine hat
  · exact .ok hat

theorem keeps_addFunction (function : Function) : law.Keeps (addFunction function) :=
  fun _ _ _ hat ↦ .ok { hat with holds := law.background _ _ _ _ _ hat.holds }

end Law

/-! ### Invocations and calls -/

namespace Law

/-- A body that has left handlers or bindings behind ends with a fault. -/
theorem ends_checkBalance (subject : Function) (mark : BindingMark) :
    Ends (law.Owned pushes low depth) (checkBalance ⟨subject, mark, low.length⟩)
      (fun _ ↦ law.Owned true low depth)
      (fun reason after ↦ law.Owned true low depth after ∧ low.Awaits reason) := by
  intro machine howned
  change EndsAs _ _ ((if low.length < machine.handlers.length then _ else
    if machine.bindings.length = mark then _ else _ : Engine Unit) machine)
  split_ifs
  · refine Ends.bind ends_truncateHandlers (fun _ ↦ ?_) machine howned
    exact .signal fun _ hat ↦ ⟨hat.owned, trivial⟩
  · exact .ok howned.weaken
  · exact .signal ⟨howned.weaken, trivial⟩

section Obeyed

variable (hobeyed : law.Obeyed caller)

include hobeyed

/-- Once its arguments are received, the body of a function runs in a frame whose mark the law
allows. -/
theorem ends_runBody {subject : Function} {arguments : List Value}
    (hreceived : law.Keeps
      (receiveArguments caller subject.parameters arguments (.empty subject.stackLimit))) :
    Ends (law.At low depth) (runBody caller subject arguments low.length)
      (fun _ ↦ law.Owned true low depth)
      (fun reason after ↦ law.Owned true low depth after ∧ low.Awaits reason) := by
  rw [runBody_eq]
  split
  case isFalse => exact fun _ _ ↦ .exhausted
  refine .bind ((hreceived low depth).conseq (fun _ hat ↦ hat) (fun _ _ hat ↦ hat)
    fun _ _ hdone ↦ ⟨hdone.1.owned, hdone.2⟩) fun stack machine hat ↦ ?_
  let frame : Frame := ⟨subject, machine.bindings.length, low.length⟩
  obtain ⟨pushes, hstepped⟩ := Stepped.runFrame frame stack
  have hframe : law.KeepsOwned pushes low depth .outward (runFrame caller frame stack) :=
    hstepped.keeps hobeyed (law.marked hat.holds) rfl
  change EndsAs _ _ ((runFrame caller frame stack >>= _ : Engine Value) machine)
  refine Ends.bind (hframe.conseq (fun _ howned ↦ howned) (fun _ _ howned ↦ howned)
    fun _ _ hdone ↦ ⟨hdone.1.weaken, hdone.2⟩) (fun value ↦ ?_) machine hat.owned
  exact .bind (ends_checkBalance subject machine.bindings.length) fun _ ↦
    .pure fun _ howned ↦ howned

/-- However the body ends, its handlers are dropped. -/
theorem keeps_runInvocation {subject : Function} {arguments : List Value}
    (hreceived : law.Keeps
      (receiveArguments caller subject.parameters arguments (.empty subject.stackLimit))) :
    law.Keeps (runInvocation caller subject arguments) := by
  intro low depth machine hat
  change EndsAs _ _ ((caller.attempt (runBody caller subject arguments machine.handlers.length) >>=
    _ : Engine Value) machine)
  rw [hat.handlers_eq]
  refine Ends.attempt_bind (ends_runBody hobeyed hreceived) (fun value ↦ ?_) (fun reason ↦ ?_)
    machine hat
  · exact .bind ends_truncateHandlers fun _ ↦ .pure fun _ hat ↦ hat
  · rintro machine' ⟨howned, hawaits⟩
    refine Ends.bind ends_truncateHandlers (fun _ ↦ ?_) machine' howned
    exact .signal fun _ hat ↦ ⟨hat, hawaits⟩

end Obeyed

end Law

/-- What is put together from the parts of a call keeps every law that its caller obeys. -/
theorem Called.keeps (hobeyed : law.Obeyed caller) {action : Caller → Engine α}
    (hcalled : Called action) : law.Keeps (action caller) := by
  induction hcalled with
  | composed hcomposed => exact hcomposed.keeps hobeyed
  | observe event _ => exact .observe caller event
  | bind _ _ hfirst hnext => exact .bind hfirst hnext
  | compileIfDue id => exact Law.keeps_compileIfDue id
  | addFunction function _ => exact Law.keeps_addFunction function
  | function id => exact fun _ _ _ hat ↦ .ok hat
  | bracketed subject arguments _ hreceived =>
    exact Law.keeps_bracketed hobeyed (Law.keeps_runInvocation hobeyed hreceived)

/-! ### Applications -/

namespace Law

theorem keeps_nested {action : Engine α} (haction : law.Keeps action) :
    law.Keeps (Engine.nested caller action) := by
  intro handlers depth machine hat
  have hdeeper : law.At handlers (depth + 1)
      { machine with evalDepth := machine.evalDepth + 1 } :=
    ⟨law.nested _ hat.holds, hat.handlers_eq, congrArg (· + 1) hat.depth_eq⟩
  have hshallower {after : Machine} (hafter : law.At handlers (depth + 1) after) :
      law.At handlers depth { after with evalDepth := after.evalDepth - 1 } :=
    ⟨law.nested _ hafter.holds, hafter.handlers_eq, by simp [hafter.depth_eq]⟩
  refine Ends.attempt_bind (haction handlers (depth + 1)) (fun result ↦ ?_) (fun reason ↦ ?_) _
    hdeeper
  · exact fun _ hat ↦ .ok (hshallower hat)
  · exact fun _ hdone ↦ .signal ⟨hshallower hdone.1, hdone.2⟩

theorem keeps_applyFunction (hobeyed : law.Obeyed caller) (function : Value)
    (arguments : List Value) : law.Keeps (applyFunction caller function arguments) := by
  have hcall : law.Keeps (do
      caller.observe (.applying function arguments)
      call caller function arguments) :=
    .bind (.observe caller _) fun _ ↦ (Called.call function arguments).keeps hobeyed
  intro handlers depth machine hat
  rw [applyFunction_apply]
  split_ifs
  · exact Keeps.stored _ handlers depth machine hat
  · exact Keeps.bind .noticeQuit (fun _ ↦ keeps_nested hcall) handlers depth machine hat

variable {watch : Event → Machine → Bool}

/-- A caller obeys a law if its watch lets no code have entries undone below the marks that the law
allows. -/
theorem obeyed_watched
    (hunbinding : ∀ {machine : Machine} {count : Nat}, law.holds machine →
      watch (.unbinding count) machine = true → law.within (machine.bindings.length - count))
    (steps : Nat) : law.Obeyed (.watched watch steps) := by
  induction steps with
  | zero => exact ⟨fun _ _ ↦ .exhausted, hunbinding⟩
  | succ steps ih => exact ⟨keeps_applyFunction ih, hunbinding⟩

end Law

/-- Whatever a machine is asked for, under a caller that obeys a law the law is kept. -/
theorem Request.keeps_run (hobeyed : law.Obeyed caller) (request : Request) :
    law.Keeps (request.run caller) := by
  cases request with
  | invoking id arguments => exact (Called.invoke id arguments).keeps hobeyed
  | applying function arguments => exact hobeyed.apply function arguments
  | evaluating form => exact Law.keeps_eval hobeyed form

end LispMachine
