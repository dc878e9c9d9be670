import LispMachine.Proofs.Run.Inherited

/-!
Faults come out of a run. No handler catches a fault, and wherever something is attempted, a fault
is passed on, with one exception: when a fault is met in unwinding while another signal is on its
way, the first signal goes on and the fault is dropped.

So a run in which something has stopped with a fault, and no fault was dropped, stops with a fault
itself (`Request.stopsWith_fatal`). The argument compares the run with the same run under a watch
that ends it at the first fault: the two are the same until a fault is met (`SameUntilFault`), and
from then on the first is bound to end with a fault (`Doomed`). Where a fault is dropped, it leaves
no trace (`Request.fatal_dropped`).
-/

set_option autoImplicit false

namespace LispMachine

open LispMachine.Action Storage Engine

variable {α β : Type}

/-! ### Runs that have met a fault -/

/-- The watch that lets no fault be dropped. -/
def dropsNoFault : Event → Machine → Bool
  | .dropping (.fatal _) _, _ => false
  | _, _ => true

/-- The watch that lets nothing stop with a fault. -/
def meetsNoFault : Event → Machine → Bool
  | .stopping (.fatal _), _ => false
  | _, _ => true

/-- A run ends with a fault, or with a result that carries one, or it is too long. -/
inductive Faulty (carries : α → Prop) : EStateM.Result (Stop Signal) Machine α → Prop where
  | fatal {fault : Fault} {after : Machine} :
      Faulty carries (.error (.signal (.fatal fault)) after)
  | carried {result : α} {after : Machine} (hcarries : carries result) :
      Faulty carries (.ok result after)
  | exhausted {resource : Resource} {after : Machine} :
      Faulty carries (.error (.exhausted resource) after)

/-- An action that ends in this way from every state. -/
def Doomed (carries : α → Prop) (action : Engine α) : Prop :=
  ∀ machine, Faulty carries (action machine)

/-- The second action does what the first does, unless the first ends with a fault or with a result
that carries one. -/
def SameUntilFault (carries : α → Prop) (first second : Engine α) : Prop :=
  ∀ machine, Faulty carries (first machine) ∨ second machine = first machine

/-- No result carries a fault. -/
def Never (_ : α) : Prop := False

/-- What was attempted has stopped with a fault. -/
def AttemptFailed (result : Except Signal α) : Prop := ∃ fault, result = .error (.fatal fault)

/-- The signal that an unwinding has met is a fault. -/
def FaultMet (met : Option Signal) : Prop := ∃ fault, met = some (.fatal fault)

/-- A fault propagates. -/
def FaultPropagates (disposition : Disposition) : Prop :=
  ∃ fault, disposition = .propagate (.fatal fault)

/-- The signal is a fault. -/
def IsFault (reason : Signal) : Prop := ∃ fault, reason = .fatal fault

namespace Doomed

variable {carries : α → Prop} {carries' : β → Prop}

theorem fault (reason : Fault) : Doomed carries (signal (.fatal reason) : Engine α) :=
  fun _ ↦ .fatal

theorem pure {result : α} (hcarries : carries result) : Doomed carries (Pure.pure result) :=
  fun _ ↦ .carried hcarries

theorem exhausted : Doomed carries (Action.exhausted : Engine α) := fun _ ↦ .exhausted

theorem bind {first : Engine α} {next : α → Engine β} (hfirst : Doomed carries first)
    (hnext : ∀ result, carries result → Doomed carries' (next result)) :
    Doomed carries' (first >>= next) := by
  intro machine
  change Faulty carries' (EStateM.bind first next machine)
  unfold EStateM.bind
  have hend := hfirst machine
  generalize first machine = run at hend ⊢
  cases hend with
  | fatal => exact .fatal
  | carried hcarries => exact hnext _ hcarries _
  | exhausted => exact .exhausted

/-- An action that never signals may come before. -/
theorem after {first : Engine α} {next : α → Engine β}
    (hquiet : ∀ machine reason after, first machine ≠ .error (.signal reason) after)
    (hnext : ∀ result, Doomed carries' (next result)) : Doomed carries' (first >>= next) := by
  intro machine
  change Faulty carries' (EStateM.bind first next machine)
  unfold EStateM.bind
  have hnever := hquiet machine
  generalize first machine = run at hnever ⊢
  match run with
  | .ok result after => exact hnext result after
  | .error (.signal reason) after => exact absurd rfl (hnever reason after)
  | .error (.exhausted _) _ => exact .exhausted

theorem attempt_bind {caller : Caller} {action : Engine α} {next : Except Signal α → Engine β}
    (hnext : ∀ result, Doomed carries' (next result)) :
    Doomed carries' (caller.attempt action >>= next) := by
  refine after (fun machine reason after hrun ↦ ?_) hnext
  rw [Caller.attempt_apply] at hrun
  generalize action machine = run at hrun
  match run with
  | .ok _ _ => cases hrun
  | .error (.exhausted _) _ => cases hrun
  | .error (.signal _) _ =>
    dsimp only at hrun
    split_ifs at hrun
    cases hrun

end Doomed

namespace SameUntilFault

variable {carries : α → Prop} {carries' : β → Prop}

/-- What does not depend on the caller. -/
theorem same (action : Engine α) : SameUntilFault carries action action := fun _ ↦ .inr rfl

theorem bind {first second : Engine α} {next next' : α → Engine β}
    (hfirst : SameUntilFault carries first second)
    (hcarried : ∀ result, carries result → Doomed carries' (next result))
    (hnext : ∀ result, SameUntilFault carries' (next result) (next' result)) :
    SameUntilFault carries' (first >>= next) (second >>= next') := by
  intro machine
  change Faulty carries' (EStateM.bind first next machine) ∨
    EStateM.bind second next' machine = EStateM.bind first next machine
  unfold EStateM.bind
  obtain hfaulty | hsame := hfirst machine
  · refine .inl ?_
    generalize first machine = run at hfaulty ⊢
    cases hfaulty with
    | fatal => exact .fatal
    | carried hcarries => exact hcarried _ hcarries _
    | exhausted => exact .exhausted
  · rw [hsame]
    cases first machine with
    | ok result after => exact hnext result after
    | error stop after => exact .inr rfl

/-- Go on after results of which none carries a fault. -/
theorem follow {first second : Engine α} {next next' : α → Engine β}
    (hfirst : SameUntilFault Never first second)
    (hnext : ∀ result, SameUntilFault carries' (next result) (next' result)) :
    SameUntilFault carries' (first >>= next) (second >>= next') :=
  bind hfirst (fun _ hnever ↦ hnever.elim) hnext

end SameUntilFault

/-- The first caller lets no fault be dropped, the second lets nothing stop with a fault, and
otherwise their applications are the same. -/
structure FaultWatchers (caller companion : Caller) : Prop where
  rounds : caller.rounds = companion.rounds
  permits : caller.permits = dropsNoFault
  companion_permits : companion.permits = meetsNoFault
  apply : ∀ function arguments, SameUntilFault Never
    (caller.apply function arguments) (companion.apply function arguments)

section Watchers

variable {caller companion : Caller} (hwatchers : FaultWatchers caller companion)

include hwatchers

/-! ### Attempts and events -/

theorem same_attempt {first second : Engine α} (hsame : SameUntilFault Never first second) :
    SameUntilFault AttemptFailed (caller.attempt first) (companion.attempt second) := by
  intro machine
  rw [Caller.attempt_apply, Caller.attempt_apply, hwatchers.permits, hwatchers.companion_permits]
  obtain hfaulty | heq := hsame machine
  · refine .inl ?_
    generalize first machine = run at hfaulty ⊢
    cases hfaulty with
    | fatal => exact .carried ⟨_, rfl⟩
    | carried hnever => exact hnever.elim
    | exhausted => exact .exhausted
  · rw [heq]
    match first machine with
    | .ok _ _ => exact .inr rfl
    | .error (.exhausted _) _ => exact .inr rfl
    | .error (.signal (.fatal fault)) _ => exact .inl (.carried ⟨fault, rfl⟩)
    | .error (.signal (.error _ _)) _ => exact .inr rfl
    | .error (.signal (.thrown _ _)) _ => exact .inr rfl

/-- Go on after an attempt, with a fault or with anything else. -/
theorem same_attempt_bind {carries : β → Prop} {first second : Engine α}
    {next next' : Except Signal α → Engine β} (hsame : SameUntilFault Never first second)
    (hfault : ∀ fault, Doomed carries (next (.error (.fatal fault))))
    (hnext : ∀ result, SameUntilFault carries (next result) (next' result)) :
    SameUntilFault carries (caller.attempt first >>= next)
      (companion.attempt second >>= next') := by
  refine .bind (same_attempt hwatchers hsame) ?_ hnext
  rintro _ ⟨fault, rfl⟩
  exact hfault fault

/-- Events that are no faults are permitted by both. -/
theorem same_observe {event : Event} (hdrops : ∀ machine, dropsNoFault event machine = true)
    (hmeets : ∀ machine, meetsNoFault event machine = true) :
    SameUntilFault Never (caller.observe event) (companion.observe event) := by
  intro machine
  unfold Caller.observe
  rw [hwatchers.permits, hwatchers.companion_permits, hdrops, hmeets]
  exact .inr rfl

theorem same_observe_apart {event : Event} (hcourse : event.concernsCourse = false) :
    SameUntilFault Never (caller.observe event) (companion.observe event) := by
  cases event with
  | applying | interpreting | executing | overdrawing =>
    exact same_observe hwatchers (fun _ ↦ rfl) fun _ ↦ rfl
  | unbinding | stopping | dropping | catching => cases hcourse

/-- Of a signal that was on its way and a fault, the one that goes on is a fault, since faults are
not dropped. -/
theorem doomed_keepFirst (first : Option Signal) (fault : Fault) :
    Doomed IsFault (caller.keepFirst first (.fatal fault)) := by
  cases first with
  | none => exact .pure ⟨fault, rfl⟩
  | some earlier =>
    intro machine
    change Faulty IsFault (EStateM.bind (caller.observe (.dropping (.fatal fault) earlier)) _ machine)
    unfold EStateM.bind Caller.observe
    rw [hwatchers.permits]
    exact .exhausted

omit hwatchers in
/-- A fault that is on its way goes on. -/
theorem doomed_keepFirst_fault (fault : Fault) (reason : Signal) :
    Doomed IsFault (caller.keepFirst (some (.fatal fault)) reason) := by
  refine .after (fun machine other after hrun ↦ ?_) fun _ ↦ .pure ⟨fault, rfl⟩
  unfold Caller.observe at hrun
  split_ifs at hrun
  cases hrun

theorem same_keepFirst (first : Option Signal) (reason : Signal) :
    SameUntilFault IsFault (caller.keepFirst first reason) (companion.keepFirst first reason) := by
  by_cases hfault : IsFault reason
  · obtain ⟨fault, rfl⟩ := hfault
    exact fun machine ↦ .inl (doomed_keepFirst hwatchers first fault machine)
  · cases first with
    | none => exact .same _
    | some earlier =>
      have hpermitted (machine : Machine) : dropsNoFault (.dropping reason earlier) machine = true := by
        cases reason with
        | error | thrown => rfl
        | fatal fault => exact absurd ⟨fault, rfl⟩ hfault
      exact .follow (same_observe hwatchers hpermitted fun _ ↦ rfl) fun _ ↦ .same _

/-! ### Unwinding -/

theorem same_eval (form : Value) :
    SameUntilFault Never (caller.eval form) (companion.eval form) :=
  hwatchers.apply Symbols.eval [form]

theorem same_runUnwindForm (handler : Value) :
    SameUntilFault Never (runUnwindForm caller handler) (runUnwindForm companion handler) := by
  refine .follow (.same _) fun store ↦ ?_
  split_ifs
  · exact .follow (hwatchers.apply handler []) fun _ ↦ .same _
  · exact .follow (.same _) fun body ↦ .follow (same_eval hwatchers body) fun _ ↦ .same _

theorem same_undo (entry : BindingEntry) :
    SameUntilFault Never (undo caller entry) (undo companion entry) := by
  cases entry with
  | unwindProtect handler => exact same_runUnwindForm hwatchers handler
  | restriction buffer bounds => cases bounds <;> exact .same _
  | _ => exact .same _

omit hwatchers in
theorem takeBinding_ne_signal (mark : BindingMark) (machine : Machine) (reason : Signal)
    (after : Machine) : takeBinding mark machine ≠ .error (.signal reason) after := by
  unfold takeBinding
  exact nofun

omit hwatchers in
/-- An unwinding that has met a fault gives one, whatever it meets afterwards. -/
theorem doomed_unwindFrom (mark : BindingMark) (rounds : Nat) {reason : Signal}
    (hreason : IsFault reason) :
    Doomed FaultMet (unwindFrom caller mark rounds (some reason)) := by
  induction rounds generalizing reason with
  | zero => exact .exhausted
  | succ rounds ih =>
    obtain ⟨fault, rfl⟩ := hreason
    refine .after (takeBinding_ne_signal mark) fun entry ↦ ?_
    cases entry with
    | none => exact .pure ⟨fault, rfl⟩
    | some entry =>
      refine .attempt_bind fun result ↦ ?_
      cases result with
      | ok _ => exact ih ⟨fault, rfl⟩
      | error later => exact .bind (doomed_keepFirst_fault fault later) fun kept ↦ ih

theorem same_unwindFrom (mark : BindingMark) (rounds : Nat) (first : Option Signal) :
    SameUntilFault FaultMet (unwindFrom caller mark rounds first)
      (unwindFrom companion mark rounds first) := by
  induction rounds generalizing first with
  | zero => exact .same _
  | succ rounds ih =>
    refine .follow (.same _) fun entry ↦ ?_
    cases entry with
    | none => exact .same _
    | some entry =>
      refine same_attempt_bind hwatchers (same_undo hwatchers entry) (fun fault ↦ ?_)
        fun result ↦ ?_
      · exact .bind (doomed_keepFirst hwatchers first fault) fun kept ↦
          doomed_unwindFrom mark rounds
      · cases result with
        | ok _ => exact ih first
        | error reason =>
          exact .bind (same_keepFirst hwatchers first reason)
            (fun kept ↦ doomed_unwindFrom mark rounds) fun kept ↦ ih (some kept)

theorem same_unbindTo (mark : BindingMark) :
    SameUntilFault Never (unbindTo caller mark) (unbindTo companion mark) := by
  unfold unbindTo
  rw [← hwatchers.rounds]
  refine .follow (.same _) fun length ↦ .bind (same_unwindFrom hwatchers mark _ none) ?_
    fun met ↦ ?_
  · rintro _ ⟨fault, rfl⟩
    exact .fault fault
  · exact .same _

theorem same_unbind (count : Nat) :
    SameUntilFault Never (unbind caller count) (unbind companion count) :=
  .follow (same_observe hwatchers (fun _ ↦ rfl) fun _ ↦ rfl) fun _ ↦
    .follow (.same _) fun _ ↦ same_unbindTo hwatchers _

omit hwatchers in
theorem doomed_signal {carries : α → Prop} {reason : Signal} (hreason : IsFault reason) :
    Doomed carries (signal reason : Engine α) := by
  obtain ⟨fault, rfl⟩ := hreason
  exact .fault fault

/-- Neither the action nor the unwinding after it loses a fault. -/
theorem same_unwindingTo (mark : BindingMark) {first second : Engine α}
    (hsame : SameUntilFault Never first second) :
    SameUntilFault Never (unwindingTo caller mark first) (unwindingTo companion mark second) := by
  refine same_attempt_bind hwatchers hsame (fun fault ↦ ?_) fun result ↦ ?_
  · refine .attempt_bind fun unwound ↦ ?_
    cases unwound with
    | ok _ => exact .fault fault
    | error later => exact .bind (doomed_keepFirst_fault fault later) fun kept ↦ doomed_signal
  · refine same_attempt_bind hwatchers (same_unbindTo hwatchers mark) (fun fault ↦ ?_)
      fun unwound ↦ ?_
    · cases result with
      | ok value => exact .fault fault
      | error reason =>
        exact .bind (doomed_keepFirst hwatchers (some reason) fault) fun kept ↦ doomed_signal
    · cases result with
      | ok value => cases unwound <;> exact .same _
      | error reason =>
        cases unwound with
        | ok _ => exact .same _
        | error later =>
          exact .bind (same_keepFirst hwatchers (some reason) later) (fun kept ↦ doomed_signal)
            fun kept ↦ .same _

/-! ### Dispatching -/

omit hwatchers in
/-- No handler catches a fault. -/
theorem innermostMatch_fatal (fault : Fault) (conditions : List Value) (handlers : HandlerStack) :
    innermostMatch (.fatal fault) conditions handlers = pure none := by
  induction handlers with
  | nil => rfl
  | cons handler outer ih =>
    have hmisses : catchesSignal (.fatal fault) conditions handler = pure false := by
      unfold catchesSignal
      cases handler.kind <;> rfl
    rw [innermostMatch, hmisses, ih]
    rfl

omit hwatchers in
theorem findHandler_fatal (base : Nat) (fault : Fault) (machine : Machine) :
    findHandler base (.fatal fault) machine = .ok none machine := by
  change EStateM.bind (liftM (innermostMatch (.fatal fault) [] machine.handlers)) _ machine = _
  rw [innermostMatch_fatal]
  rfl

omit hwatchers in
theorem doomed_dispatchWithin (base rounds : Nat) (fault : Fault) :
    Doomed FaultPropagates (dispatchWithin caller base rounds (.fatal fault)) := by
  cases rounds with
  | zero => exact .exhausted
  | succ rounds =>
    intro machine
    rw [dispatchWithin]
    change Faulty _ (EStateM.bind (findHandler base (.fatal fault)) _ machine)
    unfold EStateM.bind
    rw [findHandler_fatal]
    exact .carried ⟨fault, rfl⟩

omit hwatchers in
theorem doomed_dispatch (base : Nat) (fault : Fault) :
    Doomed FaultPropagates (dispatch caller base (.fatal fault)) :=
  fun machine ↦ doomed_dispatchWithin base _ fault machine

theorem same_dispatch (base : Nat) (reason : Signal) :
    SameUntilFault FaultPropagates (dispatch caller base reason)
      (dispatch companion base reason) := by
  have hwithin (rounds : Nat) (reason : Signal) : SameUntilFault FaultPropagates
      (dispatchWithin caller base rounds reason) (dispatchWithin companion base rounds reason) := by
    induction rounds generalizing reason with
    | zero => exact .same _
    | succ rounds ih =>
      refine .follow (.same _) fun found ↦ ?_
      cases found with
      | none => exact .same _
      | some parts =>
        refine .follow (same_observe hwatchers (fun _ ↦ rfl) fun _ ↦ rfl) fun _ ↦
          .follow (.same _) fun _ ↦ same_attempt_bind hwatchers
            (same_unbindTo hwatchers parts.1.mark) (doomed_dispatchWithin base rounds)
            fun result ↦ ?_
        cases result with
        | ok _ => exact .same _
        | error next => exact ih next
  unfold dispatch
  rw [← hwatchers.rounds]
  exact .follow (.same _) fun count ↦ hwithin _ reason

omit hwatchers in
theorem truncateHandlers_ne_signal (count : Nat) (machine : Machine) (reason : Signal)
    (after : Machine) : truncateHandlers count machine ≠ .error (.signal reason) after :=
  nofun

theorem same_withHandler (kind : HandlerKind) (tag : Value) {first second : Engine Value}
    (hsame : SameUntilFault Never first second) :
    SameUntilFault Never (withHandler caller kind tag first)
      (withHandler companion kind tag second) := by
  refine .follow (.same _) fun base ↦ .follow (.same _) fun mark ↦ .follow (.same _) fun _ ↦ ?_
  refine same_attempt_bind hwatchers hsame (fun fault ↦ ?_) fun result ↦ ?_
  · refine .bind (doomed_dispatch base fault) ?_
    rintro _ ⟨kept, rfl⟩
    exact .after (truncateHandlers_ne_signal base) fun _ ↦ .fault kept
  · cases result with
    | ok value => exact .same _
    | error reason =>
      refine .bind (same_dispatch hwatchers base reason) ?_ fun disposition ↦ .same _
      rintro _ ⟨fault, rfl⟩
      exact .after (truncateHandlers_ne_signal base) fun _ ↦ .fault fault

/-- What is put together from the parts of a run does the same until it meets a fault. -/
theorem Composed.same {use : LogUse} {action : Caller → Engine α}
    (hcomposed : Composed use action) :
    SameUntilFault Never (action caller) (action companion) := by
  induction hcomposed with
  | pure | stored | exhausted | fault | checkpoint | throwing | logging => exact .same _
  | bind _ _ hfirst hnext => exact .follow hfirst hnext
  | growing _ ih => exact ih
  | freely _ ih => exact ih
  | rounds _ ih =>
    beta_reduce
    rw [← hwatchers.rounds]
    exact ih caller.rounds
  | apply function arguments => exact hwatchers.apply function arguments
  | unbinding count => exact same_unbind hwatchers count
  | bracketed _ ih => exact .follow (.same _) fun mark ↦ same_unwindingTo hwatchers mark ih
  | caught kind tag _ ih => exact same_withHandler hwatchers kind tag ih

/-! ### Frames and calls -/

theorem same_dispatching (frame : Frame) {step step' : Engine α}
    {resume resume' : Handler → Value → Engine α} (hstep : SameUntilFault Never step step')
    (hresume : ∀ handler payload,
      SameUntilFault Never (resume handler payload) (resume' handler payload)) :
    SameUntilFault Never (dispatching caller frame step resume)
      (dispatching companion frame step' resume') := by
  refine same_attempt_bind hwatchers hstep (fun fault ↦ ?_) fun result ↦ ?_
  · refine .bind (doomed_dispatch frame.handlerBase fault) ?_
    rintro _ ⟨kept, rfl⟩
    exact .fault kept
  · cases result with
    | ok outcome => exact .same _
    | error reason =>
      refine .bind (same_dispatch hwatchers frame.handlerBase reason) ?_ fun disposition ↦ ?_
      · rintro _ ⟨fault, rfl⟩
        exact .fault fault
      · cases disposition with
        | resume handler payload => exact hresume handler payload
        | propagate reason => exact .same _

theorem Stepped.same {frame : Frame} {counts pushes : Bool} {exit : Exit}
    {action : Caller → Engine α}
    (hstepped : Stepped frame counts pushes exit action) :
    SameUntilFault Never (action caller) (action companion) := by
  induction hstepped with
  | pure | exhausted | fault | countOpcode | countInterpretedCall | countCompiledCall
  | pushHandler | popHandler => exact .same _
  | observe event hcourse => exact same_observe_apart hwatchers hcourse
  | unbindAll => exact same_unbindTo hwatchers frame.mark
  | composed hcomposed => exact hcomposed.same hwatchers
  | bind _ _ hfirst hnext => exact .follow hfirst hnext
  | rounds _ ih =>
    beta_reduce
    rw [← hwatchers.rounds]
    exact ih caller.rounds
  | leaving _ ih => exact ih
  | unhandled _ _ ih => exact ih
  | dispatching _ _ hstep hresume => exact same_dispatching hwatchers frame hstep hresume

theorem same_runInvocation {subject : Function} {arguments : List Value}
    (hreceived : SameUntilFault Never
      (receiveArguments caller subject.parameters arguments (.empty subject.stackLimit))
      (receiveArguments companion subject.parameters arguments (.empty subject.stackLimit))) :
    SameUntilFault Never (runInvocation caller subject arguments)
      (runInvocation companion subject arguments) := by
  refine .follow (.same _) fun base ↦ same_attempt_bind hwatchers ?_ (fun fault ↦ ?_) fun result ↦
    .same _
  · rw [runBody_eq, runBody_eq]
    split
    case isFalse => exact .same _
    refine .follow hreceived fun stack ↦ .follow (.same _) fun mark ↦ ?_
    obtain ⟨pushes, hstepped⟩ := Stepped.runFrame ⟨subject, mark, base⟩ stack
    exact .follow (hstepped.same hwatchers) fun value ↦ .same _
  · exact .after (truncateHandlers_ne_signal base) fun _ ↦ .fault fault

theorem Called.same {action : Caller → Engine α} (hcalled : Called action) :
    SameUntilFault Never (action caller) (action companion) := by
  induction hcalled with
  | composed hcomposed => exact hcomposed.same hwatchers
  | observe event hcourse => exact same_observe_apart hwatchers hcourse
  | bind _ _ hfirst hnext => exact .follow hfirst hnext
  | compileIfDue | addFunction | function => exact .same _
  | bracketed subject arguments _ hreceived =>
    exact .follow (.same _) fun mark ↦
      same_unwindingTo hwatchers mark (same_runInvocation hwatchers hreceived)

theorem same_nested {first second : Engine α} (hsame : SameUntilFault Never first second) :
    SameUntilFault Never (nested caller first) (nested companion second) := by
  refine .follow (.same _) fun _ ↦ same_attempt_bind hwatchers hsame (fun fault ↦ ?_) fun result ↦
    .same _
  exact .after (fun _ _ _ ↦ nofun) fun _ ↦ .fault fault

theorem same_applyFunction (function : Value) (arguments : List Value) :
    SameUntilFault Never (applyFunction caller function arguments)
      (applyFunction companion function arguments) := by
  refine .follow (.same _) fun machine ↦ ?_
  split_ifs
  · exact .same _
  · refine .follow (.same _) fun _ ↦ same_nested hwatchers ?_
    exact .follow (same_observe_apart hwatchers rfl) fun _ ↦
      (Called.call function arguments).same hwatchers

end Watchers

theorem faultWatchers (steps : Nat) :
    FaultWatchers (.watched dropsNoFault steps) (.watched meetsNoFault steps) := by
  induction steps with
  | zero => exact ⟨rfl, rfl, rfl, fun _ _ ↦ .same _⟩
  | succ steps ih => exact ⟨rfl, rfl, rfl, same_applyFunction ih⟩

theorem Request.same_run (request : Request) (steps : Nat) :
    SameUntilFault Never (request.run (.watched dropsNoFault steps))
      (request.run (.watched meetsNoFault steps)) := by
  have hwatchers := faultWatchers steps
  cases request with
  | invoking id arguments => exact (Called.invoke id arguments).same hwatchers
  | applying function arguments => exact hwatchers.apply function arguments
  | evaluating form => exact same_eval hwatchers form

/-- If anything that a run attempts has stopped with a fault, and no fault was dropped, then the run
stops with a fault. -/
theorem Request.stopsWith_fatal (request : Request) (steps : Nat) (machine : Machine)
    (hkept : Finishes (request.run (.watched dropsNoFault steps) machine))
    (hmet : ¬ Finishes (request.run (.watched meetsNoFault steps) machine)) :
    ∃ fault, StopsWith (.fatal fault) (request.run (.bounded steps) machine) := by
  rw [Request.run_eq_of_finishes hkept]
  obtain hfaulty | hsame := request.same_run steps machine
  · generalize request.run (.watched dropsNoFault steps) machine = run at hkept hfaulty ⊢
    cases hfaulty with
    | fatal => exact ⟨_, _, rfl⟩
    | carried hnever => exact hnever.elim
    | exhausted => exact absurd rfl (hkept _ _)
  · rw [hsame] at hmet
    exact absurd hkept hmet

/-- A function whose callee runs off the end of its code. -/
theorem Request.stopsWith_fatal_callee :
    let subject : Function :=
      { code := #[0xC0, 0x20, 0x87], constants := #[.object 0], maxDepth := 1
        parameters := .dynamic [] }
    let callee : Function :=
      { code := #[], constants := #[], maxDepth := 0, parameters := .dynamic [] }
    let machine : Machine :=
      { heap := ((Heap.empty 1).allocate (.function 1 "")).2, settings := {}
        functions := #[subject, callee] }
    let request : Request := .invoking 0 []
    Finishes (request.run (.watched dropsNoFault 4) machine) ∧
      ¬ Finishes (request.run (.watched meetsNoFault 4) machine) ∧
      ∃ fault, StopsWith (.fatal fault) (request.run (.bounded 4) machine) := by
  intro subject callee machine request
  have hkept : Finishes (request.run (.watched dropsNoFault 4) machine) := by decide +kernel
  have hmet : ¬ Finishes (request.run (.watched meetsNoFault 4) machine) := by decide +kernel
  exact ⟨hkept, hmet, Request.stopsWith_fatal request 4 machine hkept hmet⟩

/-- A function that leaves an unwind form behind and then signals an error. The form runs off the
end of its code, which is dropped: the run stops with the error. -/
theorem Request.fatal_dropped :
    let subject : Function :=
      { code := #[0xC0, 0x8E, 0xC1, 0x40, 0x87], constants := #[.object 0, .fixnum 1], maxDepth := 1
        parameters := .dynamic [] }
    let form : Function :=
      { code := #[], constants := #[], maxDepth := 0, parameters := .dynamic [] }
    let machine : Machine :=
      { heap := ((Heap.empty 1).allocate (.function 1 "")).2, settings := {}
        functions := #[subject, form] }
    let request : Request := .invoking 0 []
    ¬ Finishes (request.run (.watched meetsNoFault 6) machine) ∧
      StopsWith (.error Symbols.wrongTypeArgument (.object 2))
        (request.run (.bounded 6) machine) := by
  decide +kernel

end LispMachine
