import LispMachine.Proofs.Run.Inherited
import LispMachine.Proofs.Run.Progress

/-!
Whose handlers a signal is offered to. All handlers are kept in one stack, and whose they are is
told by their position alone: a frame owns those above the number that it was entered with. That
this is so has to be shown of everything that can happen within the frame. What is called from it
leaves the handlers as they were (`Stepped.keeps_handlers`), and a step of the frame keeps them,
pushes one or pops one of its own (`HandlerStack.Changes`). Dispatching a signal only takes handlers
away (`ownsAbove_dispatch`). So above the handlers that a frame was entered with there are at all
times only handlers that the frame itself has pushed (`ownsAbove_pushedWithin`).
-/

set_option autoImplicit false

namespace LispMachine

open LispMachine.Action Storage Engine

variable {α : Type} {low : HandlerStack} {condition pushes : Handler → Prop} {machine : Machine}

/-! ### Handlers above others -/

/-- The machine has the handlers `low`, and all those above them meet a condition. -/
def Machine.OwnsAbove (low : HandlerStack) (condition : Handler → Prop) (machine : Machine) :
    Prop :=
  ∃ own : HandlerStack, machine.handlers = own ++ low ∧ ∀ handler ∈ own, condition handler

/-- What a step of a frame with the given base may do to the handlers. -/
inductive HandlerStack.Changes (base : Nat) (pushes : Handler → Prop)
    (before after : HandlerStack) : Prop where
  | kept (hkept : after = before)
  | pushed (handler : Handler) (hpushes : pushes handler) (hpushed : after = handler :: before)
  | popped (hown : base < before.length) (hpopped : after = before.tail)

namespace Machine.OwnsAbove

theorem of_handlers_eq (heq : machine.handlers = low) : machine.OwnsAbove low condition :=
  ⟨[], heq, by simp⟩

theorem congr {after : Machine} (howns : machine.OwnsAbove low condition)
    (heq : after.handlers = machine.handlers) : after.OwnsAbove low condition := by
  obtain ⟨own, hown, hall⟩ := howns
  exact ⟨own, heq.trans hown, hall⟩

theorem mono {condition' : Handler → Prop} (howns : machine.OwnsAbove low condition)
    (himp : ∀ handler, condition handler → condition' handler) :
    machine.OwnsAbove low condition' := by
  obtain ⟨own, hown, hall⟩ := howns
  exact ⟨own, hown, fun handler hmem ↦ himp handler (hall handler hmem)⟩

/-- A step adds at most a handler that it pushes, and takes away none of `low`. -/
theorem changes {after : Machine} (howns : machine.OwnsAbove low condition)
    (hchanges : HandlerStack.Changes low.length pushes machine.handlers after.handlers) :
    after.OwnsAbove low fun handler ↦ condition handler ∨ pushes handler := by
  have hweaker := howns.mono fun handler hcondition ↦ Or.inl (b := pushes handler) hcondition
  obtain ⟨own, hown, hall⟩ := hweaker
  cases hchanges with
  | kept hkept => exact ⟨own, hkept.trans hown, hall⟩
  | pushed handler hpushes hpushed =>
    refine ⟨handler :: own, by rw [hpushed, hown, List.cons_append], ?_⟩
    rw [List.forall_mem_cons]
    exact ⟨.inr hpushes, hall⟩
  | popped habove hpopped =>
    rw [hown] at habove hpopped
    cases own with
    | nil => exact absurd habove (Nat.lt_irrefl _)
    | cons first own =>
      rw [List.forall_mem_cons] at hall
      exact ⟨own, hpopped, hall.2⟩

end Machine.OwnsAbove

/-! ### Parts of a step -/

section Parts

variable {caller : Caller}

/-- An operation of the stack that fails leaves the machine as it is. -/
theorem endsAs_checked_bind {α β : Type} {result : Except Fault β} {next : β → Engine α}
    {ended : α → Machine → Prop} {stopped : Signal → Machine → Prop} {machine : Machine}
    (hnext : ∀ value, result = .ok value → EndsAs ended stopped (next value machine))
    (hstopped : ∀ reason, stopped reason machine) :
    EndsAs ended stopped ((caller.checked result >>= next) machine) := by
  cases result with
  | ok value => exact hnext value rfl
  | error reason =>
    have hfails : Ends (· = machine) (caller.checked (.error reason : Except Fault β))
        (fun _ _ ↦ False) stopped :=
      .bind (.observe caller _) fun _ ↦ .signal fun _ hsame ↦ hsame.1 ▸ hstopped _
    exact Ends.bind hfails (fun _ _ hfalse ↦ hfalse.elim) machine rfl

theorem endsAs_observe_bind {α : Type} {event : Event} {next : Unit → Engine α}
    {ended : α → Machine → Prop} {stopped : Signal → Machine → Prop} {machine : Machine}
    (hnext : EndsAs ended stopped (next () machine)) :
    EndsAs ended stopped ((caller.observe event >>= next) machine) := by
  have hobserve : Ends (· = machine) (caller.observe event) (fun _ after ↦ after = machine)
      stopped := (Ends.observe caller event).conseq (fun _ hsame ↦ hsame)
        (fun _ _ hdone ↦ hdone.1) fun _ _ hdone ↦ hdone
  exact Ends.bind hobserve (fun _ _ hsame ↦ hsame ▸ hnext) machine rfl

/-- Popping a handler takes away one of the frame's own, or changes nothing. -/
theorem endsAs_popOwnHandler (frame : Frame) (result : α) (machine : Machine) :
    EndsAs
      (fun _ after ↦
        HandlerStack.Changes frame.handlerBase pushes machine.handlers after.handlers)
      (fun _ after ↦ after.handlers = machine.handlers)
      ((do popOwnHandler frame; return result : Engine α) machine) := by
  by_cases hforeign : machine.handlers.length ≤ frame.handlerBase
  · have hpop : popOwnHandler frame machine =
        .error (.signal (.fatal .foreignHandler)) machine := by
      change (if machine.handlers.length ≤ frame.handlerBase then _ else _ : Engine Unit)
        machine = _
      rw [if_pos hforeign]
      rfl
    rw [bind_of_error hpop]
    exact .signal rfl
  · have hpop : popOwnHandler frame machine =
        .ok () { machine with handlers := machine.handlers.tail } := by
      change (if machine.handlers.length ≤ frame.handlerBase then _ else _ : Engine Unit)
        machine = _
      rw [if_neg hforeign]
      rfl
    rw [bind_of_ok hpop]
    exact .ok (.popped (Nat.lt_of_not_le hforeign) rfl)

end Parts

/-! ### Dispatching -/

/-- If the signal goes to a handler, the handler meets a condition. -/
def Disposition.GoesTo (condition : Handler → Prop) : Disposition → Prop
  | .resume handler _ => condition handler
  | .propagate _ => True

section Obeyed

variable {caller : Caller} (hobeyed : Law.vacuous.Obeyed caller)

include hobeyed

/-- A dispatch takes handlers away, and one of those that were above `low` receives the signal. -/
theorem ownsAbove_dispatchWithin (rounds : Nat) (reason : Signal)
    {stopped : Signal → Machine → Prop} :
    Ends (Machine.OwnsAbove low condition) (dispatchWithin caller low.length rounds reason)
      (fun disposition after ↦ after.OwnsAbove low condition ∧ disposition.GoesTo condition)
      stopped := by
  induction rounds generalizing reason with
  | zero => exact .exhausted
  | succ rounds ih =>
    rintro machine ⟨own, hown, hall⟩
    have hat : Law.vacuous.At (own ++ low) machine.evalDepth machine := ⟨trivial, hown, rfl⟩
    refine Ends.bind (Law.ends_findHandler own reason) (fun found ↦ ?_) machine hat
    rintro machine' ⟨hat', hfound⟩
    cases found with
    | none => exact .ok ⟨⟨own, hat'.handlers_eq, hall⟩, trivial⟩
    | some parts =>
      obtain ⟨handler, outer⟩ := parts
      obtain ⟨inner, own', rfl, rfl⟩ := hfound
      have hhandler : condition handler := hall handler (by simp)
      have hall' : ∀ handler ∈ own', condition handler :=
        fun handler hmem ↦ hall handler (by simp [hmem])
      refine Ends.bind (.observe caller (.catching reason handler.tag)) (fun _ ↦ ?_) machine' hat'
      rintro machine' ⟨hat', -⟩
      have hunbind : Law.vacuous.Keeps (unbindTo caller handler.mark) :=
        Law.keeps_unbindTo hobeyed trivial
      refine Ends.attempt_bind (hunbind (own' ++ low) machine.evalDepth) (fun _ ↦ ?_)
        (fun next ↦ ?_) _ (hat'.with_handlers (own' ++ low))
      · intro machine'' hat''
        have howns : machine''.OwnsAbove low condition := ⟨own', hat''.handlers_eq, hall'⟩
        cases reason with
        | error symbol data => exact .ok ⟨howns.congr rfl, hhandler⟩
        | thrown tag value => exact .ok ⟨howns, hhandler⟩
        | fatal fault => exact .ok ⟨howns, trivial⟩
      · rintro machine'' ⟨hat'', -⟩
        exact ih next machine'' ⟨own', hat''.handlers_eq, hall'⟩

theorem ownsAbove_dispatch (reason : Signal) {stopped : Signal → Machine → Prop} :
    Ends (Machine.OwnsAbove low condition) (dispatch caller low.length reason)
      (fun disposition after ↦ after.OwnsAbove low condition ∧ disposition.GoesTo condition)
      stopped :=
  fun machine howns ↦ ownsAbove_dispatchWithin hobeyed _ reason machine howns

theorem ownsAbove_of_dispatch {reason : Signal} {disposition : Disposition} {after : Machine}
    (howns : machine.OwnsAbove low condition)
    (hdispatch : dispatch caller low.length reason machine = .ok disposition after) :
    after.OwnsAbove low condition ∧ disposition.GoesTo condition := by
  have hends : EndsAs
      (fun disposition after ↦ after.OwnsAbove low condition ∧ disposition.GoesTo condition)
      (fun _ _ ↦ False) (dispatch caller low.length reason machine) :=
    ownsAbove_dispatch hobeyed reason machine howns
  rw [hdispatch] at hends
  cases hends with
  | ok hdone => exact hdone

/-! ### Steps of a frame -/

/-- What is called from a frame leaves the handlers as they were. -/
theorem Stepped.keeps_handlers {frame : Frame} {counts : Bool} {action : Caller → Engine α}
    (hstepped : Stepped frame counts false .signalling action)
    (hbase : frame.handlerBase = machine.handlers.length) :
    EndsAs (fun _ after ↦ after.handlers = machine.handlers)
      (fun _ after ↦ after.handlers = machine.handlers) (action caller machine) := by
  have hkeeps : Law.vacuous.KeepsOwned false machine.handlers machine.evalDepth .signalling
      (action caller) := hstepped.keeps hobeyed trivial hbase
  have hat : Law.vacuous.At machine.handlers machine.evalDepth machine := ⟨trivial, rfl, rfl⟩
  exact (hkeeps machine hat.owned).mono (fun _ _ howned ↦ howned.handlers_eq)
    fun _ _ hdone ↦ hdone.1.handlers_eq

/-- A frame whose step changes its handlers as described, and that goes on at a handler without
changing them, changes them in no other way if the signals of the step are dispatched. -/
theorem ownsAbove_of_dispatching {frame : Frame} (hbase : frame.handlerBase = low.length)
    {take : Engine α} {resume : Handler → Value → Engine α} {outcome : α} {after : Machine}
    (htake : EndsAs
      (fun _ after ↦ HandlerStack.Changes low.length pushes machine.handlers after.handlers)
      (fun _ after ↦ after.handlers = machine.handlers) (take machine))
    (hresume : ∀ handler payload between, EndsAs
      (fun _ after ↦ after.handlers = between.handlers)
      (fun _ after ↦ after.handlers = between.handlers) (resume handler payload between))
    (howns : machine.OwnsAbove low condition)
    (hrun : dispatching caller frame take resume machine = .ok outcome after) :
    after.OwnsAbove low fun handler ↦ condition handler ∨ pushes handler := by
  rcases dispatching_eq_ok hrun with hok |
    ⟨reason, between, handler, payload, dispatched, hstops, hdispatch, hresumed⟩
  · rw [hok] at htake
    cases htake with
    | ok hchanges => exact howns.changes hchanges
  · rw [hstops] at htake
    rw [hbase] at hdispatch
    have hkept := hresume handler payload dispatched
    rw [hresumed] at hkept
    cases htake with
    | signal hsame =>
      have hdispatched := (ownsAbove_of_dispatch hobeyed (howns.congr hsame) hdispatch).1
      cases hkept with
      | ok heq => exact (hdispatched.congr heq).mono fun _ ↦ .inl

end Obeyed

/-! ### Runs of a frame -/

section Trail

variable {Position : Type} (states : Nat → Option (Position × Machine))
  {next : Position × Machine → Option (Position × Machine)}
  {pushesAt : Position × Machine → Handler → Prop}

/-- In one of its first `count` steps, a frame that goes through the given states has pushed the
handler. -/
def PushedWithin (pushesAt : Position × Machine → Handler → Prop) (count : Nat)
    (handler : Handler) : Prop :=
  ∃ earlier < count, ∃ past, states earlier = some past ∧ pushesAt past handler

/-- What holds at the start of a frame and is kept by its steps holds after any number of steps. -/
theorem holds_of_steps {motive : Nat → Position × Machine → Prop}
    (hsucc : ∀ count, states (count + 1) = (states count).bind next)
    (hstart : ∀ start, states 0 = some start → motive 0 start)
    (hnext : ∀ count state later, states count = some state → next state = some later →
      motive count state → motive (count + 1) later) {count : Nat} {state : Position × Machine}
    (hstate : states count = some state) : motive count state := by
  induction count generalizing state with
  | zero => exact hstart state hstate
  | succ count ih =>
    rw [hsucc] at hstate
    obtain ⟨before, hbefore, hlater⟩ := Option.bind_eq_some_iff.mp hstate
    exact hnext count before state hbefore hlater (ih hbefore)

/-- Above the handlers that a frame was entered with there are only those that it has pushed. -/
theorem ownsAbove_pushedWithin
    (hsucc : ∀ count, states (count + 1) = (states count).bind next)
    (hstart : ∀ start, states 0 = some start → start.2.handlers = low)
    (hnext : ∀ {state later} {condition : Handler → Prop}, next state = some later →
      state.2.OwnsAbove low condition →
      later.2.OwnsAbove low fun handler ↦ condition handler ∨ pushesAt state handler)
    {count : Nat} {state : Position × Machine} (hstate : states count = some state) :
    state.2.OwnsAbove low (PushedWithin states pushesAt count) := by
  refine holds_of_steps
    (motive := fun count state ↦ state.2.OwnsAbove low (PushedWithin states pushesAt count))
    states hsucc (fun start hzero ↦ .of_handlers_eq (hstart start hzero)) ?_ hstate
  intro count state later hstate hlater howns
  refine (hnext hlater howns).mono fun handler hhandler ↦ ?_
  rcases hhandler with ⟨earlier, hless, past, hpast, hpushes⟩ | hpushes
  · exact ⟨earlier, Nat.lt_succ_of_lt hless, past, hpast, hpushes⟩
  · exact ⟨count, Nat.lt_succ_self count, state, hstate, hpushes⟩

end Trail

/-! ### Offers -/

/-- A signal is offered to the handlers above `low`. All of them meet a condition, and so do those
that are left when it has been dispatched. The one that receives it is one of them, and going on
there succeeds. -/
structure Offered (caller : Caller) (low : HandlerStack) (condition : Handler → Prop)
    (resume : Handler → Value → Engine α) (reason : Signal) (machine : Machine) : Prop where
  owns : machine.OwnsAbove low condition
  keeps : ∀ disposition after, dispatch caller low.length reason machine = .ok disposition after →
    after.OwnsAbove low condition
  resumes : ∀ handler payload after,
    dispatch caller low.length reason machine = .ok (.resume handler payload) after →
    condition handler ∧ ∃ outcome resumed, resume handler payload after = .ok outcome resumed

/-- What stops without having changed the handlers offers its signal to those that there were. -/
theorem offered_of_stops {β : Type} {caller : Caller} (hobeyed : Law.vacuous.Obeyed caller)
    {take : Engine β} {resume : Handler → Value → Engine α} {ended : β → Machine → Prop}
    {reason : Signal} {between : Machine}
    (htake : EndsAs ended (fun _ after ↦ after.handlers = machine.handlers) (take machine))
    (hstops : take machine = .error (.signal reason) between)
    (howns : machine.OwnsAbove low condition)
    (hresume : ∀ handler payload after, condition handler →
      ∃ outcome resumed, resume handler payload after = .ok outcome resumed) :
    Offered caller low condition resume reason between := by
  rw [hstops] at htake
  cases htake with
  | signal hsame =>
    have hbetween : between.OwnsAbove low condition := howns.congr hsame
    refine ⟨hbetween, fun disposition after hdispatch ↦ ?_,
      fun handler payload after hdispatch ↦ ?_⟩
    · exact (ownsAbove_of_dispatch hobeyed hbetween hdispatch).1
    · have hhandler : condition handler := (ownsAbove_of_dispatch hobeyed hbetween hdispatch).2
      exact ⟨hhandler, hresume handler payload after hhandler⟩

end LispMachine
