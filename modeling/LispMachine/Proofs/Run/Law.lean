import LispMachine.Proofs.Run.Dispatching
import LispMachine.Proofs.Run.Stepped

/-!
Laws of runs. A `Law` is a condition on machines that no part of a run breaks by itself: changing
the store, the handlers, the depth or the counters keeps it, and so does an entry that is added to
the binding log. Undoing entries keeps it as long as the unwinding stops at a mark that the law
allows. An action that `Keeps` a law also leaves the handlers and the depth as they were, and a
throw that leaves it is awaited by one of these handlers (`HandlerStack.Awaits`).

A caller that obeys the law applies functions in such a way, and has no entries undone below the
marks that the law allows. The main statement is `Composed.keeps`: whatever is put together from the
parts of a run keeps a law that its caller obeys.
-/

set_option autoImplicit false

namespace LispMachine

open LispMachine.Action Storage Engine

variable {α β : Type}

/-! ### How actions end -/

/-- A run ends with a result and in a state, or with a signal and in a state, of which something is
known, or it is too long. -/
inductive EndsAs (ended : α → Machine → Prop) (stopped : Signal → Machine → Prop) :
    EStateM.Result (Stop Signal) Machine α → Prop where
  | ok {result : α} {after : Machine} (hended : ended result after) :
      EndsAs ended stopped (.ok result after)
  | signal {reason : Signal} {after : Machine} (hstopped : stopped reason after) :
      EndsAs ended stopped (.error (.signal reason) after)
  | exhausted {resource : Resource} {after : Machine} :
      EndsAs ended stopped (.error (.exhausted resource) after)

theorem EndsAs.mono {ended ended' : α → Machine → Prop} {stopped stopped' : Signal → Machine → Prop}
    {run : EStateM.Result (Stop Signal) Machine α} (hend : EndsAs ended stopped run)
    (hended : ∀ result after, ended result after → ended' result after)
    (hstopped : ∀ reason after, stopped reason after → stopped' reason after) :
    EndsAs ended' stopped' run := by
  cases hend with
  | ok hdone => exact .ok (hended _ _ hdone)
  | signal hdone => exact .signal (hstopped _ _ hdone)
  | exhausted => exact .exhausted

instance {ended : α → Machine → Prop} {stopped : Signal → Machine → Prop}
    [∀ result after, Decidable (ended result after)]
    [∀ reason after, Decidable (stopped reason after)]
    (run : EStateM.Result (Stop Signal) Machine α) : Decidable (EndsAs ended stopped run) :=
  match run with
  | .ok result after => decidable_of_iff (ended result after)
    ⟨.ok, fun hends ↦ by cases hends; assumption⟩
  | .error (.signal reason) after => decidable_of_iff (stopped reason after)
    ⟨.signal, fun hends ↦ by cases hends; assumption⟩
  | .error (.exhausted _) _ => .isTrue .exhausted

/-- A run comes to an end: it is neither too long nor refused by a watch, and needs no size that is
too great. -/
def Finishes (run : EStateM.Result (Stop Signal) Machine α) : Prop :=
  ∀ resource after, run ≠ .error (.exhausted resource) after

instance (run : EStateM.Result (Stop Signal) Machine α) : Decidable (Finishes run) :=
  match run with
  | .ok _ _ => .isTrue fun _ _ hrun ↦ by cases hrun
  | .error (.signal _) _ => .isTrue fun _ _ hrun ↦ by cases hrun
  | .error (.exhausted resource) after => .isFalse fun hfinishes ↦ hfinishes resource after rfl

/-- A run stops with the given signal. -/
def StopsWith (reason : Signal) (run : EStateM.Result (Stop Signal) Machine α) : Prop :=
  ∃ after, run = .error (.signal reason) after

instance (reason : Signal) (run : EStateM.Result (Stop Signal) Machine α) :
    Decidable (StopsWith reason run) :=
  match run with
  | .ok _ _ => .isFalse fun ⟨_, hrun⟩ ↦ by cases hrun
  | .error (.exhausted _) _ => .isFalse fun ⟨_, hrun⟩ ↦ by cases hrun
  | .error (.signal other) after => decidable_of_iff (other = reason)
    ⟨fun heq ↦ ⟨after, heq ▸ rfl⟩, fun ⟨_, hrun⟩ ↦ by cases hrun; rfl⟩

/-- From the states that `before` admits, an action ends as the two conditions say. -/
def Ends (before : Machine → Prop) (action : Engine α) (ended : α → Machine → Prop)
    (stopped : Signal → Machine → Prop) : Prop :=
  ∀ machine, before machine → EndsAs ended stopped (action machine)

namespace Ends

variable {before : Machine → Prop} {action : Engine α} {ended : α → Machine → Prop}
  {stopped : Signal → Machine → Prop}

theorem conseq {before' : Machine → Prop} {ended' : α → Machine → Prop}
    {stopped' : Signal → Machine → Prop} (hends : Ends before action ended stopped)
    (hbefore : ∀ machine, before' machine → before machine)
    (hended : ∀ result after, ended result after → ended' result after)
    (hstopped : ∀ reason after, stopped reason after → stopped' reason after) :
    Ends before' action ended' stopped' :=
  fun machine hstart ↦ (hends machine (hbefore machine hstart)).mono hended hstopped

theorem pure {result : α} (hended : ∀ machine, before machine → ended result machine) :
    Ends before (Pure.pure result) ended stopped :=
  fun machine hstart ↦ .ok (hended machine hstart)

theorem signal {reason : Signal} (hstopped : ∀ machine, before machine → stopped reason machine) :
    Ends before (Action.signal reason) ended stopped :=
  fun machine hstart ↦ .signal (hstopped machine hstart)

theorem exhausted : Ends before (Action.exhausted : Engine α) ended stopped :=
  fun _ _ ↦ .exhausted

theorem bind {middle : α → Machine → Prop} {next : α → Engine β} {finished : β → Machine → Prop}
    (hfirst : Ends before action middle stopped)
    (hnext : ∀ result, Ends (middle result) (next result) finished stopped) :
    Ends before (action >>= next) finished stopped := by
  intro machine hstart
  change EndsAs finished stopped (EStateM.bind action next machine)
  unfold EStateM.bind
  have hend := hfirst machine hstart
  generalize action machine = run at hend ⊢
  cases hend with
  | ok hmiddle => exact hnext _ _ hmiddle
  | signal hdone => exact .signal hdone
  | exhausted => exact .exhausted

/-- Go on after an attempt, knowing how the action has ended. -/
theorem attempt_bind {caller : Caller} {next : Except Signal α → Engine β}
    {finished : β → Machine → Prop} {halted : Signal → Machine → Prop}
    (haction : Ends before action ended stopped)
    (hended : ∀ result, Ends (ended result) (next (.ok result)) finished halted)
    (hstopped : ∀ reason, Ends (stopped reason) (next (.error reason)) finished halted) :
    Ends before (caller.attempt action >>= next) finished halted := by
  intro machine hstart
  change EndsAs finished halted (EStateM.bind (caller.attempt action) next machine)
  unfold EStateM.bind
  rw [Caller.attempt_apply]
  have hend := haction machine hstart
  generalize action machine = run at hend ⊢
  cases hend with
  | ok hdone => exact hended _ _ hdone
  | exhausted => exact .exhausted
  | signal hdone =>
    dsimp only
    split_ifs
    · exact hstopped _ _ hdone
    · exact .exhausted

theorem observe (caller : Caller) (event : Event) :
    Ends before (caller.observe event)
      (fun _ machine ↦ before machine ∧ caller.permits event machine = true) stopped := by
  intro machine hstart
  unfold Caller.observe
  by_cases hpermits : caller.permits event machine = true
  · rw [if_pos hpermits]
    exact .ok ⟨hstart, hpermits⟩
  · rw [if_neg hpermits]
    exact .exhausted

/-- Of two signals the earlier one is kept. -/
theorem keepFirst (caller : Caller) (first : Option Signal) (reason : Signal) :
    Ends before (caller.keepFirst first reason)
      (fun kept machine ↦ before machine ∧ kept = first.getD reason) stopped := by
  cases first with
  | none => exact pure fun machine hstart ↦ ⟨hstart, rfl⟩
  | some earlier =>
    exact bind (observe caller _) fun _ ↦ pure fun machine hstart ↦ ⟨hstart.1, rfl⟩

/-- A storage action that only reads leaves the machine as it is. -/
theorem reading {action : Storage α} (hreading : Storage.Reading action) :
    Ends before (liftM action)
      (fun result machine ↦ before machine ∧
        action machine.toStore = .ok result machine.toStore)
      stopped := by
  intro machine hstart
  obtain ⟨result, hrun, hlifted⟩ | hlifted := liftM_of_reading hreading machine
  · rw [hlifted]
    exact .ok ⟨hstart, hrun⟩
  · rw [hlifted]
    exact .exhausted

end Ends

/-! ### Laws -/

/-- A condition on machines, and the marks down to which the binding log may be unwound under it. -/
structure Law where
  holds : Machine → Prop
  within : BindingMark → Prop
  stored : ∀ {machine : Machine} (store : Store), holds machine →
    holds { machine with toStore := store }
  handled : ∀ {machine : Machine} (handlers : HandlerStack), holds machine →
    holds { machine with handlers := handlers }
  nested : ∀ {machine : Machine} (depth : Nat), holds machine →
    holds { machine with evalDepth := depth }
  received : ∀ {machine : Machine}, holds machine → holds machine.receiveQuit
  noticed : ∀ {machine : Machine}, holds machine → holds { machine with quitPending := false }
  /-- Counting, compiling and adding functions keep the law. -/
  background : ∀ {machine : Machine} (functions : Array Function) (interpreted compiled : Nat)
    (meter : Option Meter) (compiler : Option CompilerState), holds machine →
    holds { machine with
      functions := functions, interpretedCalls := interpreted, compiledCalls := compiled,
      meter := meter, compiler := compiler }
  logged : ∀ {machine : Machine} (entry : BindingEntry), holds machine →
    holds { machine with bindings := entry :: machine.bindings }
  taken : ∀ {machine : Machine} {entry : BindingEntry} {rest : BindingLog} {mark : BindingMark},
    within mark → machine.bindings = entry :: rest → mark ≤ rest.length → holds machine →
    holds { machine with bindings := rest }
  marked : ∀ {machine : Machine}, holds machine → within machine.bindings.length

/-- A throw is awaited by the handlers if there is a catch for its tag among them. Of other signals
nothing is asked. -/
def HandlerStack.Awaits (handlers : HandlerStack) : Signal → Prop
  | .thrown tag _ => handlers.hasCatch tag = true
  | .error _ _ | .fatal _ => True

namespace Law

variable {law : Law} {handlers : HandlerStack} {depth : Nat}

/-- The law holds of a machine with the given handlers, nested to a depth. -/
structure At (law : Law) (handlers : HandlerStack) (depth : Nat) (machine : Machine) : Prop where
  holds : law.holds machine
  handlers_eq : machine.handlers = handlers
  depth_eq : machine.evalDepth = depth

theorem At.with_handlers {machine : Machine} (hat : law.At handlers depth machine)
    (handlers' : HandlerStack) : law.At handlers' depth { machine with handlers := handlers' } :=
  { hat with holds := law.handled handlers' hat.holds, handlers_eq := rfl }

/-- The action keeps the law, the handlers and the depth, and every throw that leaves it is
awaited. -/
def Keeps (law : Law) (action : Engine α) : Prop :=
  ∀ handlers depth, Ends (law.At handlers depth) action (fun _ ↦ law.At handlers depth)
    (fun reason after ↦ law.At handlers depth after ∧ handlers.Awaits reason)

namespace Keeps

theorem pure (result : α) : law.Keeps (Pure.pure result) :=
  fun _ _ ↦ .pure fun _ hat ↦ hat

theorem exhausted : law.Keeps (Action.exhausted : Engine α) := fun _ _ ↦ .exhausted

theorem fault (reason : Fault) : law.Keeps (Action.fault reason : Engine α) :=
  fun _ _ ↦ .signal fun _ hat ↦ ⟨hat, trivial⟩

theorem bind {first : Engine α} {next : α → Engine β} (hfirst : law.Keeps first)
    (hnext : ∀ result, law.Keeps (next result)) : law.Keeps (first >>= next) :=
  fun handlers depth ↦ .bind (hfirst handlers depth) fun result ↦ hnext result handlers depth

theorem stored (action : Storage α) : law.Keeps (liftM action) := by
  intro handlers depth machine hat
  have hkept (store : Store) : law.At handlers depth { machine with toStore := store } :=
    { hat with holds := law.stored store hat.holds }
  rw [liftM_apply]
  cases action machine.toStore with
  | ok result store => exact .ok (hkept store)
  | error stop store =>
    cases stop with
    | signal reason => exact .signal ⟨hkept store, trivial⟩
    | exhausted => exact .exhausted

theorem observe (caller : Caller) (event : Event) : law.Keeps (caller.observe event) :=
  fun _ _ ↦ (Ends.observe caller event).conseq (fun _ hat ↦ hat) (fun _ _ hdone ↦ hdone.1)
    fun _ _ hdone ↦ hdone

theorem noticeQuit : law.Keeps Engine.noticeQuit := by
  intro handlers depth machine hat
  rw [noticeQuit_apply]
  have hreceived : law.At handlers depth machine.receiveQuit :=
    { hat with holds := law.received hat.holds }
  split_ifs with hquit
  · exact .signal ⟨{ hreceived with holds := law.noticed hreceived.holds }, trivial⟩
  · exact .ok hreceived

theorem checkpoint (backward : Bool) : law.Keeps (Engine.checkpoint backward) := by
  unfold Engine.checkpoint
  split_ifs
  · exact bind (stored _) fun _ ↦ noticeQuit
  · exact noticeQuit

/-- A throw is made only if some catch awaits it. -/
theorem throwTo (tag value : Value) : law.Keeps (Engine.throwTo tag value : Engine α) := by
  intro handlers depth machine hat
  rw [throwTo_apply, hat.handlers_eq]
  split_ifs with hcatch
  · exact .signal ⟨hat, hcatch⟩
  · exact stored (error Symbols.noCatch [tag, value] : Storage α) handlers depth machine hat

theorem logBinding (entry : BindingEntry) : law.Keeps (Engine.logBinding entry) :=
  fun _ _ _ hat ↦ .ok { hat with holds := law.logged entry hat.holds }

end Keeps

/-- A caller whose applications keep the law and that has no entries undone below the marks which
the law allows. -/
structure Obeyed (law : Law) (caller : Caller) : Prop where
  apply : ∀ function arguments, law.Keeps (caller.apply function arguments)
  unbinding : ∀ {machine : Machine} {count : Nat}, law.holds machine →
    caller.permits (.unbinding count) machine = true →
    law.within (machine.bindings.length - count)

/-! ### Unwinding -/

section Unwinding

variable {caller : Caller} (hobeyed : law.Obeyed caller)

include hobeyed

theorem keeps_eval (form : Value) : law.Keeps (caller.eval form) :=
  hobeyed.apply Symbols.eval [form]

theorem keeps_runUnwindForm (handler : Value) : law.Keeps (runUnwindForm caller handler) := by
  refine .bind (.stored _) fun store ↦ ?_
  split_ifs
  · exact .bind (hobeyed.apply handler []) fun _ ↦ .pure ()
  · exact .bind (.stored _) fun body ↦ .bind (keeps_eval hobeyed body) fun _ ↦ .pure ()

theorem keeps_undo (entry : BindingEntry) : law.Keeps (undo caller entry) := by
  cases entry with
  | unwindProtect handler => exact keeps_runUnwindForm hobeyed handler
  | restriction buffer bounds => cases bounds <;> exact .stored _
  | _ => exact .stored _

omit hobeyed in
theorem ends_takeBinding {mark : BindingMark} (hmark : law.within mark)
    {stopped : Signal → Machine → Prop} :
    Ends (law.At handlers depth) (takeBinding mark) (fun _ ↦ law.At handlers depth) stopped := by
  intro machine hat
  rw [takeBinding_apply]
  cases hlog : machine.bindings with
  | nil => exact .ok hat
  | cons entry rest =>
    by_cases hrest : mark ≤ rest.length
    · simp only [hrest, if_true]
      exact .ok { hat with holds := law.taken hmark hlog hrest hat.holds }
    · simp only [hrest, if_false]
      exact .ok hat

/-- The signal that an unwinding ends with was awaited, or was met on the way and is awaited. -/
theorem ends_unwindFrom {mark : BindingMark} (hmark : law.within mark) (rounds : Nat)
    {first : Option Signal} (hfirst : ∀ reason ∈ first, handlers.Awaits reason)
    {stopped : Signal → Machine → Prop} :
    Ends (law.At handlers depth) (unwindFrom caller mark rounds first)
      (fun met machine ↦ law.At handlers depth machine ∧ ∀ reason ∈ met, handlers.Awaits reason)
      stopped := by
  induction rounds generalizing first with
  | zero => exact .exhausted
  | succ rounds ih =>
    refine .bind (ends_takeBinding hmark) fun entry ↦ ?_
    cases entry with
    | none => exact .pure fun machine hat ↦ ⟨hat, hfirst⟩
    | some entry =>
      refine .attempt_bind (keeps_undo hobeyed entry handlers depth) (fun _ ↦ ih hfirst)
        fun reason machine hstopped ↦ ?_
      refine Ends.bind (.keepFirst caller first reason) (fun kept ↦ ?_) machine hstopped.1
      rintro machine' ⟨hat, rfl⟩
      refine ih (fun reason' hreason' ↦ ?_) machine' hat
      cases first with
      | none => exact Option.mem_some_iff.mp hreason' ▸ hstopped.2
      | some earlier => exact hfirst reason' hreason'

theorem keeps_unbindTo {mark : BindingMark} (hmark : law.within mark) :
    law.Keeps (unbindTo caller mark) := by
  intro handlers depth machine hat
  refine Ends.bind (ends_unwindFrom hobeyed hmark _ (by simp)) (fun met ↦ ?_) machine hat
  rintro machine' ⟨hat', hmet⟩
  cases met with
  | none => exact .ok hat'
  | some reason => exact .signal ⟨hat', hmet reason rfl⟩

theorem keeps_unbind (count : Nat) : law.Keeps (unbind caller count) := by
  intro handlers depth
  refine .bind (.observe caller (.unbinding count)) fun _ ↦ ?_
  rintro machine ⟨hat, hpermits⟩
  exact keeps_unbindTo hobeyed (hobeyed.unbinding hat.holds hpermits) handlers depth machine hat

/-- An action whose entries are undone afterwards, whatever it ended with. -/
theorem keeps_bracketed {action : Engine α} (haction : law.Keeps action) :
    law.Keeps (do let mark ← bindingMark; unwindingTo caller mark action) := by
  intro handlers depth machine hat
  have hmark : law.within machine.bindings.length := law.marked hat.holds
  change EndsAs _ _ (unwindingTo caller machine.bindings.length action machine)
  have hunbind := keeps_unbindTo hobeyed hmark handlers depth
  refine Ends.attempt_bind (haction handlers depth) (fun result ↦ ?_) (fun reason ↦ ?_) machine hat
  · exact .attempt_bind hunbind (fun _ ↦ .pure fun _ hat ↦ hat) fun later ↦ .signal fun _ hdone ↦
      hdone
  · rintro machine' ⟨hat', hawaited⟩
    refine Ends.attempt_bind hunbind (fun _ ↦ .signal fun _ hat ↦ ⟨hat, hawaited⟩) (fun later ↦ ?_)
      machine' hat'
    rintro machine'' ⟨hat'', -⟩
    refine Ends.bind (.keepFirst caller (some reason) later) (fun kept ↦ ?_) machine'' hat''
    exact .signal fun _ hdone ↦ ⟨hdone.1, hdone.2 ▸ hawaited⟩

end Unwinding

end Law

/-! ### Handlers that a signal passes by -/

/-- A signal goes to a handler, with all further in having missed it, or all have missed it. -/
theorem innermostMatch_eq_ok {signal : Signal} {conditions : List Value} {handlers : HandlerStack}
    {found : Option (Handler × HandlerStack)} {store : Store}
    (hrun : innermostMatch signal conditions handlers store = .ok found store) :
    ∃ inner : HandlerStack,
      (∀ handler ∈ inner, catchesSignal signal conditions handler store = .ok false store) ∧
      (found = none ∧ handlers = inner ∨
        ∃ handler outer, found = some (handler, outer) ∧ handlers = inner ++ handler :: outer) := by
  induction handlers with
  | nil =>
    cases hrun
    exact ⟨[], by simp, .inl ⟨rfl, rfl⟩⟩
  | cons first rest ih =>
    rw [innermostMatch] at hrun
    change EStateM.bind _ _ store = _ at hrun
    unfold EStateM.bind at hrun
    obtain ⟨catches, hcatches⟩ | hcatches :=
      Storage.Reading.catchesSignal signal conditions first store
    · rw [hcatches] at hrun
      cases catches with
      | true =>
        cases hrun
        exact ⟨[], by simp, .inr ⟨first, rest, rfl, rfl⟩⟩
      | false =>
        obtain ⟨inner, hinner, hfound⟩ := ih hrun
        refine ⟨first :: inner, ?_, ?_⟩
        · intro handler hmem
          rcases List.mem_cons.mp hmem with rfl | hmem
          · exact hcatches
          · exact hinner handler hmem
        · rcases hfound with ⟨hnone, hrest⟩ | ⟨handler, outer, hsome, hrest⟩
          · exact .inl ⟨hnone, congrArg _ hrest⟩
          · exact .inr ⟨handler, outer, hsome, congrArg _ hrest⟩
    · rw [hcatches] at hrun
      cases hrun

namespace HandlerStack

theorem hasCatch_append (inner outer : HandlerStack) (tag : Value) :
    HandlerStack.hasCatch (inner ++ outer) tag =
      (inner.hasCatch tag || outer.hasCatch tag) :=
  List.any_append

/-- Handlers that miss a signal do not await it: what awaits it lies further out. -/
theorem Awaits.of_missed {inner outer : HandlerStack} {signal : Signal} {conditions : List Value}
    {store : Store} (hawaits : HandlerStack.Awaits (inner ++ outer) signal)
    (hmissed : ∀ handler ∈ inner,
      catchesSignal signal conditions handler store = .ok false store) : outer.Awaits signal := by
  cases signal with
  | error | fatal => trivial
  | thrown tag value =>
    have hnone : inner.hasCatch tag = false := by
      unfold HandlerStack.hasCatch
      rw [List.any_eq_false]
      intro handler hmem hcatch
      rw [Bool.and_eq_true, beq_iff_eq] at hcatch
      have hcatches : catchesSignal (.thrown tag value) conditions handler store =
          .ok (handler.tag == tag) store := by
        unfold catchesSignal
        rw [hcatch.1]
        rfl
      rw [hmissed handler hmem, hcatch.2] at hcatches
      cases hcatches
    have hboth : (inner.hasCatch tag || outer.hasCatch tag) = true :=
      hasCatch_append inner outer tag ▸ hawaits
    rwa [hnone, Bool.false_or] at hboth

end HandlerStack

/-- A signal that propagates is awaited by the given handlers. -/
def Disposition.Awaited (low : HandlerStack) : Disposition → Prop
  | .propagate reason => low.Awaits reason
  | .resume _ _ => True

namespace Law

variable {law : Law} {low : HandlerStack} {depth : Nat} {pushes : Bool}

/-- The law holds of a machine that has handlers of its own above others, all of them with marks
that the law allows, and none unless `pushes` says so. -/
def Owned (law : Law) (pushes : Bool) (low : HandlerStack) (depth : Nat) (machine : Machine) :
    Prop :=
  ∃ own : HandlerStack, (∀ handler ∈ own, pushes = true ∧ law.within handler.mark) ∧
    law.At (own ++ low) depth machine

theorem At.owned {machine : Machine} (hat : law.At low depth machine) :
    law.Owned pushes low depth machine :=
  ⟨[], by simp, hat⟩

/-- A signal that no handler above `low` catches is awaited, if at all, by those in `low`. What is
found is one of the handlers above. -/
theorem ends_findHandler (own : HandlerStack) (reason : Signal)
    {stopped : Signal → Machine → Prop} :
    Ends (law.At (own ++ low) depth) (findHandler low.length reason)
      (fun found machine ↦ law.At (own ++ low) depth machine ∧
        match found with
        | none => HandlerStack.Awaits (own ++ low) reason → low.Awaits reason
        | some (handler, outer) =>
          ∃ inner own', own = inner ++ handler :: own' ∧ outer = own' ++ low)
      stopped := by
  refine .bind (.reading (.signalConditions reason)) fun conditions machine hstart ↦ ?_
  obtain ⟨hat, -⟩ := hstart
  change EndsAs _ _
    (EStateM.bind (liftM (innermostMatch reason conditions machine.handlers)) _ machine)
  rw [hat.handlers_eq]
  refine Ends.bind (.reading (innermostMatch_reading reason conditions (own ++ low)))
    (fun found ↦ ?_) machine hat
  rintro machine' ⟨hat', hrun⟩
  obtain ⟨inner, hmissed, ⟨rfl, hall⟩ | ⟨handler, outer, rfl, hsplit⟩⟩ := innermostMatch_eq_ok hrun
  · refine .ok ⟨hat', fun hawaits ↦ ?_⟩
    exact hawaits.of_missed fun handler hmem ↦ hmissed handler
      (hall ▸ List.mem_append_left low hmem)
  · dsimp only
    have hcases := List.append_eq_append_iff.mp hsplit
    split_ifs with habove
    · -- what was found lies above `low`, so the split of the stack falls within the own handlers
      refine .ok ⟨hat', ?_⟩
      rcases hcases with ⟨between, -, hlow⟩ | ⟨between, hown, hfound⟩
      · have hlength := congrArg List.length hlow
        simp only [List.length_append, List.length_cons] at hlength
        omega
      · cases between with
        | nil =>
          have hlength := congrArg List.length hfound
          simp only [List.nil_append, List.length_cons] at hlength
          omega
        | cons found own' =>
          obtain ⟨rfl, rfl⟩ := List.cons.inj hfound
          exact ⟨inner, own', hown, rfl⟩
    · refine .ok ⟨hat', fun hawaits ↦ hawaits.of_missed fun handler' hmem ↦ hmissed handler' ?_⟩
      rcases hcases with ⟨between, hinner, -⟩ | ⟨between, hown, hfound⟩
      · exact hinner ▸ List.mem_append_left between hmem
      · cases between with
        | nil => rwa [hown, List.append_nil] at hmem
        | cons found own' =>
          have hlength := congrArg List.length hfound
          simp only [List.cons_append, List.length_cons, List.length_append] at hlength
          omega

/-! ### Dispatching -/

theorem ends_truncateHandlers {stopped : Signal → Machine → Prop} :
    Ends (law.Owned pushes low depth) (truncateHandlers low.length) (fun _ ↦ law.At low depth)
      stopped := by
  rintro machine ⟨own, -, hat⟩
  have hlow : outermost low.length machine.handlers = low := by
    rw [hat.handlers_eq, outermost_append]
  refine .ok ⟨law.handled _ hat.holds, hlow, hat.depth_eq⟩

section Handling

variable {caller : Caller} (hobeyed : law.Obeyed caller)

include hobeyed

/-- A signal that is awaited goes to a handler above `low`, or propagates and is awaited in `low`.
-/
theorem ends_dispatchWithin (rounds : Nat) (reason : Signal)
    {stopped : Signal → Machine → Prop} :
    Ends (fun machine ↦ law.Owned pushes low depth machine ∧ machine.handlers.Awaits reason)
      (dispatchWithin caller low.length rounds reason)
      (fun disposition machine ↦ law.Owned pushes low depth machine ∧ disposition.Awaited low)
      stopped := by
  induction rounds generalizing reason with
  | zero => exact .exhausted
  | succ rounds ih =>
    rintro machine ⟨⟨own, hmarks, hat⟩, hawaits⟩
    rw [hat.handlers_eq] at hawaits
    refine Ends.bind (ends_findHandler own reason) (fun found ↦ ?_) machine hat
    rintro machine' ⟨hat', hfound⟩
    cases found with
    | none => exact .ok ⟨⟨own, hmarks, hat'⟩, hfound hawaits⟩
    | some parts =>
      obtain ⟨handler, outer⟩ := parts
      obtain ⟨inner, own', rfl, rfl⟩ := hfound
      have hmark : law.within handler.mark := (hmarks handler (by simp)).2
      have hmarks' : ∀ handler ∈ own', pushes = true ∧ law.within handler.mark :=
        fun handler hmem ↦ hmarks handler (by simp [hmem])
      refine Ends.bind (.observe caller (.catching reason handler.tag)) (fun _ ↦ ?_) machine' hat'
      rintro machine' ⟨hat', -⟩
      refine Ends.attempt_bind (keeps_unbindTo hobeyed hmark (own' ++ low) depth) (fun _ ↦ ?_)
        (fun next ↦ ?_) _ (hat'.with_handlers (own' ++ low))
      · intro machine'' hat''
        cases reason with
        | error symbol data =>
          exact .ok ⟨⟨own', hmarks', { hat'' with holds := law.stored _ hat''.holds }⟩, trivial⟩
        | thrown tag value => exact .ok ⟨⟨own', hmarks', hat''⟩, trivial⟩
        | fatal fault => exact .ok ⟨⟨own', hmarks', hat''⟩, trivial⟩
      · rintro machine'' ⟨hat'', hnext⟩
        exact ih next machine'' ⟨⟨own', hmarks', hat''⟩, hat''.handlers_eq ▸ hnext⟩

theorem ends_dispatch (reason : Signal) {stopped : Signal → Machine → Prop} :
    Ends (fun machine ↦ law.Owned pushes low depth machine ∧ machine.handlers.Awaits reason)
      (dispatch caller low.length reason)
      (fun disposition machine ↦ law.Owned pushes low depth machine ∧ disposition.Awaited low)
      stopped :=
  fun machine hstart ↦ ends_dispatchWithin hobeyed _ reason machine hstart

/-- A body under a handler that returns to the primitive that set it up. -/
theorem keeps_withHandler (kind : HandlerKind) (tag : Value) {body : Engine Value}
    (hbody : law.Keeps body) : law.Keeps (withHandler caller kind tag body) := by
  rintro _ _ machine ⟨hholds, rfl, rfl⟩
  let low := machine.handlers
  let handler : Handler := ⟨tag, kind, 0, machine.bindings.length, .host⟩
  have hmarks : ∀ own ∈ [handler], true = true ∧ law.within own.mark := by
    intro own hmem
    rw [List.mem_singleton.mp hmem]
    exact ⟨rfl, law.marked hholds⟩
  have hpushed : law.At (handler :: low) machine.evalDepth
      { machine with handlers := handler :: low } := ⟨law.handled _ hholds, rfl, rfl⟩
  have hdrop : Ends (law.Owned true low machine.evalDepth) (truncateHandlers low.length)
      (fun _ ↦ law.At low machine.evalDepth)
      (fun reason after ↦ law.At low machine.evalDepth after ∧ low.Awaits reason) :=
    ends_truncateHandlers
  refine Ends.attempt_bind (hbody (handler :: low) machine.evalDepth) (fun value ↦ ?_)
    (fun reason ↦ ?_) _ hpushed
  · intro machine' hat
    refine Ends.bind hdrop (fun _ ↦ ?_) machine' ⟨[handler], hmarks, hat⟩
    exact .pure fun _ hat ↦ hat
  · rintro machine' ⟨hat, hawaits⟩
    refine Ends.bind (ends_dispatch hobeyed reason) (fun disposition ↦ ?_) machine'
      ⟨⟨[handler], hmarks, hat⟩, hat.handlers_eq ▸ hawaits⟩
    rintro machine'' ⟨howned, hawaited⟩
    refine Ends.bind hdrop (fun _ ↦ ?_) machine'' howned
    cases disposition with
    | resume handler payload => exact .pure fun _ hat ↦ hat
    | propagate reason => exact .signal fun _ hat ↦ ⟨hat, hawaited⟩

end Handling

end Law

/-- An action that is put together from parts keeps every law that its caller obeys. -/
theorem Composed.keeps {law : Law} {caller : Caller} (hobeyed : law.Obeyed caller) {use : LogUse}
    {action : Caller → Engine α} (hcomposed : Composed use action) : law.Keeps (action caller) := by
  induction hcomposed with
  | pure result => exact .pure result
  | stored action => exact .stored action
  | exhausted => exact .exhausted
  | fault reason => exact .fault reason
  | bind _ _ hfirst hnext => exact .bind hfirst hnext
  | growing _ ih => exact ih
  | freely _ ih => exact ih
  | rounds _ ih => exact ih caller.rounds
  | apply function arguments => exact hobeyed.apply function arguments
  | checkpoint backward => exact .checkpoint backward
  | throwing tag value => exact .throwTo tag value
  | logging entry => exact .logBinding entry
  | unbinding count => exact Law.keeps_unbind hobeyed count
  | bracketed _ ih => exact Law.keeps_bracketed hobeyed ih
  | caught kind tag _ ih => exact Law.keeps_withHandler hobeyed kind tag ih

end LispMachine
