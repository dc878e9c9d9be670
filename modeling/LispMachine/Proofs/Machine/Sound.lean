import LispMachine.Proofs.Run.Agreement
import LispMachine.Proofs.Store.Computing
import LispMachine.Proofs.Store.Editing

/-!
Sound machines, and the actions of a machine that keep it sound. A machine is sound when its store
is and nothing dangles in what it keeps besides: functions, bindings to undo and handlers
(`Machine.Sound`).

`Engine.Upholds world first second gives` compares two actions. From every sound machine whose store
has grown out of `world` the second action does exactly what the first does, and they end, in
whichever way, in a sound machine whose store has grown further. The two actions are the same action
for two callers that differ in their watch. That they do the same says that the watches tell no
difference, so one that stops a run as soon as something dangles never stops a run.
-/

set_option autoImplicit false

namespace LispMachine

open LispMachine.Action Storage

variable {α β : Type}

/-! ### What a machine holds -/

/-- The values in the slots of an operand stack, also in those that were popped. -/
def OperandStack.held (stack : OperandStack) : List Value := stack.live ++ stack.spent

/-- The values that stand in a piece of native code. -/
def NativeOperation.values : NativeOperation → List Value
  | .push value | .readVariable value | .writeVariable value | .bindVariable value => [value]
  | _ => []

/-- The values that stand in native code. -/
def NativeCode.values (code : NativeCode) : List Value :=
  code.steps.toList.flatMap fun step => step.operation.values

def Parameters.values : Parameters → List Value
  | .template _ => []
  | .dynamic symbols => symbols

/-- The values that belong to a function: its constants, its parameters and what stands in its
native code. -/
def Function.values (function : Function) : List Value :=
  function.constants.toList ++ function.parameters.values ++
    function.compiled.toList.flatMap fun code => code.native.values

/-- The values in an entry of the binding log, with the symbol whose binding it undoes. -/
def BindingEntry.values : BindingEntry → List Value
  | .binding symbol old => .symbol symbol :: old.toList
  | .unwindProtect handler => [handler]
  | .excursion _ point => [point]
  | .restriction _ (some (low, high)) => [low, high]
  | .restriction _ none | .currentBuffer _ => []

/-- The values that an event is about. -/
def Event.values : Event → List Value
  | .applying function arguments => function :: arguments
  | .interpreting _ stack => stack.held
  | .executing operation stack => operation.values ++ stack.held
  | .overdrawing _ | .unbinding _ => []
  | .stopping reason => reason.values
  | .dropping reason kept => reason.values ++ kept.values
  | .catching reason tag => tag :: reason.values

/-- Undoing the entry gives a value to a symbol that is no constant, or goes back to a buffer that
exists. -/
def BindingEntry.Undoable (entry : BindingEntry) (store : Store) : Prop :=
  match entry with
  | .binding symbol _ => store.Changeable symbol
  | .excursion buffer _ | .currentBuffer buffer => store.HasBuffer buffer
  | .unwindProtect _ | .restriction _ _ => True

/-- The store is sound and has a buffer, and nothing dangles in the functions, the binding log and
the handlers. -/
structure Machine.Sound (machine : Machine) : Prop where
  store : machine.toStore.Sound
  scratch : machine.toStore.HasBuffer 0
  functions : ∀ function ∈ machine.functions, AllKnownTo function.values machine.toStore
  bindings : ∀ entry ∈ machine.bindings, AllKnownTo entry.values machine.toStore
  undoable : ∀ entry ∈ machine.bindings, entry.Undoable machine.toStore
  handlers : ∀ handler ∈ machine.handlers, handler.tag.KnownTo machine.toStore

theorem Store.Grows.undoable {before after : Store} (hgrows : before.Grows after)
    {entry : BindingEntry} (hundoable : entry.Undoable before) : entry.Undoable after := by
  cases entry with
  | binding => exact hgrows.changeable hundoable
  | excursion | currentBuffer => exact hgrows.hasBuffer hundoable
  | unwindProtect | restriction => trivial

namespace Machine.Sound

variable {machine : Machine} (hsound : machine.Sound)

include hsound

/-- The store has grown. -/
theorem with_store {store : Store} (hgrows : machine.toStore.Grows store) (hstore : store.Sound) :
    { machine with toStore := store : Machine }.Sound where
  store := hstore
  scratch := hgrows.hasBuffer hsound.scratch
  functions function hmem := hgrows.allKnown (hsound.functions function hmem)
  bindings entry hmem := hgrows.allKnown (hsound.bindings entry hmem)
  undoable entry hmem := hgrows.undoable (hsound.undoable entry hmem)
  handlers handler hmem := hgrows.known (hsound.handlers handler hmem)

theorem function (id : Nat) :
    AllKnownTo (machine.functions.getD id default).values machine.toStore := by
  rw [Array.getD_eq_getD_getElem?]
  cases hfunction : machine.functions[id]? with
  | none => exact .nil
  | some function => exact hsound.functions function (Array.mem_of_getElem? hfunction)

end Machine.Sound

namespace Engine

/-! ### Ending in a sound machine -/

/-- A run from a sound machine ends in a sound machine whose store has grown. -/
inductive EndsSound (start : Machine) (gives : α → Store → Prop) :
    EStateM.Result (Stop Signal) Machine α → Prop where
  | ok {result : α} {after : Machine} (hgrows : start.toStore.Grows after.toStore)
      (hsound : after.Sound) (hgives : gives result after.toStore) :
      EndsSound start gives (.ok result after)
  | signal {reason : Signal} {after : Machine} (hgrows : start.toStore.Grows after.toStore)
      (hsound : after.Sound) (hreason : AllKnownTo reason.values after.toStore) :
      EndsSound start gives (.error (.signal reason) after)
  | exhausted {resource : Resource} {after : Machine}
      (hgrows : start.toStore.Grows after.toStore) (hsound : after.Sound) :
      EndsSound start gives (.error (.exhausted resource) after)

/-- From a machine the second action does what the first does, which ends in a sound machine. -/
def UpholdsAt (machine : Machine) (first second : Engine α) (gives : α → Store → Prop) : Prop :=
  second machine = first machine ∧ EndsSound machine gives (first machine)

/-- From every sound machine whose store has grown out of a world, the second action does what the
first does, which ends in a sound machine. -/
def Upholds (world : Store) (first second : Engine α) (gives : α → Store → Prop) : Prop :=
  ∀ machine : Machine, world.Grows machine.toStore → machine.Sound →
    UpholdsAt machine first second gives

/-! ### Rules -/

theorem EndsSound.trans {start middle : Machine} {gives : α → Store → Prop}
    {run : EStateM.Result (Stop Signal) Machine α} (hend : EndsSound middle gives run)
    (hgrows : start.toStore.Grows middle.toStore) : EndsSound start gives run := by
  cases hend with
  | ok hlater hsound hgives => exact .ok (hgrows.trans hlater) hsound hgives
  | signal hlater hsound hreason => exact .signal (hgrows.trans hlater) hsound hreason
  | exhausted hlater hsound => exact .exhausted (hgrows.trans hlater) hsound

namespace UpholdsAt

variable {machine : Machine} {first second : Engine α} {gives : α → Store → Prop}

theorem bind {next next' : α → Engine β} {gives' : β → Store → Prop}
    (hfirst : UpholdsAt machine first second gives)
    (hnext : ∀ result later, machine.toStore.Grows later → later.Sound → gives result later →
      Upholds later (next result) (next' result) gives') :
    UpholdsAt machine (first >>= next) (second >>= next') gives' := by
  obtain ⟨hsame, hend⟩ := hfirst
  change EStateM.bind second next' machine = EStateM.bind first next machine ∧
    EndsSound machine gives' (EStateM.bind first next machine)
  unfold EStateM.bind
  rw [hsame]
  generalize first machine = run at hend ⊢
  cases hend with
  | signal hgrows hsound hreason => exact ⟨rfl, .signal hgrows hsound hreason⟩
  | exhausted hgrows hsound => exact ⟨rfl, .exhausted hgrows hsound⟩
  | @ok result after hgrows hsound hgives =>
    have hlater := hnext result after.toStore hgrows hsound.store hgives after (.refl _) hsound
    exact ⟨hlater.1, hlater.2.trans hgrows⟩

end UpholdsAt

namespace Upholds

variable {world : Store} {first second : Engine α} {gives : α → Store → Prop}

theorem later {store : Store} (haction : Upholds world first second gives)
    (hgrows : world.Grows store) : Upholds store first second gives :=
  fun machine hmachine hsound ↦ haction machine (hgrows.trans hmachine) hsound

/-- The world may be taken to be the store of the machine in which the actions start. -/
theorem here (haction : ∀ machine : Machine, world.Grows machine.toStore → machine.Sound →
      Upholds machine.toStore first second gives) : Upholds world first second gives :=
  fun machine hgrows hsound ↦ haction machine hgrows hsound machine (.refl _) hsound

theorem bind {next next' : α → Engine β} {gives' : β → Store → Prop}
    (hfirst : Upholds world first second gives)
    (hnext : ∀ result later, world.Grows later → later.Sound → gives result later →
      Upholds later (next result) (next' result) gives') :
    Upholds world (first >>= next) (second >>= next') gives' :=
  fun machine hgrows hsound ↦ (hfirst machine hgrows hsound).bind fun result later hlater hafter ↦
    hnext result later (hgrows.trans hlater) hafter

theorem pure {result : α} (hgives : ∀ store, world.Grows store → store.Sound → gives result store) :
    Upholds world (Pure.pure result) (Pure.pure result) gives :=
  fun _ hgrows hsound ↦ ⟨rfl, .ok (.refl _) hsound (hgives _ hgrows hsound.store)⟩

theorem value {value : Value} (hvalue : value.KnownTo world) :
    Upholds world (Pure.pure value) (Pure.pure value) Value.KnownTo :=
  pure fun _ hgrows _ ↦ hgrows.known hvalue

theorem nil : Upholds world (Pure.pure Value.nil) (Pure.pure Value.nil) Value.KnownTo :=
  pure fun _ _ hsound ↦ hsound.known_nil

theorem done {result : α} : Upholds world (Pure.pure result) (Pure.pure result) Anything :=
  pure fun _ _ _ ↦ trivial

theorem signal {reason : Signal} (hreason : AllKnownTo reason.values world) :
    Upholds world (Action.signal reason) (Action.signal reason) gives :=
  fun _ hgrows hsound ↦ ⟨rfl, .signal (.refl _) hsound (hgrows.allKnown hreason)⟩

theorem fault (reason : Fault) :
    Upholds world (Action.fault reason) (Action.fault reason) gives :=
  signal .nil

theorem exhausted : Upholds world Action.exhausted Action.exhausted gives :=
  fun _ _ hsound ↦ ⟨rfl, .exhausted (.refl _) hsound⟩

theorem oversized : Upholds world Action.oversized Action.oversized gives :=
  fun _ _ hsound ↦ ⟨rfl, .exhausted (.refl _) hsound⟩

theorem sized (count : Option α) :
    Upholds world (Action.sized count) (Action.sized count) Anything := by
  cases count with
  | some count => exact pure fun _ _ _ ↦ trivial
  | none => exact oversized

theorem ofFaulty {result : Except Fault α}
    (hok : ∀ value, result = .ok value → ∀ store, world.Grows store → gives value store) :
    Upholds world (Action.ofFaulty result) (Action.ofFaulty result) gives := by
  cases result with
  | ok value => exact pure fun store hgrows _ ↦ hok value rfl store hgrows
  | error reason => exact fault reason

/-- A storage action as one of the machine. -/
theorem stored {action : Storage α} (haction : Storage.Upholds world action gives) :
    Upholds world (liftM action) (liftM action) gives := by
  intro machine hgrows hsound
  refine ⟨rfl, ?_⟩
  rw [liftM_apply]
  have hend := haction machine.toStore hgrows hsound.store
  generalize action machine.toStore = run at hend ⊢
  cases hend with
  | ok hlater hafter hgives => exact .ok hlater (hsound.with_store hlater hafter) hgives
  | signal hlater hafter hsymbol hdata =>
    exact .signal hlater (hsound.with_store hlater hafter) (.pair hsymbol hdata)
  | exhausted hlater hafter => exact .exhausted hlater (hsound.with_store hlater hafter)

/-- Go on with what an action has read from the machine. -/
theorem reading_bind {action : Engine α} {read : Machine → α} {next next' : α → Engine β}
    {gives' : β → Store → Prop} (hreads : ∀ machine, action machine = .ok (read machine) machine)
    (hnext : ∀ machine : Machine, world.Grows machine.toStore → machine.Sound →
      UpholdsAt machine (next (read machine)) (next' (read machine)) gives') :
    Upholds world (action >>= next) (action >>= next') gives' := by
  intro machine hgrows hsound
  change EStateM.bind action next' machine = EStateM.bind action next machine ∧
    EndsSound machine gives' (EStateM.bind action next machine)
  unfold EStateM.bind
  rw [hreads]
  exact hnext machine hgrows hsound

/-- The machine itself is changed. -/
theorem changing {action : Engine α} {result : Machine → α} {change : Machine → Machine}
    (hrun : ∀ machine, action machine = .ok (result machine) (change machine))
    (hchange : ∀ machine : Machine, world.Grows machine.toStore → machine.Sound →
      (change machine).Sound ∧ machine.toStore.Grows (change machine).toStore ∧
        gives (result machine) (change machine).toStore) :
    Upholds world action action gives := by
  intro machine hgrows hsound
  obtain ⟨hafter, hlater, hgives⟩ := hchange machine hgrows hsound
  refine ⟨rfl, ?_⟩
  rw [hrun]
  exact .ok hlater hafter hgives

theorem at_start {machine : Machine} (haction : Upholds machine.toStore first second gives)
    (hsound : machine.Sound) : UpholdsAt machine first second gives :=
  haction machine (.refl _) hsound

end Upholds

end Engine

/-! ### Callers -/

/-- Two callers that take the same number of rounds, apply functions to known values in the same way
and permit the same events as long as nothing dangles. -/
structure SoundCallers (caller companion : Caller) : Prop where
  rounds : companion.rounds = caller.rounds
  apply : ∀ {world : Store} {function : Value} {arguments : List Value}, function.KnownTo world →
    AllKnownTo arguments world → Engine.Upholds world (caller.apply function arguments)
      (companion.apply function arguments) Value.KnownTo
  permits : ∀ {event : Event} {machine : Machine}, AllKnownTo event.values machine.toStore →
    machine.Sound → companion.permits event machine = caller.permits event machine

namespace Engine.Upholds

variable {caller companion : Caller} (hcallers : SoundCallers caller companion) {world : Store}

include hcallers

theorem apply {function : Value} {arguments : List Value} (hfunction : function.KnownTo world)
    (harguments : AllKnownTo arguments world) :
    Upholds world (caller.apply function arguments) (companion.apply function arguments)
      Value.KnownTo :=
  hcallers.apply hfunction harguments

theorem eval {form : Value} (hform : form.KnownTo world) :
    Upholds world (caller.eval form) (companion.eval form) Value.KnownTo :=
  here fun _ hgrows hsound ↦
    apply hcallers (hsound.store.builtin rfl) (.cons (hgrows.known hform) .nil)

theorem observe {event : Event} (hevent : AllKnownTo event.values world) :
    Upholds world (caller.observe event) (companion.observe event) Anything := by
  intro machine hgrows hsound
  unfold UpholdsAt Caller.observe
  rw [hcallers.permits (hgrows.allKnown hevent) hsound]
  refine ⟨rfl, ?_⟩
  split_ifs
  · exact .ok (.refl _) hsound trivial
  · exact .exhausted (.refl _) hsound

/-- The condition of what an attempt gives: the condition of a result, and that a signal refers to
nothing that is not there. -/
def AttemptGives (gives : α → Store → Prop) (attempted : Except Signal α) (after : Store) : Prop :=
  match attempted with
  | .ok result => gives result after
  | .error reason => AllKnownTo reason.values after

/-- Go on after an attempt. -/
theorem attempt_bind {first second : Engine α} {gives : α → Store → Prop}
    {next next' : Except Signal α → Engine β} {gives' : β → Store → Prop}
    (haction : Upholds world first second gives)
    (hok : ∀ result later, world.Grows later → later.Sound → gives result later →
      Upholds later (next (.ok result)) (next' (.ok result)) gives')
    (herror : ∀ reason later, world.Grows later → later.Sound → AllKnownTo reason.values later →
      Upholds later (next (.error reason)) (next' (.error reason)) gives') :
    Upholds world (caller.attempt first >>= next) (companion.attempt second >>= next') gives' := by
  have hattempt : Upholds world (caller.attempt first) (companion.attempt second)
      (AttemptGives gives) := by
    intro machine hgrows hsound
    obtain ⟨hsame, hend⟩ := haction machine hgrows hsound
    unfold UpholdsAt
    rw [Caller.attempt_apply, Caller.attempt_apply, hsame]
    generalize first machine = run at hend ⊢
    cases hend with
    | ok hlater hsound hgives => exact ⟨rfl, .ok hlater hsound hgives⟩
    | exhausted hlater hsound => exact ⟨rfl, .exhausted hlater hsound⟩
    | signal hlater hsound hreason =>
      dsimp only
      have hpermits : companion.permits (.stopping _) _ = caller.permits (.stopping _) _ :=
        hcallers.permits hreason hsound
      rw [hpermits]
      refine ⟨rfl, ?_⟩
      split_ifs
      · exact .ok hlater hsound hreason
      · exact .exhausted hlater hsound
  refine bind hattempt fun result later hgrows hsound hdone ↦ ?_
  cases result with
  | ok result => exact hok result later hgrows hsound hdone
  | error reason => exact herror reason later hgrows hsound hdone

theorem keepFirst {earlier : Option Signal} {reason : Signal}
    (hearlier : ∀ signal ∈ earlier, AllKnownTo signal.values world)
    (hreason : AllKnownTo reason.values world) :
    Upholds world (caller.keepFirst earlier reason) (companion.keepFirst earlier reason)
      fun kept ↦ AllKnownTo kept.values := by
  cases earlier with
  | none => exact pure fun _ hgrows _ ↦ hgrows.allKnown hreason
  | some kept =>
    have hkept := hearlier kept rfl
    exact bind (observe hcallers (hreason.append hkept)) fun _ _ hlater _ _ ↦
      pure fun _ hgrows _ ↦ hgrows.allKnown (hlater.allKnown hkept)

theorem checked {result : Except Fault α} {gives : α → Store → Prop}
    (hok : ∀ value, result = .ok value → ∀ store, world.Grows store → gives value store) :
    Upholds world (caller.checked result) (companion.checked result) gives := by
  cases result with
  | ok value => exact pure fun store hgrows _ ↦ hok value rfl store hgrows
  | error reason => exact bind (observe hcallers .nil) fun _ _ _ _ _ ↦ fault reason

end Engine.Upholds

end LispMachine
