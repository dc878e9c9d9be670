import LispMachine.Proofs.Run.Composed
import LispMachine.Proofs.Run.Coupled
import Mathlib.Data.List.Forall2

/-!
Two machines that run together. They have the same store, binding log and pending quit, they are
nested equally deep, and their handlers are alike, which means that they differ at most in where
execution goes on. What else belongs to a machine (`Background`) is tied by a `Bond`, which programs
do not notice. `Agree` says that two actions keep machines together: they give the same result or
signal, leave the handlers as they were, and change the length of the log as they may.

The main statement is `Composed.agree`: an action that is put together from the parts of a run
agrees with itself under two callers that are companions, that is, whose applications agree.
-/

set_option autoImplicit false

namespace LispMachine

open LispMachine.Action Storage Engine

/-! ### Machines together -/

/-- What a machine has that programs neither change nor see. -/
structure Background where
  settings : Settings
  functions : Array Function
  interpretedCalls : Nat
  compiledCalls : Nat
  meter : Option Meter
  compiler : Option CompilerState

/-- The background of a machine. -/
def Machine.background (machine : Machine) : Background :=
  ⟨machine.settings, machine.functions, machine.interpretedCalls, machine.compiledCalls,
    machine.meter, machine.compiler⟩

/-- A tie between the backgrounds of two machines that are nested to a depth. It holds on when both
machines are nested deeper, within the limit, or less deep, when both count the same, and when a
function that has not been compiled is added to both. -/
structure Bond where
  ties : Nat → Background → Background → Prop
  settings_eq : ∀ {depth left right}, ties depth left right → left.settings = right.settings
  size_eq : ∀ {depth left right}, ties depth left right →
    left.functions.size = right.functions.size
  deeper : ∀ {depth left right}, ties depth left right →
    depth < left.settings.maxEvalDepth → ties (depth + 1) left right
  shallower : ∀ {depth left right}, ties (depth + 1) left right → ties depth left right
  metered : ∀ {depth left right} (record : Meter → Meter), ties depth left right →
    ties depth { left with meter := left.meter.map record }
      { right with meter := right.meter.map record }
  interpreted : ∀ {depth left right}, ties depth left right →
    ties depth { left with interpretedCalls := left.interpretedCalls + 1 }
      { right with interpretedCalls := right.interpretedCalls + 1 }
  compiled : ∀ {depth left right}, ties depth left right →
    ties depth { left with compiledCalls := left.compiledCalls + 1 }
      { right with compiledCalls := right.compiledCalls + 1 }
  added : ∀ {depth left right} (function : Function), function.compiled = none →
    ties depth left right →
    ties depth { left with functions := left.functions.push function }
      { right with functions := right.functions.push function }

/-- Two handlers differ at most in where execution goes on. -/
structure Handler.Alike (left right : Handler) : Prop where
  tag : left.tag = right.tag
  kind : left.kind = right.kind
  depth : left.depth = right.depth
  mark : left.mark = right.mark

theorem Handler.Alike.refl (handler : Handler) : handler.Alike handler := ⟨rfl, rfl, rfl, rfl⟩

/-- Two handler stacks are alike. -/
abbrev HandlerStack.Alike (ours theirs : HandlerStack) : Prop :=
  List.Forall₂ Handler.Alike ours theirs

theorem HandlerStack.Alike.refl (handlers : HandlerStack) : handlers.Alike handlers :=
  List.forall₂_same.mpr fun handler _ ↦ Handler.Alike.refl handler

/-- Two machines run together, with the given handlers, nested to a depth. -/
structure Together (bond : Bond) (ours theirs : HandlerStack) (depth : Nat)
    (left right : Machine) : Prop where
  store : left.toStore = right.toStore
  bindings : left.bindings = right.bindings
  quitPending : left.quitPending = right.quitPending
  arrivals : left.arrivals = right.arrivals
  left_depth : left.evalDepth = depth
  right_depth : right.evalDepth = depth
  left_handlers : left.handlers = ours
  right_handlers : right.handlers = theirs
  tied : bond.ties depth left.background right.background

namespace Together

variable {bond : Bond} {ours theirs : HandlerStack} {depth : Nat} {left right : Machine}

theorem with_store (htogether : Together bond ours theirs depth left right) (store : Store) :
    Together bond ours theirs depth { left with toStore := store }
      { right with toStore := store } :=
  { htogether with store := rfl }

theorem with_bindings (htogether : Together bond ours theirs depth left right)
    {log log' : BindingLog} (hlog : log = log') :
    Together bond ours theirs depth { left with bindings := log }
      { right with bindings := log' } :=
  { htogether with bindings := hlog }

theorem with_quitPending (htogether : Together bond ours theirs depth left right)
    (pending : Bool) :
    Together bond ours theirs depth { left with quitPending := pending }
      { right with quitPending := pending } :=
  { htogether with quitPending := rfl }

theorem received (htogether : Together bond ours theirs depth left right) :
    Together bond ours theirs depth left.receiveQuit right.receiveQuit :=
  { htogether with
    quitPending := by
      unfold Machine.receiveQuit
      rw [htogether.quitPending, htogether.arrivals]
    arrivals := congrArg List.tail htogether.arrivals }

theorem with_handlers (htogether : Together bond ours theirs depth left right)
    {handlers handlers' ours' theirs' : HandlerStack} (hours : handlers = ours')
    (htheirs : handlers' = theirs') :
    Together bond ours' theirs' depth { left with handlers := handlers }
      { right with handlers := handlers' } :=
  { htogether with left_handlers := hours, right_handlers := htheirs }

end Together

/-! ### Agreement -/

/-- How the length of the log may change in an action that gives a result. -/
def LogUse.Ended : LogUse → Nat → Nat → Prop
  | .balanced, before, after => after = before
  | .growing, before, after => before ≤ after
  | .free, _, _ => True

/-- How the length of the log may change in an action that stops with a signal. -/
def LogUse.Stopped : LogUse → Nat → Nat → Prop
  | .balanced, before, after => after ≤ before
  | .growing, _, _ => True
  | .free, _, _ => True

namespace LogUse

theorem ended_refl (use : LogUse) (length : Nat) : use.Ended length length := by
  cases use with
  | balanced => exact rfl
  | growing => exact Nat.le_refl length
  | free => trivial

theorem stopped_refl (use : LogUse) (length : Nat) : use.Stopped length length := by
  cases use with
  | balanced => exact Nat.le_refl length
  | growing | free => trivial

theorem ended_trans (use : LogUse) {before between after : Nat} (hfirst : use.Ended before between)
    (hnext : use.Ended between after) : use.Ended before after := by
  cases use with
  | balanced => exact Eq.trans hnext hfirst
  | growing => exact Nat.le_trans hfirst hnext
  | free => trivial

theorem stopped_trans (use : LogUse) {before between after : Nat}
    (hfirst : use.Ended before between) (hnext : use.Stopped between after) :
    use.Stopped before after := by
  cases use with
  | balanced => exact Nat.le_trans hnext (Nat.le_of_eq hfirst)
  | growing | free => trivial

end LogUse

variable {α β : Type}

/-- Two actions keep machines together, and the lengths of the log before and after them are
related as the two conditions say. -/
def Agree (bond : Bond) (ended stopped : Nat → Nat → Prop) (first second : Engine α) : Prop :=
  ∀ ours theirs depth length, HandlerStack.Alike ours theirs →
    Coupled
      (fun left right ↦ Together bond ours theirs depth left right ∧
        left.bindings.length = length)
      first second
      (fun a b left right ↦ a = b ∧ Together bond ours theirs depth left right ∧
        ended length left.bindings.length)
      (fun _ left right ↦ Together bond ours theirs depth left right ∧
        stopped length left.bindings.length)

/-- Two actions keep machines together and use the log in one of the ways that composed actions
have. -/
abbrev AgreeAs (bond : Bond) (use : LogUse) (first second : Engine α) : Prop :=
  Agree bond use.Ended use.Stopped first second

namespace Agree

variable {bond : Bond} {ended stopped : Nat → Nat → Prop} {first second : Engine α}

theorem conseq {ended' stopped' : Nat → Nat → Prop} (hagree : Agree bond ended stopped first second)
    (hended : ∀ before after, ended before after → ended' before after)
    (hstopped : ∀ before after, stopped before after → stopped' before after) :
    Agree bond ended' stopped' first second :=
  fun ours theirs depth length halike ↦ (hagree ours theirs depth length halike).conseq
    (fun _ _ hstart ↦ hstart) (fun _ _ _ _ hdone ↦ ⟨hdone.1, hdone.2.1, hended _ _ hdone.2.2⟩)
    (fun _ _ _ hdone ↦ ⟨hdone.1, hstopped _ _ hdone.2⟩)

theorem pure (result : α) (hended : ∀ length, ended length length) :
    Agree bond ended stopped (Pure.pure result) (Pure.pure result) :=
  fun _ _ _ length _ ↦ Coupled.pure fun _ _ hstart ↦
    ⟨rfl, hstart.1, hstart.2 ▸ hended length⟩

theorem exhausted : Agree bond ended stopped (Action.exhausted : Engine α) second :=
  fun _ _ _ _ _ ↦ Coupled.exhausted

theorem stored (action : Storage α) (hended : ∀ length, ended length length)
    (hstopped : ∀ length, stopped length length) :
    Agree bond ended stopped (liftM action) (liftM action) := by
  rintro ours theirs depth length halike left right ⟨htogether, hlength⟩
  rw [liftM_apply, liftM_apply, ← htogether.store]
  cases action left.toStore with
  | ok result store =>
    exact .ok ⟨rfl, htogether.with_store store, hlength ▸ hended _⟩
  | error stop store =>
    cases stop with
    | signal reason => exact .signal ⟨htogether.with_store store, hlength ▸ hstopped _⟩
    | exhausted => exact .exhausted

theorem fault (reason : Fault) (hstopped : ∀ length, stopped length length) :
    Agree bond ended stopped (Action.fault reason : Engine α) (Action.fault reason) := by
  rintro ours theirs depth length halike left right ⟨htogether, rfl⟩
  exact .signal ⟨htogether, hstopped _⟩

theorem bind {next next' : α → Engine β} {middle ended' stopped' : Nat → Nat → Prop}
    (hfirst : Agree bond middle stopped first second)
    (hnext : ∀ result, Agree bond ended' stopped' (next result) (next' result))
    (hended : ∀ {before between after}, middle before between → ended' between after →
      ended before after)
    (hstopped : ∀ {before between after}, middle before between → stopped' between after →
      stopped before after) :
    Agree bond ended stopped (first >>= next) (second >>= next') := by
  intro ours theirs depth length halike
  refine Coupled.bind (hfirst ours theirs depth length halike) fun a b ↦ ?_
  rintro left right ⟨rfl, htogether, hmiddle⟩
  refine (hnext a ours theirs depth left.bindings.length halike).conseq
    (fun _ _ hstart ↦ hstart) ?_ ?_ left right ⟨htogether, rfl⟩
  · rintro c d left' right' ⟨rfl, hdone, hlog⟩
    exact ⟨rfl, hdone, hended hmiddle hlog⟩
  · rintro reason left' right' ⟨hdone, hlog⟩
    exact ⟨hdone, hstopped hmiddle hlog⟩

end Agree

namespace AgreeAs

variable {bond : Bond} {use : LogUse}

theorem pure (result : α) :
    AgreeAs bond use (Pure.pure result : Engine α) (Pure.pure result) :=
  Agree.pure result use.ended_refl

theorem stored (action : Storage α) :
    AgreeAs bond use (liftM action : Engine α) (liftM action) :=
  Agree.stored action use.ended_refl use.stopped_refl

theorem bind {first second : Engine α} {next next' : α → Engine β}
    (hfirst : AgreeAs bond use first second)
    (hnext : ∀ result, AgreeAs bond use (next result) (next' result)) :
    AgreeAs bond use (first >>= next) (second >>= next') :=
  Agree.bind hfirst hnext use.ended_trans use.stopped_trans

theorem ite {condition : Prop} [Decidable condition] {first second first' second' : Engine α}
    (hfirst : AgreeAs bond use first first') (hsecond : AgreeAs bond use second second') :
    AgreeAs bond use (if condition then first else second)
      (if condition then first' else second') := by
  split_ifs
  · exact hfirst
  · exact hsecond

end AgreeAs

/-! ### Companions -/

/-- Whether an event is about the signals and the binding log of a run, and not about the way in
which code is run. -/
def Event.concernsCourse : Event → Bool
  | .unbinding _ | .stopping _ | .dropping _ _ | .catching _ _ => true
  | .applying _ _ | .interpreting _ _ | .executing _ _ | .overdrawing _ => false

/-- Two callers whose applications keep machines together, and of which the second permits what the
first permits of signals and the binding log. -/
structure Companions (bond : Bond) (caller companion : Caller) : Prop where
  rounds : caller.rounds = companion.rounds
  apply : ∀ function arguments, AgreeAs bond .balanced
    (caller.apply function arguments) (companion.apply function arguments)
  course : ∀ {ours theirs depth left right} event, event.concernsCourse = true →
    Together bond ours theirs depth left right → caller.permits event left = true →
      companion.permits event right = true

/-- Two companions of which the second permits whatever the first permits. -/
structure WatchedCompanions (bond : Bond) (caller companion : Caller) : Prop
    extends Companions bond caller companion where
  permits : ∀ {ours theirs depth left right} event, Together bond ours theirs depth left right →
    caller.permits event left = true → companion.permits event right = true

end LispMachine
