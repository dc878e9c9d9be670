import LispMachine.Boot
import LispMachine.Proofs.Run.Equal
import LispMachine.Proofs.Run.Law

/-!
What a run leaves behind. Whether a function is invoked, something is applied or a form is
evaluated, by the interpreter or as native code, and however the run ends, the machine has the
handlers and the depth that it had before, and its binding log is not longer. A run that gives a
value leaves the log as long as it was. On the way the machine is never nested deeper than its
settings allow: `withinDepth` is asked about every application that starts and every instruction
that is interpreted, and a run that it would stop ends in the same way without it.

The main statement is `Request.run_restores`. It comes from the agreement of a run with itself: the
run that is watched and the run that is not are companions under the bond that ties equal
backgrounds within the limit.
-/

set_option autoImplicit false

namespace LispMachine

open LispMachine.Action Storage Engine

/-! ### Requests -/

/-- The ways in which a machine is asked for a value. -/
inductive Request where
  | invoking (id : Nat) (arguments : List Value)
  | applying (function : Value) (arguments : List Value)
  | evaluating (form : Value)

/-- Run what is asked for. -/
def Request.run (caller : Caller) : Request → Engine Value
  | .invoking id arguments => invoke caller id arguments
  | .applying function arguments => caller.apply function arguments
  | .evaluating form => caller.eval form

/-- The watch that lets a run go on while it is nested no deeper than the settings allow. -/
def withinDepth (_ : Event) (machine : Machine) : Bool :=
  machine.evalDepth ≤ machine.settings.maxEvalDepth

/-! ### The run that is watched -/

/-- A run and the same run watched are companions. -/
theorem companions_withinDepth (steps : Nat) :
    WatchedCompanions (.equal True) (.bounded steps) (.watched withinDepth steps) := by
  refine companions_equal (fun event htogether _ ↦ ?_) steps
  have hsettings := (Bond.equal True).settings_eq htogether.tied
  rw [withinDepth, htogether.right_depth, decide_eq_true_eq]
  exact Nat.le_trans (htogether.tied.2 trivial) (Nat.le_of_eq (congrArg _ hsettings))

theorem Request.agree {limited : Prop} {caller companion : Caller}
    (hcompanions : WatchedCompanions (.equal limited) caller companion) (request : Request) :
    AgreeAs (.equal limited) .balanced (request.run caller) (request.run companion) := by
  cases request with
  | invoking id arguments => exact agree_invoke_equal hcompanions id arguments
  | applying function arguments => exact hcompanions.apply function arguments
  | evaluating form => exact agree_eval hcompanions.toCompanions form

/-! ### What is left behind -/

/-- However a run ends, the handlers and the depth are what they were before. The log is not longer,
and as long as before when the run gives a value. The run that is stopped when it is nested too deep
ends in the same way. -/
theorem Request.run_restores (request : Request) (steps : Nat) (machine : Machine)
    (hdepth : machine.evalDepth ≤ machine.settings.maxEvalDepth) :
    (∀ value after, request.run (.bounded steps) machine = .ok value after →
      after.handlers = machine.handlers ∧ after.evalDepth = machine.evalDepth ∧
        after.bindings.length = machine.bindings.length ∧
        request.run (.watched withinDepth steps) machine = .ok value after) ∧
    (∀ reason after, request.run (.bounded steps) machine = .error (.signal reason) after →
      after.handlers = machine.handlers ∧ after.evalDepth = machine.evalDepth ∧
        after.bindings.length ≤ machine.bindings.length ∧
        request.run (.watched withinDepth steps) machine = .error (.signal reason) after) := by
  have htogether : Together (.equal True) machine.handlers machine.handlers machine.evalDepth machine
      machine := ⟨rfl, rfl, rfl, rfl, rfl, rfl, rfl, rfl, rfl, fun _ ↦ hdepth⟩
  have hend := request.agree (companions_withinDepth steps) _ _ _ _
    (HandlerStack.Alike.refl machine.handlers) machine machine ⟨htogether, rfl⟩
  generalize request.run (.watched withinDepth steps) machine = watched at hend
  constructor
  · intro value after hrun
    rw [hrun] at hend
    cases hend with
    | ok hdone =>
      obtain ⟨rfl, hafter, hlog⟩ := hdone
      exact ⟨hafter.left_handlers, hafter.left_depth, hlog, hafter.eq_of_equal ▸ rfl⟩
  · intro reason after hrun
    rw [hrun] at hend
    cases hend with
    | signal hdone =>
      exact ⟨hdone.1.left_handlers, hdone.1.left_depth, hdone.2, hdone.1.eq_of_equal ▸ rfl⟩

/-- A function binds a variable and sets up a catch, which a watch on the two stacks meets, and then
stops with an error that the catch does not match. The handler and the binding that were there
before are what is left. -/
theorem Request.run_restores_abandoned :
    let subject : Function :=
      { code := #[0xC1, 0x18, 0xC1, 0x32, 0x08, 0x00, 0xC2, 0x40, 0x87]
        constants := #[.symbol 2, .t, .fixnum 1], maxDepth := 2
        parameters := .dynamic [] }
    let machine : Machine :=
      { heap := .empty 1, settings := {}, functions := #[subject]
        symbols := ⟨#[{ name := "nil" }, { name := "t" }, { name := "x" }]⟩
        bindings := [.binding 5 none], handlers := [⟨.nil, .catching, 0, 1, .host⟩] }
    let withoutBoth (_ : Event) (machine : Machine) : Bool :=
      machine.bindings.length < 2 || machine.handlers.length < 2
    let request : Request := .invoking 0 []
    let reason : Signal := .error Symbols.wrongTypeArgument (.object 1)
    machine.evalDepth ≤ machine.settings.maxEvalDepth ∧
      ¬ Finishes (request.run (.watched withoutBoth 8) machine) ∧
      ∃ after, request.run (.bounded 8) machine = .error (.signal reason) after ∧
        after.handlers = machine.handlers ∧ after.evalDepth = machine.evalDepth ∧
        after.bindings.length ≤ machine.bindings.length := by
  intro subject machine withoutBoth request reason
  have hdepth : machine.evalDepth ≤ machine.settings.maxEvalDepth := Nat.zero_le _
  have hwatched : ¬ Finishes (request.run (.watched withoutBoth 8) machine) := by
    decide +kernel
  obtain ⟨after, hrun⟩ : StopsWith reason (request.run (.bounded 8) machine) := by
    decide +kernel
  obtain ⟨hhandlers, hafter, hlog, -⟩ :=
    (Request.run_restores request 8 machine hdepth).2 reason after hrun
  exact ⟨hdepth, hwatched, after, hrun, hhandlers, hafter, hlog⟩

end LispMachine
