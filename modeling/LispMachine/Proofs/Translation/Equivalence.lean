import LispMachine.Boot
import LispMachine.Proofs.Translation.Simulation

/-!
Interpreted and compiled functions are the same to whoever invokes them. Two machines that differ
only in which functions have been compiled, with the stack guarded, are run side by side. An
invocation that, with every function interpreted, ends and meets every instruction in every frame
with a stack on which it fits ends in the same way on both machines and leaves everything that
programs can observe the same.

The main statement is `invoke_same_observed`. It compares each machine with the one on which nothing
is compiled: `Bond.compiling` ties that machine to one on which functions may be compiled, and a run
watched by `fitsStack` on the first and a run on the second are companions.
-/

set_option autoImplicit false

namespace LispMachine

open LispMachine.Action Storage Engine

/-! ### Machines that differ in what is compiled -/

/-- What the compiler left at a function, if anything, is the guarded translation of the function,
whose targets are all in their place. -/
def Function.FaithfullyCompiled (function : Function) : Prop :=
  ∀ code, function.compiled = some code →
    function.code.misplacedTarget? = none ∧ code.native = function.translate true

/-- The machine with nothing compiled. -/
def Machine.uncompiled (machine : Machine) : Machine :=
  { machine with functions := machine.functions.map Function.uncompiled }

/-- What programs can observe of a machine. -/
structure Observation where
  store : Store
  settings : Settings
  functions : Array Function
  bindings : BindingLog
  handlers : HandlerStack
  quitPending : Bool
  arrivals : List Bool
  evalDepth : Nat

/-- What programs can observe of a machine: all of it but the counts of calls and opcodes, what the
compiler left at the functions and what it keeps. -/
def Machine.observation (machine : Machine) : Observation :=
  ⟨machine.toStore, machine.settings, machine.functions.map Function.uncompiled,
    machine.bindings, machine.handlers, machine.quitPending, machine.arrivals,
    machine.evalDepth⟩

/-- The watch that lets a run go on while each instruction fits on its stack. -/
def fitsStack : Event → Machine → Bool
  | .interpreting instruction stack, _ =>
    instruction.reach ≤ stack.depth && stack.depth + instruction.effect.toNat ≤ stack.limit
  | _, _ => true

theorem fitsOn_of_fitsStack {instruction : Instruction} {stack : OperandStack} {machine : Machine}
    (hfits : fitsStack (.interpreting instruction stack) machine = true) :
    instruction.FitsOn stack := by
  simp only [fitsStack, Bool.and_eq_true, decide_eq_true_eq] at hfits
  exact ⟨hfits.1, hfits.2⟩

/-! ### The bond -/

/-- The first machine has the functions of the second without what the compiler left at them. -/
structure Background.Compiling (left right : Background) : Prop where
  settings_eq : left.settings = right.settings
  never_due : right.settings.compileOnFirstCall = false
  functions_eq : left.functions = right.functions.map Function.uncompiled
  faithful : ∀ function ∈ right.functions, function.FaithfullyCompiled

/-- The bond of a machine with nothing compiled and one on which functions may be compiled. -/
def Bond.compiling : Bond where
  ties _ left right := left.Compiling right
  settings_eq hties := hties.settings_eq
  size_eq hties := by rw [hties.functions_eq, Array.size_map]
  deeper hties _ := hties
  shallower hties := hties
  metered _ hties := { hties with }
  interpreted hties := { hties with }
  compiled hties := { hties with }
  added function hcompiled hties :=
    { hties with
      functions_eq := by
        have hsame : function.uncompiled = function := by
          rw [Function.uncompiled, ← hcompiled]
        rw [Array.map_push, hsame, hties.functions_eq]
      faithful := by
        intro other hother
        rcases Array.mem_push.mp hother with hmem | rfl
        · exact hties.faithful other hmem
        · intro code hcode
          rw [hcompiled] at hcode
          cases hcode }

theorem Background.Compiling.getD {left right : Background} (hties : left.Compiling right)
    (id : Nat) :
    left.functions.getD id default = (right.functions.getD id default).uncompiled ∧
      (right.functions.getD id default).FaithfullyCompiled := by
  rw [hties.functions_eq]
  by_cases hid : id < right.functions.size
  · have hfaithful := hties.faithful _ (Array.getElem_mem hid)
    simp only [Array.getD, Array.size_map, hid, dif_pos]
    exact ⟨by simp, hfaithful⟩
  · simp only [Array.getD, Array.size_map, hid, dif_neg, not_false_iff]
    exact ⟨rfl, nofun⟩

theorem agree_compileIfDue_compiling (id : Nat) :
    AgreeAs .compiling .balanced (compileIfDue id) (compileIfDue id) := by
  rintro ours theirs depth length halike left right ⟨htogether, rfl⟩
  have hright : right.settings.compileOnFirstCall = false := htogether.tied.never_due
  have hsettings : left.settings = right.settings := htogether.tied.settings_eq
  change SameEnd _ _
    ((if left.settings.compileOnFirstCall then _ else Pure.pure () : Engine Unit) left)
    ((if right.settings.compileOnFirstCall then _ else Pure.pure () : Engine Unit) right)
  rw [hsettings, hright]
  exact .ok ⟨rfl, htogether, rfl⟩

theorem framed_countCalls {own : Handler → Handler → Prop} {low low' : HandlerStack} {depth : Nat} :
    Framed .compiling own low low' depth Eq countInterpretedCall countCompiledCall := by
  rintro left right ⟨ours, theirs, hours, htogether⟩
  exact .ok ⟨rfl, ours, theirs, hours, { htogether with tied := { htogether.tied with } }⟩

/-- The frames of an interpreted function and of the same function, compiled or not. -/
theorem FramesAgree.compiling {caller companion : Caller}
    (hcompanions : WatchedCompanions .compiling caller companion)
    (hwatch : caller.permits = fitsStack) {subject : Function} (hfaithful : subject.FaithfullyCompiled) :
    FramesAgree .compiling caller companion subject.uncompiled subject := by
  cases hcompiled : subject.compiled with
  | none =>
    have hsame : subject.uncompiled = subject := by rw [Function.uncompiled, ← hcompiled]
    rw [hsame]
    exact .same hcompanions subject
  | some code =>
    obtain ⟨hlabels, hnative⟩ := hfaithful code hcompiled
    refine ⟨rfl, fun low low' depth mark stack hlow _ _ ↦
      ⟨Handler.Corresponds subject.code (subject.translate true), .corresponds hlow, ?_⟩⟩
    unfold runFrame
    rw [hcompiled]
    dsimp only [Function.uncompiled]
    rw [hnative]
    refine .bind_eq framed_countCalls fun _ ↦ ?_
    refine framed_interpret_runNative hlow hcompanions.toCompanions ?_ ?_ ?_ hlabels
      hcompanions.forgiving stack
    · exact fun _ hties ↦ { hties with }
    · intro instruction stack machine hpermits
      rw [hwatch] at hpermits
      exact fitsOn_of_fitsStack hpermits
    · intro ours theirs depth left right operation stack htogether
      exact hcompanions.permits _ htogether (by rw [hwatch]; rfl)

/-! ### Invocations -/

/-- An invocation with nothing compiled, watched by `fitsStack`, agrees with one on a machine on
which functions may be compiled. -/
theorem agree_invoke_compiling (steps id : Nat) (arguments : List Value) :
    AgreeAs .compiling .balanced (invoke (.watched fitsStack steps) id arguments)
      (invoke (.bounded steps) id arguments) := by
  have hinvoke {caller companion : Caller}
      (hcompanions : WatchedCompanions .compiling caller companion)
      (hwatch : caller.permits = fitsStack) (id : Nat) (arguments : List Value) :
      AgreeAs .compiling .balanced (invoke caller id arguments)
        (invoke companion id arguments) := by
    refine agree_invoke hcompanions.toCompanions agree_compileIfDue_compiling ?_ id arguments
    intro depth left right id hties
    obtain ⟨hleft, hfaithful⟩ := Background.Compiling.getD hties id
    rw [hleft]
    exact .compiling hcompanions hwatch hfaithful
  refine hinvoke (companions_watched (fun _ _ _ ↦ rfl) ?_ steps) rfl id arguments
  exact fun hcompanions hwatch _ ↦ hinvoke hcompanions hwatch

/-- Machines that run together under the bond, with the same handlers, are observed to be equal. -/
theorem Together.observation_eq {handlers : HandlerStack} {depth : Nat} {left right : Machine}
    (htogether : Together .compiling handlers handlers depth left right) :
    left.observation = right.observation := by
  have hsettings : left.settings = right.settings := htogether.tied.settings_eq
  have hfunctions : left.functions = right.functions.map Function.uncompiled :=
    htogether.tied.functions_eq
  unfold Machine.observation
  rw [htogether.store, hsettings, hfunctions, htogether.bindings, htogether.left_handlers,
    htogether.right_handlers, htogether.quitPending, htogether.arrivals, htogether.left_depth,
    htogether.right_depth, Array.map_map]
  rfl

theorem sameEnd_invoke_uncompiled (steps id : Nat) (arguments : List Value)
    {plain machine : Machine} (hobserved : plain.observation = machine.observation)
    (hdue : machine.settings.compileOnFirstCall = false)
    (hfaithful : ∀ function ∈ machine.functions, function.FaithfullyCompiled) :
    SameEnd (fun a b left right ↦ a = b ∧ left.observation = right.observation)
      (fun _ left right ↦ left.observation = right.observation)
      (invoke (.watched fitsStack steps) id arguments plain.uncompiled)
      (invoke (.bounded steps) id arguments machine) := by
  have htogether : Together .compiling machine.handlers machine.handlers machine.evalDepth
      plain.uncompiled machine :=
    { store := congrArg Observation.store hobserved
      bindings := congrArg Observation.bindings hobserved
      quitPending := congrArg Observation.quitPending hobserved
      arrivals := congrArg Observation.arrivals hobserved
      left_depth := congrArg Observation.evalDepth hobserved
      right_depth := rfl
      left_handlers := congrArg Observation.handlers hobserved
      right_handlers := rfl
      tied := ⟨congrArg Observation.settings hobserved, hdue,
        congrArg Observation.functions hobserved, hfaithful⟩ }
  refine (agree_invoke_compiling steps id arguments _ _ _ _ (HandlerStack.Alike.refl _)).conseq
    (fun _ _ hstart ↦ hstart) ?_ ?_ _ _ ⟨htogether, rfl⟩
  · rintro a b left right ⟨rfl, hdone, -⟩
    exact ⟨rfl, hdone.observation_eq⟩
  · rintro reason left right ⟨hdone, -⟩
    exact hdone.observation_eq

/-- Two machines that differ only in what the compiler has done. An invocation that ends with every
function interpreted, and then meets every instruction with a stack on which it fits, gives the same
value or signal on both and leaves the same observation. -/
theorem invoke_same_observed {first second : Machine}
    (hobserved : first.observation = second.observation)
    (hdue : first.settings.compileOnFirstCall = false)
    (hfirst : ∀ function ∈ first.functions, function.FaithfullyCompiled)
    (hsecond : ∀ function ∈ second.functions, function.FaithfullyCompiled)
    (steps id : Nat) (arguments : List Value)
    (hfits : ∀ resource after, invoke (.watched fitsStack steps) id arguments first.uncompiled ≠
      .error (.exhausted resource) after) :
    (∃ value after after', invoke (.bounded steps) id arguments first = .ok value after ∧
      invoke (.bounded steps) id arguments second = .ok value after' ∧
      after.observation = after'.observation) ∨
    ∃ reason after after',
      invoke (.bounded steps) id arguments first = .error (.signal reason) after ∧
      invoke (.bounded steps) id arguments second = .error (.signal reason) after' ∧
      after.observation = after'.observation := by
  have hsettings : first.settings = second.settings := congrArg Observation.settings hobserved
  have hdue' : second.settings.compileOnFirstCall = false := hsettings ▸ hdue
  have hone := sameEnd_invoke_uncompiled steps id arguments rfl hdue hfirst
  have htwo := sameEnd_invoke_uncompiled steps id arguments hobserved hdue' hsecond
  generalize invoke (.watched fitsStack steps) id arguments first.uncompiled = plain at *
  generalize invoke (.bounded steps) id arguments first = one at *
  generalize invoke (.bounded steps) id arguments second = two at *
  cases hone with
  | ok hdone =>
    cases htwo with
    | ok hdone' =>
      obtain ⟨rfl, hleft⟩ := hdone
      obtain ⟨rfl, hright⟩ := hdone'
      exact .inl ⟨_, _, _, rfl, rfl, hleft.symm.trans hright⟩
  | signal hdone =>
    cases htwo with
    | signal hdone' => exact .inr ⟨_, _, _, rfl, rfl, hdone.symm.trans hdone'⟩
  | exhausted => exact absurd rfl (hfits _ _)

set_option maxRecDepth 8000 in
/-- A function that returns its constant, interpreted on one machine and compiled on the other. -/
theorem invoke_same_observed_constant :
    let subject : Function :=
      { code := #[0xC0, 0x87], constants := #[.t], maxDepth := 1, parameters := .dynamic [] }
    let compiled : Function := { subject with compiled := some ⟨0, subject.translate true⟩ }
    let first : Machine := { heap := .empty 1, settings := {}, functions := #[subject] }
    let second : Machine := { first with functions := #[compiled] }
    ∃ after after', invoke (.bounded 3) 0 [] first = .ok .t after ∧
      invoke (.bounded 3) 0 [] second = .ok .t after' ∧
      after.observation = after'.observation := by
  intro subject compiled first second
  have hsame : first.uncompiled = first := by
    simp [first, subject, Machine.uncompiled, Function.uncompiled]
  obtain ⟨plain, hplain⟩ : ∃ plain, invoke (.watched fitsStack 3) 0 [] first = .ok .t plain :=
    ⟨_, rfl⟩
  obtain ⟨after, hrun⟩ : ∃ after, invoke (.bounded 3) 0 [] first = .ok .t after := ⟨_, rfl⟩
  have hobserved : first.observation = second.observation := by
    simp [first, second, compiled, subject, Machine.observation, Function.uncompiled]
  have hfirst : ∀ function ∈ first.functions, function.FaithfullyCompiled := by
    intro function hfunction code hcode
    rw [Array.mem_singleton.mp hfunction] at hcode
    cases hcode
  have hsecond : ∀ function ∈ second.functions, function.FaithfullyCompiled := by
    intro function hfunction code hcode
    obtain rfl := Array.mem_singleton.mp hfunction
    cases hcode
    exact ⟨rfl, rfl⟩
  have hends := invoke_same_observed hobserved rfl hfirst hsecond 3 0 [] fun _ _ hexhausted ↦ by
    rw [hsame, hplain] at hexhausted
    cases hexhausted
  rcases hends with ⟨value, left, right, hleft, hright, hleaves⟩ | ⟨_, _, _, hleft, -⟩
  · obtain ⟨rfl, rfl⟩ : value = .t ∧ left = after := by
      rw [hrun] at hleft
      cases hleft
      exact ⟨rfl, rfl⟩
    exact ⟨left, right, hleft, hright, hleaves⟩
  · rw [hrun] at hleft
    cases hleft

end LispMachine
