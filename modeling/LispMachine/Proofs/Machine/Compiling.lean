import LispMachine.Proofs.Machine.Sessions

/-!
Functions are compiled at most once. What the functions keep, what the compiler counts and what has
been noted are three records of the compilations, and `Machine.Books` says that they agree.
`Machine.Builds` says of two machines that what happened between them kept the books in order and
took no native code away. Every run builds in this sense (`Journals.builds`), and so every session
(`Machine.Session.builds`).

The main statement is `Machine.Session.compiles_once`. Attempts that fail count as failed and change
nothing else, and when they come before a call, nothing is called.
-/

set_option autoImplicit false

namespace LispMachine

open LispMachine.Action Storage Engine

variable {α : Type}

/-- Whether a note is about an attempt to compile that failed. -/
def Note.isFailure : Note → Bool
  | .failed _ => true
  | .interpreted _ | .compiled _ => false

namespace Machine

/-- The native code of a function, if it has been compiled. -/
def code? (machine : Machine) (id : Nat) : Option CompiledCode :=
  machine.functions[id]?.bind Function.compiled

theorem code?_of_some {machine : Machine} {id : Nat} {subject : Function}
    (hsubject : machine.functions[id]? = some subject) : machine.code? id = subject.compiled := by
  rw [code?, hsubject]
  rfl

section Filled

variable {before after : Machine} {id : Nat} {subject : Function} {code : CompiledCode}
  (hsubject : before.functions[id]? = some subject)
  (hfunctions : after.functions = before.functions.modify id fun function ↦
    { function with compiled := some code })

include hsubject hfunctions

theorem code?_filled (id' : Nat) :
    after.code? id' = if id = id' then some code else before.code? id' := by
  rw [code?, hfunctions, Array.getElem?_modify]
  split_ifs with hid
  · rw [← hid, hsubject]
    rfl
  · rfl

theorem countP_filled (hopen : subject.compiled = none) :
    after.functions.countP (fun function ↦ function.compiled.isSome) =
      before.functions.countP (fun function ↦ function.compiled.isSome) + 1 := by
  obtain ⟨hsize, hget⟩ := Array.getElem?_eq_some_iff.mp hsubject
  rw [← Array.countP_toList, ← Array.countP_toList, hfunctions, Array.toList_modify,
    List.modify_eq_set, List.countP_set hsize, Array.getElem_toList, hget, hopen]
  simp

end Filled

/-- What was noted, what the functions keep and what the compiler counts agree. -/
structure Books (machine : Machine) (notes : List Note) : Prop where
  /-- A function that has native code was compiled once, and no other one was. -/
  noted : ∀ id, notes.count (.compiled id) = if (machine.code? id).isSome then 1 else 0
  /-- The numbers of compilations are used up in order. -/
  below : ∀ {id code}, machine.code? id = some code →
    code.id < (machine.compiler.getD {}).nextId
  distinct : ∀ {id id' code code'}, machine.code? id = some code → machine.code? id' = some code' →
    code.id = code'.id → id = id'
  compiled : (machine.compiler.getD {}).compiled =
    machine.functions.countP fun function ↦ function.compiled.isSome
  failed : (machine.compiler.getD {}).failed = notes.countP Note.isFailure

/-- What happened between two machines keeps the books in order, and native code where it is. -/
structure Builds (before : Machine) (notes : List Note) (after : Machine) : Prop where
  books : ∀ {log}, before.Books log → after.Books (log ++ notes)
  kept : ∀ {id code}, before.code? id = some code → after.code? id = some code

namespace Builds

variable {before between after : Machine} {notes later : List Note}

theorem trans (hfirst : before.Builds notes between) (hnext : between.Builds later after) :
    before.Builds (notes ++ later) after :=
  ⟨fun hbooks ↦ List.append_assoc .. ▸ hnext.books (hfirst.books hbooks),
    fun hcode ↦ hnext.kept (hfirst.kept hcode)⟩

/-- Nothing is noted, and functions are added that have not been compiled. -/
theorem of_added (added : Array Function) (hcompiler : after.compiler = before.compiler)
    (hfunctions : after.functions = before.functions ++ added)
    (hnew : ∀ function ∈ added, function.compiled = none) : before.Builds [] after := by
  have hcode (id : Nat) : after.code? id = before.code? id := by
    rw [code?, code?, hfunctions, Array.getElem?_append]
    split_ifs with hsize
    · rfl
    · rw [Array.getElem?_eq_none (Nat.le_of_not_lt hsize)]
      cases hadded : added[id - before.functions.size]? with
      | none => rfl
      | some function => exact hnew function (Array.mem_of_getElem? hadded)
  have hnone : added.countP (fun function ↦ function.compiled.isSome) = 0 :=
    Array.countP_eq_zero.mpr fun function hmem ↦ by simp [hnew function hmem]
  refine ⟨fun {log} hbooks ↦ ?_, fun {id code} ↦ (hcode id).trans⟩
  rw [List.append_nil]
  exact {
    noted := fun id ↦ by rw [hcode, hbooks.noted]
    below := fun hsome ↦ by rw [hcompiler]; exact hbooks.below (hcode _ ▸ hsome)
    distinct := fun hsome hsome' ↦ hbooks.distinct (hcode _ ▸ hsome) (hcode _ ▸ hsome')
    compiled := by
      rw [hcompiler, hfunctions, Array.countP_append, hnone, hbooks.compiled]
      rfl
    failed := by rw [hcompiler, hbooks.failed] }

theorem quiet (hquiet : before.Quiet after) : before.Builds [] after := by
  obtain ⟨added, hfunctions, hnew⟩ := hquiet.functions_eq
  exact of_added added hquiet.compiler_eq hfunctions hnew

theorem of_background (hfunctions : after.functions = before.functions)
    (hcompiler : after.compiler = before.compiler) : before.Builds [] after :=
  of_added #[] hcompiler (by rw [hfunctions, Array.append_empty]) nofun

/-- The note of a frame says nothing about compilations. -/
theorem interpreted (machine : Machine) (opcodes : List UInt8) :
    machine.Builds [.interpreted opcodes] machine := by
  refine ⟨fun {log} hbooks ↦ { hbooks with noted := fun id ↦ ?_, failed := ?_ }, id⟩
  · rw [List.count_append, hbooks.noted]
    simp
  · rw [List.countP_append, hbooks.failed]
    rfl

/-- A function is compiled for the first time: the code gets the next number, and the slot of the
function is filled with it. -/
theorem compiled {id : Nat} {subject : Function} {code : CompiledCode} {state : CompilerState}
    (hsubject : before.functions[id]? = some subject) (hopen : subject.compiled = none)
    (hstate : before.compiler.getD {} = state) (hnumber : code.id = state.nextId)
    (hcompiler : after.compiler = some { state with
      nextId := state.nextId + 1, compiled := state.compiled + 1 })
    (hfunctions : after.functions = before.functions.modify id fun function ↦
      { function with compiled := some code }) : before.Builds [.compiled id] after := by
  have hnone : before.code? id = none := (code?_of_some hsubject).trans hopen
  have hfilled := code?_filled hsubject hfunctions
  refine ⟨fun {log} hbooks ↦ ?_, fun {id' code'} hsome ↦ ?_⟩
  · -- a number that was given before is smaller than the new one
    have hsmaller {id' : Nat} {code' : CompiledCode} (hsome : before.code? id' = some code') :
        code'.id < code.id := by
      rw [hnumber, ← hstate]
      exact hbooks.below hsome
    refine ⟨fun id' ↦ ?_, fun {id' code'} hsome ↦ ?_,
      fun {id₁ id₂ code₁ code₂} hsome₁ hsome₂ heq ↦ ?_, ?_, ?_⟩
    · rw [List.count_append, hbooks.noted, List.count_singleton, hfilled]
      by_cases hid : id = id'
      · subst hid
        simp [hnone]
      · simp [hid]
    · rw [hcompiler]
      rw [hfilled] at hsome
      refine Nat.lt_succ_of_le (hnumber ▸ ?_)
      split_ifs at hsome with hid
      · exact Nat.le_of_eq (congrArg CompiledCode.id (Option.some.inj hsome)).symm
      · exact Nat.le_of_lt (hsmaller hsome)
    · rw [hfilled] at hsome₁ hsome₂
      split_ifs at hsome₁ hsome₂ with hid₁ hid₂ hid₂
      · exact hid₁.symm.trans hid₂
      · cases hsome₁
        exact absurd heq.symm (Nat.ne_of_lt (hsmaller hsome₂))
      · cases hsome₂
        exact absurd heq (Nat.ne_of_lt (hsmaller hsome₁))
      · exact hbooks.distinct hsome₁ hsome₂ heq
    · rw [hcompiler, countP_filled hsubject hfunctions hopen, ← hbooks.compiled, hstate]
      rfl
    · rw [hcompiler, List.countP_append, ← hbooks.failed, hstate]
      rfl
  · rw [hfilled, if_neg, hsome]
    rintro rfl
    rw [hnone] at hsome
    cases hsome

/-- An attempt fails: it has used up a number, and it is counted. -/
theorem failed {id : Nat} {state : CompilerState} (hstate : before.compiler.getD {} = state)
    (hcompiler : after.compiler = some { state with
      nextId := state.nextId + 1, failed := state.failed + 1 })
    (hfunctions : after.functions = before.functions) : before.Builds [.failed id] after := by
  have hcode (id' : Nat) : after.code? id' = before.code? id' := by rw [code?, hfunctions]; rfl
  refine ⟨fun {log} hbooks ↦ ⟨fun id' ↦ ?_, fun {id' code'} hsome ↦ ?_,
    fun hsome hsome' ↦ hbooks.distinct (hcode _ ▸ hsome) (hcode _ ▸ hsome'), ?_, ?_⟩,
    fun {id' code'} ↦ (hcode id').trans⟩
  · rw [List.count_append, hbooks.noted, hcode]
    simp
  · rw [hcompiler]
    have hbelow := hbooks.below (hcode id' ▸ hsome)
    rw [hstate] at hbelow
    exact Nat.lt_succ_of_lt hbelow
  · rw [hcompiler, hfunctions, ← hbooks.compiled, hstate]
    rfl
  · rw [hcompiler, List.countP_append, ← hbooks.failed, hstate]
    rfl

/-- The turns of a frame, each of which builds. -/
theorem interpretWithin {caller : Caller} {frame : Frame} {notes : FrameState → List Note}
    (rounds : Nat) (start : FrameState)
    (hturns : ∀ state ∈ turns caller frame rounds start, (counted frame state).Builds (notes state)
      (machineAfter (turn caller frame state.1 (counted frame state)))) :
    start.2.Builds ((turns caller frame rounds start).flatMap notes)
      (machineAfter (Engine.interpretWithin caller frame rounds start.1 start.2)) := by
  refine interpretWithin_of_turns
    (fun before states after ↦ before.Builds (states.flatMap notes) after)
    (fun _ ↦ of_background rfl rfl) ?_ rounds start ?_
  · intro before between after states others hfirst hnext
    exact List.flatMap_append ▸ hfirst.trans hnext
  · intro state hmem
    have hcounted : state.2.Builds [] (counted frame state) := by
      unfold counted
      cases fetched? frame state <;> exact of_background rfl rfl
    rw [List.flatMap_singleton]
    exact hcounted.trans (hturns state hmem)

end Builds

end Machine

/-- Every run builds. -/
theorem Journals.builds {action : Engine α} {machine : Machine} {notes : List Note}
    (hjournal : Journals action machine notes) :
    machine.Builds notes (machineAfter (action machine)) := by
  induction hjournal with
  | quiet hquiet => exact .quiet hquiet
  | bind_ok hrun _ _ hfirst hnext =>
    rw [hrun] at hfirst
    rw [bind_of_ok hrun]
    exact hfirst.trans hnext
  | bind_error hrun _ hfirst =>
    rw [hrun] at hfirst
    rwa [bind_of_error hrun]
  | attempt _ haction => rwa [machineAfter_attempt]
  | compiled hsubject hopen hrun =>
    obtain ⟨rfl, rfl⟩ := compile_eq_ok hsubject hopen hrun
    rw [hrun]
    exact .compiled hsubject hopen rfl rfl rfl rfl
  | failed hsubject hrun =>
    obtain ⟨-, -, rfl⟩ := compile_eq_error hsubject hrun
    rw [hrun]
    exact .failed rfl rfl rfl
  | @interpreted caller frame stack machine states notes hstates _ hturns =>
    subst hstates
    have hcount : machine.Builds []
        { machine with interpretedCalls := machine.interpretedCalls + 1 } := .of_background rfl rfl
    have hnoted := Machine.Builds.interpreted
      { machine with interpretedCalls := machine.interpretedCalls + 1 }
      ((turns caller frame caller.rounds (⟨0, stack, 0⟩,
        { machine with interpretedCalls := machine.interpretedCalls + 1 })).filterMap
          (fetched? frame))
    exact (hcount.trans hnoted).trans (.interpretWithin caller.rounds _ hturns)

namespace Machine

/-- Nothing has been compiled, and it has not been tried. -/
structure Unbuilt (machine : Machine) : Prop where
  compiler_eq : machine.compiler = none
  compiled_eq : ∀ function ∈ machine.functions, function.compiled = none

theorem Unbuilt.books {machine : Machine} (hunbuilt : machine.Unbuilt) : machine.Books [] := by
  have hnone (id : Nat) : machine.code? id = none := by
    unfold code?
    cases hsubject : machine.functions[id]? with
    | none => rfl
    | some subject => exact hunbuilt.compiled_eq subject (Array.mem_of_getElem? hsubject)
  have hcount : machine.functions.countP (fun function ↦ function.compiled.isSome) = 0 :=
    Array.countP_eq_zero.mpr fun function hmem ↦ by simp [hunbuilt.compiled_eq function hmem]
  refine ⟨fun id ↦ ?_, fun hsome ↦ ?_, fun hsome ↦ ?_, ?_, ?_⟩
  · simp [hnone]
  · rw [hnone] at hsome
    cases hsome
  · rw [hnone] at hsome
    cases hsome
  · rw [hunbuilt.compiler_eq, hcount]
    rfl
  · rw [hunbuilt.compiler_eq]
    rfl

/-- Every session builds. -/
theorem Session.builds {start machine : Machine} {notes : List Note}
    (hsession : start.Session machine notes) : start.Builds notes machine := by
  induction hsession with
  | begun => exact .of_background rfl rfl
  | @adjusted machine notes _ settings meter ih =>
    have hadjusted : machine.Builds [] { machine with settings := settings, meter := meter } :=
      .of_background rfl rfl
    exact List.append_nil notes ▸ ih.trans hadjusted
  | performed _ action watch steps hjournal ih => exact ih.trans hjournal.builds

/-- A storage action compiles nothing. -/
theorem Unbuilt.stored_then {β : Type} {machine : Machine} (hunbuilt : machine.Unbuilt)
    {action : Storage α} {next : α → Engine β}
    (hnext : ∀ result {between : Machine}, between.Unbuilt →
      (machineAfter (next result between)).Unbuilt) :
    (machineAfter (((liftM action : Engine α) >>= next) machine)).Unbuilt := by
  change (machineAfter (EStateM.bind (liftM action) next machine)).Unbuilt
  unfold EStateM.bind
  rw [liftM_apply]
  cases action machine.toStore with
  | ok result store => exact hnext result { hunbuilt with }
  | error stop store => exact { hunbuilt with }

/-- On a new machine nothing has been compiled. -/
theorem unbuilt_initial (settings : Settings) : (Machine.initial settings).Unbuilt := by
  rw [initial_eq]
  unfold boot
  have hempty : Machine.Unbuilt
      { settings := settings, heap := .empty settings.collectionThreshold } :=
    ⟨rfl, fun _ hmem ↦ absurd hmem (Array.not_mem_empty _)⟩
  refine hempty.stored_then fun _ _ hunbuilt ↦ hunbuilt.stored_then fun _ _ hunbuilt ↦ ?_
  refine hunbuilt.stored_then fun _ _ hunbuilt ↦ hunbuilt.stored_then fun _ _ hunbuilt ↦ ?_
  refine hunbuilt.stored_then fun _ machine hunbuilt ↦ ?_
  change (machineAfter ((if machine.settings.metering then setMetering true else Pure.pure () :
    Engine Unit) machine)).Unbuilt
  split_ifs
  · exact { hunbuilt with }
  · exact hunbuilt

/-! ### Compiling and calling -/

/-- An attempt that fails changes nothing but what the compiler keeps, and there is no native code.
-/
theorem of_compile_eq_error {machine after : Machine} {id : Nat} {stop : Stop Signal}
    (hrun : compile id machine = .error stop after) :
    after = { machine with compiler := after.compiler } ∧ after.code? id = none := by
  cases hsubject : machine.functions[id]? with
  | none =>
    rw [compile_of_missing hsubject] at hrun
    cases hrun
    exact ⟨rfl, by rw [code?, hsubject]; rfl⟩
  | some subject =>
    obtain ⟨hopen, -, rfl⟩ := compile_eq_error hsubject hrun
    exact ⟨rfl, (code?_of_some hsubject).trans hopen⟩

/-- A call of a function that is to be compiled and cannot be ends like the attempt. -/
theorem invoke_of_compile_error {machine after : Machine} {id : Nat} {stop : Stop Signal}
    (hdue : machine.settings.compileOnFirstCall = true)
    (hrun : compile id machine = .error stop after) (caller : Caller) (arguments : List Value) :
    invoke caller id arguments machine = .error stop after := by
  refine bind_of_error ?_
  change (if machine.settings.compileOnFirstCall then _ else _ : Engine Unit) machine = _
  rw [if_pos hdue]
  exact bind_of_error hrun

/-- Functions are compiled at most once. In a session that begins where nothing has been compiled,

1. what has been noted, what the functions keep and what the compiler counts agree (`Books`): no two
   functions have native code with the same number, the compiler has counted as compiled the
   functions that have native code, each of which was compiled once, and as failed the attempts that
   failed;
2. the session goes on whatever is asked for next, be it to compile a function, to call one or to
   copy one, and a function that has native code then still has it; compiling it again gives that
   code and changes nothing;
3. a copy of a function has not been compiled;
4. an attempt that fails changes nothing but what the compiler keeps, and the function still has no
   native code; if the attempt was due before a call, the call ends with it. -/
theorem Session.compiles_once {start machine : Machine} {notes : List Note}
    (hunbuilt : start.Unbuilt) (hsession : start.Session machine notes) :
    machine.Books notes ∧
      (∀ (action : HostAction) (watch : Event → Machine → Bool) (steps : Nat), ∃ later,
        machine.Session (machineAfter (action.perform (.watched watch steps) machine)) later) ∧
      (∀ id code, machine.code? id = some code → ∀ after later, machine.Session after later →
        after.code? id = some code ∧ compile id after = .ok code after) ∧
      (∀ id subject caller, machine.functions[id]? = some subject →
        (HostAction.copy id).perform caller machine =
          .ok [] { machine with
            functions := machine.functions.push { subject with compiled := none } }) ∧
      ∀ id stop after, compile id machine = .error stop after →
        after = { machine with compiler := after.compiler } ∧ after.code? id = none ∧
          ∀ caller arguments, machine.settings.compileOnFirstCall = true →
            invoke caller id arguments machine = .error stop after := by
  refine ⟨hsession.builds.books hunbuilt.books, fun action watch steps ↦ ?_,
    fun id code hcode after later hlater ↦ ?_, fun id subject caller hsubject ↦ ?_,
    fun id stop after hrun ↦ ?_⟩
  · exact Session.begun.exists_next action watch steps
  · have hkept := hlater.builds.kept hcode
    obtain ⟨subject, hsubject, hcompiled⟩ := Option.bind_eq_some_iff.mp hkept
    exact ⟨hkept, compile_of_compiled hsubject hcompiled⟩
  · have hget : machine.functions.getD id default = subject := by
      rw [Array.getD_eq_getD_getElem?, hsubject]
      rfl
    rw [← hget]
    rfl
  · obtain ⟨hafter, hnone⟩ := of_compile_eq_error hrun
    exact ⟨hafter, hnone, fun caller arguments hdue ↦
      invoke_of_compile_error hdue hrun caller arguments⟩

/-- One function is compiled and copied, and then another one, which jumps into the middle of an
instruction, cannot be compiled. -/
theorem Session.compiles_once_of_two :
    let placed : Function :=
      { code := #[0xC0], constants := #[.t], maxDepth := 1, parameters := .dynamic [] }
    let misplaced : Function :=
      { code := #[0x82, 1, 0], constants := #[], maxDepth := 0, parameters := .dynamic [] }
    let start : Machine :=
      { heap := .empty 1, settings := { compileOnFirstCall := true }
        functions := #[placed, misplaced] }
    let caller := Caller.watched (fun _ _ ↦ true) 5
    let first := machineAfter ((HostAction.compile 0).perform caller start)
    let second := machineAfter ((HostAction.copy 0).perform caller first)
    let third := machineAfter ((HostAction.compile 1).perform caller second)
    start.Unbuilt ∧ start.Session third [.compiled 0, .failed 1] ∧
      third.Books [.compiled 0, .failed 1] ∧
      (∃ code, second.code? 0 = some code ∧ second.code? 2 = none ∧ third.code? 0 = some code ∧
        compile 0 third = .ok code third) ∧
      ∃ stop after, compile 1 third = .error stop after ∧ after.code? 1 = none ∧
        invoke caller 1 [] third = .error stop after := by
  intro placed misplaced start caller first second third
  have hdecode : misplaced.code.decode 0 = .ok (.branch .goto .absolute 1, 3) :=
    Code.decode_absoluteBranch (by decide) (.cons rfl (.cons rfl (.cons rfl .nil)))
  have hlabels : misplaced.code.misplacedTarget? = some 1 := by
    have hscan : misplaced.code.scan = [⟨0, .ok (.branch .goto .absolute 1, 3)⟩] := by
      rw [Code.scan, show misplaced.code.size = 3 from rfl, Code.scanFrom, if_pos (by decide),
        hdecode]
      rfl
    rw [Code.misplacedTarget?, Code.labelTargets, hscan]
    rfl
  have hunbuilt : start.Unbuilt := ⟨rfl, by simp [start, placed, misplaced]⟩
  have hplaced : compile 0 start = .ok _ _ := compile_of_placed rfl rfl rfl
  have hfirst : start.Session first [.compiled 0] :=
    Session.begun.performed (.compile 0) _ 5
      (.bind_ok hplaced (.compiled rfl rfl hplaced) (.quiet (.of_same rfl rfl rfl rfl)))
  have hsecond : start.Session second [.compiled 0] :=
    hfirst.performed (.copy 0) _ 5 (.quiet ⟨rfl, rfl, rfl, #[placed], rfl, by simp [placed]⟩)
  have hmisplaced : compile 1 second = .error _ _ := compile_of_misplaced rfl rfl hlabels
  have hattempt : second.Session third [.failed 1] :=
    Session.begun.performed (.compile 1) _ 5 (.bind_error hmisplaced (.failed rfl hmisplaced))
  have hthird : start.Session third [.compiled 0, .failed 1] :=
    hsecond.performed (.compile 1) _ 5 (.bind_error hmisplaced (.failed rfl hmisplaced))
  obtain ⟨-, -, hkept, -⟩ := hsecond.compiles_once hunbuilt
  obtain ⟨hbooks, -, -, -, hfailed⟩ := hthird.compiles_once hunbuilt
  have hlast : third = _ := congrArg machineAfter (bind_of_error hmisplaced)
  have hagain : compile 1 third = .error _ _ :=
    compile_of_misplaced (by rw [hlast]; rfl) rfl hlabels
  obtain ⟨-, hnone, hinvoke⟩ := hfailed 1 _ _ hagain
  obtain ⟨code, hcode⟩ : ∃ code, second.code? 0 = some code := ⟨_, rfl⟩
  obtain ⟨hthere, hsame⟩ := hkept 0 code hcode third _ hattempt
  exact ⟨hunbuilt, hthird, hbooks, ⟨code, hcode, rfl, hthere, hsame⟩, _, _, hagain, hnone,
    hinvoke caller [] (by rw [hlast]; rfl)⟩

end Machine

end LispMachine
