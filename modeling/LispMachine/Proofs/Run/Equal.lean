import LispMachine.Proofs.Run.Invocations
import LispMachine.Proofs.Store.Applied

/-!
Machines with equal backgrounds. Two runs of one machine under different callers stay equal all the
way: functions are compiled on both at the same calls, and what is compiled is the same. Where two
such machines are together and their handlers are the same, they are one machine
(`Together.eq_of_equal`).
-/

set_option autoImplicit false

namespace LispMachine

open LispMachine.Action Storage Engine

variable {limited : Prop}

/-- The bond of machines whose backgrounds are equal and that are, where this is asked for, nested no
deeper than the settings allow. -/
def Bond.equal (limited : Prop) : Bond where
  ties depth left right := left = right ∧ (limited → depth ≤ left.settings.maxEvalDepth)
  settings_eq hties := congrArg Background.settings hties.1
  size_eq hties := congrArg (fun background ↦ background.functions.size) hties.1
  deeper hties hdepth := ⟨hties.1, fun _ ↦ hdepth⟩
  shallower hties := ⟨hties.1, fun hlimited ↦ Nat.le_of_succ_le (hties.2 hlimited)⟩
  metered _ hties := ⟨hties.1 ▸ rfl, hties.2⟩
  interpreted hties := ⟨hties.1 ▸ rfl, hties.2⟩
  compiled hties := ⟨hties.1 ▸ rfl, hties.2⟩
  added _ _ hties := ⟨hties.1 ▸ rfl, hties.2⟩

section Compiling

variable {machine : Machine} {id : Nat} {subject : Function}

theorem compile_apply (id : Nat) (machine : Machine) :
    compile id machine = (match machine.functions[id]? with
      | some subject =>
        match subject.compiled with
        | some code => Pure.pure code
        | none => compileFirst id subject
      | none => Action.exhausted : Engine CompiledCode) machine :=
  rfl

theorem compile_of_missing (hmissing : machine.functions[id]? = none) :
    compile id machine = .error (.exhausted .rounds) machine := by
  rw [compile_apply, hmissing]
  rfl

theorem compile_of_some (hsubject : machine.functions[id]? = some subject) :
    compile id machine = (match subject.compiled with
      | some code => Pure.pure code
      | none => compileFirst id subject : Engine CompiledCode) machine := by
  rw [compile_apply, hsubject]

theorem compile_of_compiled {code : CompiledCode}
    (hsubject : machine.functions[id]? = some subject) (hcompiled : subject.compiled = some code) :
    compile id machine = .ok code machine := by
  rw [compile_of_some hsubject, hcompiled]
  rfl

/-- When a target is out of place, only the compiler changes. -/
theorem compile_of_misplaced {target : Nat} (hsubject : machine.functions[id]? = some subject)
    (hcompiled : subject.compiled = none) (hlabels : subject.code.misplacedTarget? = some target) :
    let state := machine.compiler.getD {}
    compile id machine =
      .error (.signal (.fatal (.misplacedTarget subject.displayName target)))
        { machine with
          compiler := some { state with nextId := state.nextId + 1, failed := state.failed + 1 } } := by
  intro state
  rw [compile_of_some hsubject, hcompiled]
  have hstate : compilerState machine = .ok state machine := rfl
  refine (bind_of_ok hstate).trans ?_
  rw [hlabels]
  rfl

theorem compile_of_placed (hsubject : machine.functions[id]? = some subject)
    (hcompiled : subject.compiled = none) (hlabels : subject.code.misplacedTarget? = none) :
    let state := machine.compiler.getD {}
    let code : CompiledCode := ⟨state.nextId, subject.translate machine.settings.safeStack⟩
    compile id machine =
      .ok code
        { machine with
          compiler := some { state with
            nextId := state.nextId + 1, compiled := state.compiled + 1 }
          functions := machine.functions.modify id fun function ↦
            { function with compiled := some code } } := by
  intro state code
  rw [compile_of_some hsubject, hcompiled]
  have hstate : compilerState machine = .ok state machine := rfl
  refine (bind_of_ok hstate).trans ?_
  rw [hlabels]
  rfl

/-- How compiling a function ends. -/
inductive Compiles (id : Nat) (machine : Machine) :
    EStateM.Result (Stop Signal) Machine CompiledCode → Prop where
  | missing (hmissing : machine.functions[id]? = none) :
      Compiles id machine (.error (.exhausted .rounds) machine)
  | compiled {subject : Function} {code : CompiledCode}
      (hsubject : machine.functions[id]? = some subject) (hcompiled : subject.compiled = some code) :
      Compiles id machine (.ok code machine)
  /-- When a target is out of place, only the compiler changes. -/
  | misplaced {subject : Function} {target : Nat}
      (hsubject : machine.functions[id]? = some subject) (hopen : subject.compiled = none)
      (hlabels : subject.code.misplacedTarget? = some target) :
      Compiles id machine <|
        let state := machine.compiler.getD {}
        .error (.signal (.fatal (.misplacedTarget subject.displayName target)))
          { machine with
            compiler := some { state with
              nextId := state.nextId + 1, failed := state.failed + 1 } }
  | placed {subject : Function} (hsubject : machine.functions[id]? = some subject)
      (hopen : subject.compiled = none) (hlabels : subject.code.misplacedTarget? = none) :
      Compiles id machine <|
        let state := machine.compiler.getD {}
        let code : CompiledCode := ⟨state.nextId, subject.translate machine.settings.safeStack⟩
        .ok code
          { machine with
            compiler := some { state with
              nextId := state.nextId + 1, compiled := state.compiled + 1 }
            functions := machine.functions.modify id fun function ↦
              { function with compiled := some code } }

theorem compiles (id : Nat) (machine : Machine) : Compiles id machine (compile id machine) := by
  cases hsubject : machine.functions[id]? with
  | none => exact compile_of_missing hsubject ▸ .missing hsubject
  | some subject =>
    cases hcompiled : subject.compiled with
    | some code => exact compile_of_compiled hsubject hcompiled ▸ .compiled hsubject hcompiled
    | none =>
      cases hlabels : subject.code.misplacedTarget? with
      | some target =>
        exact compile_of_misplaced hsubject hcompiled hlabels ▸
          .misplaced hsubject hcompiled hlabels
      | none =>
        exact compile_of_placed hsubject hcompiled hlabels ▸ .placed hsubject hcompiled hlabels

/-- A first compilation that gives code has filled the slot of the function. -/
theorem compile_eq_ok {code : CompiledCode} {after : Machine}
    (hsubject : machine.functions[id]? = some subject) (hopen : subject.compiled = none)
    (hrun : compile id machine = .ok code after) :
    let state := machine.compiler.getD {}
    code = ⟨state.nextId, subject.translate machine.settings.safeStack⟩ ∧
      after = { machine with
        compiler := some { state with
          nextId := state.nextId + 1, compiled := state.compiled + 1 }
        functions := machine.functions.modify id fun function ↦
          { function with compiled := some code } } := by
  cases hlabels : subject.code.misplacedTarget? with
  | some target =>
    rw [compile_of_misplaced hsubject hopen hlabels] at hrun
    cases hrun
  | none =>
    rw [compile_of_placed hsubject hopen hlabels] at hrun
    cases hrun
    exact ⟨rfl, rfl⟩

/-- A compilation that fails says where a target is out of place, and only the compiler changes. -/
theorem compile_eq_error {stop : Stop Signal} {after : Machine}
    (hsubject : machine.functions[id]? = some subject)
    (hrun : compile id machine = .error stop after) :
    let state := machine.compiler.getD {}
    subject.compiled = none ∧
      (∃ target, subject.code.misplacedTarget? = some target ∧
        stop = .signal (.fatal (.misplacedTarget subject.displayName target))) ∧
      after = { machine with
        compiler := some { state with
          nextId := state.nextId + 1, failed := state.failed + 1 } } := by
  cases hcompiled : subject.compiled with
  | some code =>
    rw [compile_of_compiled hsubject hcompiled] at hrun
    cases hrun
  | none =>
    cases hlabels : subject.code.misplacedTarget? with
    | some target =>
      rw [compile_of_misplaced hsubject hcompiled hlabels] at hrun
      cases hrun
      exact ⟨rfl, ⟨target, rfl, rfl⟩, rfl⟩
    | none =>
      rw [compile_of_placed hsubject hcompiled hlabels] at hrun
      cases hrun

end Compiling

theorem agree_compile (id : Nat) :
    AgreeAs (.equal limited) .balanced (compile id) (compile id) := by
  rintro ours theirs depth length halike left right ⟨htogether, rfl⟩
  obtain ⟨hbackground, hdepth⟩ := htogether.tied
  have hfunctions : left.functions = right.functions := congrArg Background.functions hbackground
  have hcompiler : left.compiler = right.compiler := congrArg Background.compiler hbackground
  have hsettings : left.settings = right.settings := congrArg Background.settings hbackground
  have hupdated (functions : Array Function) (compiler : Option CompilerState) :
      Together (.equal limited) ours theirs depth
        { left with compiler := compiler, functions := functions }
        { right with
          settings := left.settings, compiler := compiler, functions := functions } :=
    { htogether with
      tied := ⟨congrArg (fun background : Background ↦
        { background with
          settings := left.settings, compiler := compiler, functions := functions })
        hbackground, hdepth⟩ }
  have hcompiles := compiles id left
  generalize compile id left = run at hcompiles ⊢
  cases hcompiles with
  | missing => exact .exhausted
  | compiled hsubject hcompiled =>
    rw [compile_of_compiled (hfunctions ▸ hsubject) hcompiled]
    exact .ok ⟨rfl, htogether, rfl⟩
  | misplaced hsubject hopen hlabels =>
    rw [compile_of_misplaced (hfunctions ▸ hsubject) hopen hlabels, ← hcompiler, ← hfunctions,
      ← hsettings]
    exact .signal ⟨hupdated left.functions _, Nat.le_refl _⟩
  | placed hsubject hopen hlabels =>
    rw [compile_of_placed (hfunctions ▸ hsubject) hopen hlabels, ← hcompiler, ← hfunctions,
      ← hsettings]
    exact .ok ⟨rfl, hupdated _ _, rfl⟩

theorem agree_compileIfDue (id : Nat) :
    AgreeAs (.equal limited) .balanced (compileIfDue id) (compileIfDue id) := by
  rintro ours theirs depth length halike left right ⟨htogether, hlength⟩
  have hsettings : left.settings = right.settings := (Bond.equal limited).settings_eq htogether.tied
  change SameEnd _ _
    ((if left.settings.compileOnFirstCall then _ else _ : Engine Unit) left)
    ((if right.settings.compileOnFirstCall then _ else _ : Engine Unit) right)
  rw [← hsettings]
  exact AgreeAs.ite (.bind (agree_compile id) fun _ ↦ .pure ()) (.pure ()) ours theirs depth length
    halike left right ⟨htogether, hlength⟩

/-- Under companions of which the second permits whatever the first does, invocations agree. -/
theorem agree_invoke_equal {caller companion : Caller}
    (hcompanions : WatchedCompanions (.equal limited) caller companion) (id : Nat)
    (arguments : List Value) :
    AgreeAs (.equal limited) .balanced (invoke caller id arguments)
      (invoke companion id arguments) := by
  refine agree_invoke hcompanions.toCompanions agree_compileIfDue ?_ id arguments
  rintro depth left right id ⟨rfl, -⟩
  exact .same hcompanions _

/-- Two watches, of which the second permits whatever the first does, make companions. -/
theorem companions_equal {watch watch' : Event → Machine → Bool}
    (hpermits : ∀ {ours theirs depth left right} event,
      Together (.equal limited) ours theirs depth left right → watch event left = true →
        watch' event right = true) (steps : Nat) :
    WatchedCompanions (.equal limited) (.watched watch steps) (.watched watch' steps) :=
  companions_watched hpermits (fun hcompanions _ _ ↦ agree_invoke_equal hcompanions) steps

/-- Machines that run together under equal backgrounds, with the same handlers, are equal. -/
theorem Together.eq_of_equal {handlers : HandlerStack} {depth : Nat} {left right : Machine}
    (htogether : Together (.equal limited) handlers handlers depth left right) : left = right := by
  obtain ⟨hstore, hbindings, hquit, harrivals, hleft, hright, hours, htheirs, hbackground, -⟩ :=
    htogether
  cases left
  cases right
  simp only [Machine.background, Background.mk.injEq] at hbackground
  simp_all

end LispMachine
