import LispMachine.Proofs.Depth.Running
import LispMachine.Proofs.Run.Bindings
import LispMachine.Proofs.Store.Lists

/-!
How functions with a template receive their arguments. Where there can be an operand stack, the
number of the arguments is checked before anything of the body runs, and a number that is refused
changes nothing but the heap, which holds the data of the error. Arguments that are accepted are put
on the operand stack, which always has room for them, and the body starts with just these values on
it. Where the slots of the stack are too many to be counted or stored, the invocation stops before
any of that. The main statement, `invoke_template`, says so of every caller, so nothing of it
depends on how, or whether, the body can run.
-/

set_option autoImplicit false

namespace LispMachine

open LispMachine.Action Storage Engine

/-! ### Arguments that are refused -/

/-- The greatest number of arguments as it stands in errors. -/
def ArityBound.value (bound : ArityBound) : Value :=
  match bound with
  | some n => .ofNat n
  | none => Symbols.many

/-- The error for a wrong number of arguments has fresh data: the numbers that are accepted, in one
cons, and the number of the arguments. -/
theorem wrongArgumentCount_apply {α : Type} (mandatory : Nat) (bound : ArityBound) (count : Nat)
    (store : Store) :
    ∃ heap data arity, store.heap.KeptIn heap ∧
      heap.cons? arity = some (.ofNat mandatory, bound.value) ∧
      heap.ListsFrom store.heap.size data [arity, .ofNat count] ∧
      (wrongArgumentCount mandatory bound count : Storage α) store =
        .error (.signal ⟨Symbols.wrongNumberOfArguments, data⟩) { store with heap := heap } := by
  let arity := store.heap.allocate (.cons (.ofNat mandatory) bound.value)
  let data := arity.2.list [arity.1, .ofNat count]
  have harity := store.heap.keptIn_allocate (.cons (.ofNat mandatory) bound.value)
  obtain ⟨hkept, hlists⟩ := arity.2.list_fresh [arity.1, .ofNat count]
  refine ⟨data.2, data.1, arity.1, harity.trans hkept, ?_, hlists.mono harity.size_le, ?_⟩
  · exact Heap.cons?_eq_some.mpr (hkept _ _ (Heap.getElem?_allocate _ _))
  · cases bound <;> rfl

/-! ### Arguments that are accepted -/

theorem Template.accepts_iff (template : Template) (count : Nat) :
    template.accepts count = true ↔
      ¬ (count < template.mandatory ∨ (template.positional < count ∧ template.rest = false)) := by
  obtain ⟨mandatory, positional, rest⟩ := template
  cases rest <;> simp [accepts]

/-- What a template makes of arguments: those up to the positional ones in their order, nil for those
that are missing, and with a rest the list of the others, which is fresh. -/
structure Template.Arranges (template : Template) (arguments : List Value) (before after : Heap)
    (slots : List Value) : Prop where
  kept : before.KeptIn after
  slots_eq : ∃ rest, slots = arguments.take template.positional ++
      List.replicate (template.positional - arguments.length) .nil ++ rest ∧
    if template.rest then ∃ others, rest = [others] ∧
      after.ListsFrom before.size others (arguments.drop template.positional)
    else rest = []

theorem templateSlots_apply (template : Template) (arguments : List Value) (store : Store) :
    ∃ heap slots, template.Arranges arguments store.heap heap slots ∧
      templateSlots template arguments store = .ok slots { store with heap := heap } := by
  let given := arguments.take template.positional ++
    List.replicate (template.positional - arguments.length) Value.nil
  have hslots : templateSlots template arguments =
      if template.rest then do
        let others ← restArguments template.positional arguments
        return given ++ [others]
      else return given := by
    have hmissing : template.positional - (arguments.take template.positional).length =
        template.positional - arguments.length := by
      rw [List.length_take]
      omega
    unfold templateSlots
    dsimp only
    rw [hmissing]
  rw [hslots]
  by_cases hrest : template.rest = true
  · obtain ⟨hkept, hlists⟩ := store.heap.list_fresh (arguments.drop template.positional)
    rw [if_pos hrest]
    refine ⟨_, _, ⟨hkept, [_], rfl, ?_⟩, rfl⟩
    rw [if_pos hrest]
    exact ⟨_, rfl, hlists⟩
  · rw [if_neg hrest]
    refine ⟨store.heap, _, ⟨.refl _, [], (List.append_nil _).symm, ?_⟩, rfl⟩
    rw [if_neg hrest]

/-- The slots that arguments fill are as many as the template says. -/
theorem Template.Arranges.length_eq {template : Template} {arguments slots : List Value}
    {before after : Heap} (harranges : template.Arranges arguments before after slots) :
    slots.length = template.entryDepth := by
  obtain ⟨-, rest, rfl, hrest⟩ := harranges
  unfold entryDepth
  split_ifs at hrest ⊢
  · obtain ⟨others, rfl, -⟩ := hrest
    simp only [List.length_append, List.length_take, List.length_replicate, List.length_singleton]
    omega
  · rw [hrest]
    simp only [List.length_append, List.length_take, List.length_replicate, List.length_nil]
    omega

/-! ### Invocations -/

section Invocations

variable {α : Type} {caller : Caller} {action action' : Engine α} {machine machine' : Machine}

/-- An attempt depends on nothing but what comes of the action. -/
theorem attempt_congr (hsame : action machine = action' machine') :
    caller.attempt action machine = caller.attempt action' machine' := by
  rw [Caller.attempt_apply, Caller.attempt_apply, hsame]

theorem attempt_bind_congr {β : Type} (hsame : action machine = action' machine')
    (next : Except Signal α → Engine β) :
    (caller.attempt action >>= next) machine = (caller.attempt action' >>= next) machine' := by
  change EStateM.bind _ next machine = EStateM.bind _ next machine'
  unfold EStateM.bind
  rw [attempt_congr hsame]

theorem unwindingTo_congr (hsame : action machine = action' machine') (mark : BindingMark) :
    unwindingTo caller mark action machine = unwindingTo caller mark action' machine' :=
  attempt_bind_congr hsame _

/-- A signal that leaves the log as it was leaves the action. -/
theorem unwindingTo_of_signal {reason : Signal} {after : Machine}
    (haction : action machine = .error (.signal reason) after)
    (hpermits : caller.permits (.stopping reason) after = true) :
    unwindingTo caller after.bindings.length action machine = .error (.signal reason) after := by
  have hattempt : caller.attempt action machine = .ok (.error reason) after := by
    rw [Caller.attempt_apply, haction]
    exact if_pos hpermits
  have hnone : BindingLog.BindsOnly (fun _ ↦ False) [] := nofun
  have hunbound : unbindTo caller after.bindings.length after = .ok () after :=
    unbindTo_of_bindsOnly caller hnone rfl
  exact (bind_of_ok hattempt).trans (bind_of_ok (Caller.attempt_of_ok hunbound))

/-- Run the body of a function whose arguments are in place, as an invocation does: however it ends,
its handlers are dropped and the bindings above the mark are undone. -/
def Engine.runStarted (caller : Caller) (mark : BindingMark) (frame : Frame)
    (stack : OperandStack) : Engine Value :=
  unwindingTo caller mark do
    let result ← caller.attempt do
      let value ← runFrame caller frame stack
      checkBalance frame
      return value
    truncateHandlers frame.handlerBase
    resume result

/-- Run the body of a function whose arguments are in place and have bound nothing. -/
def Engine.runReceived (caller : Caller) (frame : Frame) (stack : OperandStack) : Engine Value :=
  runStarted caller frame.mark frame stack

variable {id : Nat} {subject : Function} {template : Template} {arguments : List Value}

/-- Without slots for the stack an invocation goes nowhere. -/
theorem runInvocation_of_not_stackFits (hfits : ¬ subject.StackFits) (mark : BindingMark) :
    unwindingTo caller mark (runInvocation caller subject arguments) machine =
      .error (.exhausted .sizes) machine := by
  have hbody : runBody caller subject arguments machine.handlers.length machine =
      .error (.exhausted .sizes) machine := by
    rw [runBody_eq, if_neg hfits]
    rfl
  have hinvocation : runInvocation caller subject arguments machine =
      .error (.exhausted .sizes) machine := by
    change (caller.attempt (runBody caller subject arguments machine.handlers.length) >>=
      _ : Engine Value) machine = _
    exact bind_of_error (Caller.attempt_of_exhausted hbody)
  exact bind_of_error (Caller.attempt_of_exhausted hinvocation)

/-! ### Invocations with a stack -/

section Fits

variable (hfits : subject.StackFits)

include hfits

/-- Arguments that are refused end the invocation before the body starts. -/
theorem runInvocation_of_refused {reason : StoreError} {store : Store}
    (hrefused : receiveArguments caller subject.parameters arguments (.empty subject.stackLimit)
      machine = .error (.signal (.error reason.symbol reason.data))
        { machine with toStore := store })
    (hpermits : ∀ reason machine, caller.permits (.stopping reason) machine = true) :
    runInvocation caller subject arguments machine =
      .error (.signal (.error reason.symbol reason.data)) { machine with toStore := store } := by
  have hattempt : caller.attempt (runBody caller subject arguments machine.handlers.length)
      machine = .ok (.error (.error reason.symbol reason.data))
        { machine with toStore := store } := by
    have hbody : runBody caller subject arguments machine.handlers.length machine =
        .error (.signal (.error reason.symbol reason.data)) { machine with toStore := store } := by
      rw [runBody_eq, if_pos hfits]
      exact bind_of_error hrefused
    rw [Caller.attempt_apply, hbody]
    exact if_pos (hpermits _ _)
  have hkept : truncateHandlers machine.handlers.length { machine with toStore := store } =
      .ok () { machine with toStore := store } :=
    truncateHandlers_append (List.nil_append _).symm
  exact (bind_of_ok hattempt).trans (bind_of_ok hkept)

/-- A number of arguments that the template does not accept is an error before the body starts. -/
theorem runInvocation_of_signal {reason : StoreError} {store : Store}
    (htemplate : subject.parameters = .template template)
    (hrefused : template.accepts arguments.length = false)
    (herror : (wrongArgumentCount template.mandatory template.maxArguments arguments.length :
      Storage OperandStack) machine.toStore = .error (.signal reason) store)
    (hpermits : ∀ reason machine, caller.permits (.stopping reason) machine = true) :
    runInvocation caller subject arguments machine =
      .error (.signal (.error reason.symbol reason.data)) { machine with toStore := store } := by
  refine runInvocation_of_refused hfits ?_ hpermits
  rw [htemplate, receiveArguments, if_neg (Bool.eq_false_iff.mp hrefused)]
  exact liftM_of_signal herror

omit hfits in
/-- The values that a template makes of arguments are put on the stack, whoever is the caller. -/
theorem receiveArguments_of_slots {heap : Heap} {slots : List Value}
    (htemplate : subject.parameters = .template template)
    (haccepts : template.accepts arguments.length = true)
    (hslots : templateSlots template arguments machine.toStore =
      .ok slots { machine.toStore with heap := heap })
    (hlength : slots.length = template.entryDepth) :
    ∃ stack, stack.values = slots ∧ stack.limit = subject.stackLimit ∧
      ∀ caller, receiveArguments caller subject.parameters arguments (.empty subject.stackLimit)
        machine = .ok stack { machine with heap := heap } := by
  have hroom : (OperandStack.empty subject.stackLimit).depth + slots.length ≤
      (OperandStack.empty subject.stackLimit).limit := by
    have hentry := subject.entryDepth_le_stackLimit
    rw [Function.entryDepth, htemplate] at hentry
    rw [hlength]
    exact (Nat.zero_add _).symm ▸ hentry
  obtain ⟨stack, hvalues, hlimit, hpushed⟩ := pushAll_of_room hroom
  refine ⟨stack, hvalues, hlimit, fun caller ↦ ?_⟩
  rw [htemplate, receiveArguments, if_pos haccepts]
  refine (bind_of_ok (liftM_of_ok hslots)).trans ?_
  rw [hpushed caller]
  rfl

omit hfits in
/-- A number of arguments that the template accepts is put on the stack, whoever is the caller. -/
theorem receiveArguments_of_accepts (htemplate : subject.parameters = .template template)
    (haccepts : template.accepts arguments.length = true) (machine : Machine) :
    ∃ heap stack, template.Arranges arguments machine.heap heap stack.values ∧
      stack.limit = subject.stackLimit ∧
      ∀ caller, receiveArguments caller subject.parameters arguments (.empty subject.stackLimit)
        machine = .ok stack { machine with heap := heap } := by
  obtain ⟨heap, slots, harranges, hslots⟩ :=
    templateSlots_apply template arguments machine.toStore
  obtain ⟨stack, rfl, hlimit, hreceived⟩ :=
    receiveArguments_of_slots htemplate haccepts hslots harranges.length_eq
  exact ⟨heap, stack, harranges, hlimit, hreceived⟩

/-- Once its arguments are in place, the body runs. -/
theorem runInvocation_of_started {stack : OperandStack}
    (hreceived : receiveArguments caller subject.parameters arguments (.empty subject.stackLimit)
      machine = .ok stack machine') (mark : BindingMark) :
    unwindingTo caller mark (runInvocation caller subject arguments) machine =
      runStarted caller mark ⟨subject, machine'.bindings.length, machine.handlers.length⟩ stack
        machine' := by
  have hbody (base : Nat) : runBody caller subject arguments base machine =
      (do
        let value ← runFrame caller ⟨subject, machine'.bindings.length, base⟩ stack
        checkBalance ⟨subject, machine'.bindings.length, base⟩
        return value : Engine Value) machine' := by
    rw [runBody_eq, if_pos hfits]
    exact bind_of_ok hreceived
  refine unwindingTo_congr ?_ _
  change (caller.attempt (runBody caller subject arguments machine.handlers.length) >>=
    _ : Engine Value) machine = _
  exact attempt_bind_congr (hbody _) _

theorem runInvocation_of_received {stack : OperandStack} {heap : Heap}
    (hreceived : receiveArguments caller subject.parameters arguments (.empty subject.stackLimit)
      machine = .ok stack { machine with heap := heap }) :
    unwindingTo caller machine.bindings.length (runInvocation caller subject arguments) machine =
      runReceived caller ⟨subject, machine.bindings.length, machine.handlers.length⟩ stack
        { machine with heap := heap } :=
  runInvocation_of_started hfits hreceived _

end Fits

/-- The caller under which no instruction can be run. -/
def Caller.idle : Caller := ⟨fun _ _ ↦ exhausted, 0, fun _ _ ↦ true⟩

/-- A body needs rounds of its caller. -/
theorem runStarted_of_no_rounds (hrounds : caller.rounds = 0) (mark : BindingMark) (frame : Frame)
    (stack : OperandStack) (machine : Machine) :
    ∃ after, runStarted caller mark frame stack machine = .error (.exhausted .rounds) after := by
  have hframe : ∃ after, runFrame caller frame stack machine = .error (.exhausted .rounds) after := by
    unfold runFrame
    cases frame.function.compiled with
    | some code =>
      have hnone (machine : Machine) :
          runNative caller frame code.native stack machine = .error (.exhausted .rounds) machine := by
        rw [runNative, hrounds]
        rfl
      have hcounted : countCompiledCall machine = .ok () _ := rfl
      exact ⟨_, (bind_of_ok hcounted).trans (hnone _)⟩
    | none =>
      have hnone (machine : Machine) :
          interpret caller frame stack machine = .error (.exhausted .rounds) machine := by
        rw [interpret, hrounds]
        rfl
      have hcounted : countInterpretedCall machine = .ok () _ := rfl
      exact ⟨_, (bind_of_ok hcounted).trans (hnone _)⟩
  obtain ⟨after, hframe⟩ := hframe
  have hbody : (do
      let value ← runFrame caller frame stack
      checkBalance frame
      return value : Engine Value) machine = .error (.exhausted .rounds) after :=
    bind_of_error hframe
  refine ⟨after, bind_of_error (Caller.attempt_of_exhausted ?_)⟩
  exact bind_of_error (Caller.attempt_of_exhausted hbody)

theorem runReceived_of_no_rounds (hrounds : caller.rounds = 0) (frame : Frame)
    (stack : OperandStack) (machine : Machine) :
    ∃ after, runReceived caller frame stack machine = .error (.exhausted .rounds) after :=
  runStarted_of_no_rounds hrounds frame.mark frame stack machine

/-! ### Functions with a template -/

/-- Invoking the function with the arguments is an error because of their number: its data are the
numbers that the template accepts and the number of the arguments, in fresh conses, and nothing else
has changed. That is so for every caller, also for one under which no instruction can be run. -/
def Machine.RefusesCount (machine : Machine) (id : Nat) (template : Template)
    (arguments : List Value) : Prop :=
  ∃ heap data arity, machine.heap.KeptIn heap ∧
    heap.cons? arity = some (.ofNat template.mandatory, template.maxArguments.value) ∧
    heap.ListsFrom machine.heap.size data [arity, .ofNat arguments.length] ∧
    ∀ caller : Caller,
      (∀ reason machine, caller.permits (.stopping reason) machine = true) →
        invoke caller id arguments machine =
          .error (.signal (.error Symbols.wrongNumberOfArguments data)) { machine with heap := heap }

/-- A number of arguments that the template does not accept is refused. -/
theorem refusesCount_of_not_accepts (hfits : subject.StackFits)
    (hsubject : machine.functions[id]? = some subject)
    (htemplate : subject.parameters = .template template)
    (hsettled : subject.compiled ≠ none ∨ machine.settings.compileOnFirstCall = false)
    (hrefused : template.accepts arguments.length = false) :
    machine.RefusesCount id template arguments := by
  obtain ⟨heap, data, arity, hkept, harity, hdata, herror⟩ :=
    wrongArgumentCount_apply (α := OperandStack) template.mandatory template.maxArguments
      arguments.length machine.toStore
  refine ⟨heap, data, arity, hkept, harity, hdata, fun caller hpermits ↦ ?_⟩
  rw [invoke_of_settled hsubject hsettled]
  exact unwindingTo_of_signal (runInvocation_of_signal hfits htemplate hrefused herror hpermits)
    (hpermits _ _)

/-- With a number of arguments that the template accepts, the body starts. -/
theorem invoke_of_accepts (hfits : subject.StackFits)
    (hsubject : machine.functions[id]? = some subject)
    (htemplate : subject.parameters = .template template)
    (hsettled : subject.compiled ≠ none ∨ machine.settings.compileOnFirstCall = false)
    (haccepts : template.accepts arguments.length = true) :
    ∃ heap stack, template.Arranges arguments machine.heap heap stack.values ∧
      stack.depth = template.entryDepth ∧
      stack.limit = max subject.maxDepth template.entryDepth ∧
      ∀ caller, invoke caller id arguments machine =
        runReceived caller ⟨subject, machine.bindings.length, machine.handlers.length⟩ stack
          { machine with heap := heap } := by
  obtain ⟨heap, stack, harranges, hlimit, hreceived⟩ :=
    receiveArguments_of_accepts htemplate haccepts machine
  refine ⟨heap, stack, harranges, ?_, ?_, fun caller ↦ ?_⟩
  · rw [← OperandStack.length_values, harranges.length_eq]
  · rw [hlimit, Function.stackLimit, Function.entryDepth, htemplate]
  · rw [invoke_of_settled hsubject hsettled]
    exact runInvocation_of_received hfits (hreceived caller)

/-- Without slots for the stack an invocation of the function stops at once. -/
theorem invoke_of_not_stackFits (hfits : ¬ subject.StackFits)
    (hsubject : machine.functions[id]? = some subject)
    (hsettled : subject.compiled ≠ none ∨ machine.settings.compileOnFirstCall = false)
    (caller : Caller) : invoke caller id arguments machine = .error (.exhausted .sizes) machine := by
  rw [invoke_of_settled hsubject hsettled]
  exact runInvocation_of_not_stackFits hfits _

/-- A body that starts under every caller is no error because of the number of the arguments. -/
theorem not_refusesCount_of_started {frame : Frame} {stack : OperandStack} {started : Machine}
    (hstarts : ∀ caller, invoke caller id arguments machine =
      runReceived caller frame stack started) : ¬ machine.RefusesCount id template arguments := by
  rintro ⟨_, data, -, -, -, -, hrefused⟩
  -- A body that starts is not the error under a caller that gives it no rounds.
  have herror := hrefused Caller.idle fun _ _ ↦ rfl
  have hidle : Caller.idle.rounds = 0 := rfl
  obtain ⟨after, hexhausted⟩ := runReceived_of_no_rounds hidle frame stack started
  rw [hstarts Caller.idle, hexhausted] at herror
  cases herror

/-- A function with a template, about which there is nothing to compile. Where it can have an operand
stack, it refuses just the numbers of arguments that are too small or too great. With any other
number its body starts, on a stack that holds the arguments up to the positional ones in their order,
nil for those that are missing and, with a rest, a fresh list of the others. There is always room for
these values, whatever depth the function declares. Where the slots of the stack would be too many,
the invocation stops at once. -/
theorem invoke_template (hsubject : machine.functions[id]? = some subject)
    (htemplate : subject.parameters = .template template)
    (hsettled : subject.compiled ≠ none ∨ machine.settings.compileOnFirstCall = false)
    (arguments : List Value) :
    (subject.StackFits →
      (machine.RefusesCount id template arguments ↔
        arguments.length < template.mandatory ∨
          (template.positional < arguments.length ∧ template.rest = false)) ∧
      (¬ (arguments.length < template.mandatory ∨
          (template.positional < arguments.length ∧ template.rest = false)) →
        ∃ heap stack, template.Arranges arguments machine.heap heap stack.values ∧
          stack.depth = template.entryDepth ∧
          stack.limit = max subject.maxDepth template.entryDepth ∧
          ∀ caller, invoke caller id arguments machine =
            runReceived caller ⟨subject, machine.bindings.length, machine.handlers.length⟩ stack
              { machine with heap := heap })) ∧
    (¬ subject.StackFits → ∀ caller,
      invoke caller id arguments machine = .error (.exhausted .sizes) machine) := by
  have haccepts := template.accepts_iff arguments.length
  refine ⟨fun hfits ↦ ⟨⟨fun hrefuses ↦ ?_, fun hcount ↦ ?_⟩, fun hcount ↦
    invoke_of_accepts hfits hsubject htemplate hsettled (haccepts.mpr hcount)⟩,
    fun hfits caller ↦ ?_⟩
  · by_contra hcount
    obtain ⟨_, stack, -, -, -, hstarts⟩ :=
      invoke_of_accepts hfits hsubject htemplate hsettled (haccepts.mpr hcount)
    exact not_refusesCount_of_started hstarts hrefuses
  · refine refusesCount_of_not_accepts hfits hsubject htemplate hsettled ?_
    rw [← Bool.not_eq_true, haccepts]
    exact not_not_intro hcount
  · exact invoke_of_not_stackFits hfits hsubject hsettled caller

/-- A function with one positional parameter and a rest refuses no arguments, and starts with the
first of three below the list of the other two, although it declares no depth at all. -/
theorem invoke_template_rest :
    let template : Template := ⟨1, 1, true⟩
    let subject : Function :=
      { code := #[0x87], constants := #[], maxDepth := 0, parameters := .template template }
    let machine : Machine := { heap := .empty 1, settings := {}, functions := #[subject] }
    machine.RefusesCount 0 template [] ∧
      ∃ heap stack others, stack.values = [.t, others] ∧ heap.ListsFrom 0 others [.nil, .t] ∧
        stack.limit = 2 ∧
        ∀ caller, invoke caller 0 [.t, .nil, .t] machine =
          runReceived caller ⟨subject, 0, 0⟩ stack { machine with heap := heap } := by
  intro template subject machine
  have hsubject : machine.functions[0]? = some subject := rfl
  have htemplate : subject.parameters = .template template := rfl
  have hfits : subject.StackFits := by decide
  have hrefused := ((invoke_template hsubject htemplate (.inr rfl) []).1 hfits).1.mpr (by decide)
  obtain ⟨heap, stack, harranges, -, hlimit, hstarts⟩ :=
    ((invoke_template hsubject htemplate (.inr rfl) [.t, .nil, .t]).1 hfits).2 (by decide)
  obtain ⟨-, rest, hvalues, others, rfl, hothers⟩ := harranges
  exact ⟨hrefused, heap, stack, others, hvalues, hothers, hlimit, hstarts⟩

/-- Two functions take the arguments that they are given, which are none. The one declares the
greatest depth that there is as a size. The other has the most positional parameters, and a rest,
which makes one slot more than there are sizes. Neither refuses the arguments, and neither body
starts. -/
theorem invoke_template_unstarted :
    let plain : Template := ⟨0, 0, false⟩
    let widest : Template := ⟨0, 2 ^ 64 - 1, true⟩
    let deep : Function :=
      { code := #[0xC0, 0x87], constants := #[.nil], maxDepth := 2 ^ 64 - 1,
        parameters := .template plain }
    let wide : Function := { deep with maxDepth := 1, parameters := .template widest }
    let machine : Machine := { heap := .empty 1, settings := {}, functions := #[deep, wide] }
    plain.accepts 0 = true ∧ widest.accepts 0 = true ∧
      ¬ machine.RefusesCount 0 plain [] ∧ ¬ machine.RefusesCount 1 widest [] ∧
      ∀ id < 2, ¬ ∃ frame stack heap, ∀ caller, invoke caller id [] machine =
        runReceived caller frame stack { machine with heap := heap } := by
  intro plain widest deep wide machine
  have hstops (caller : Caller) :
      invoke caller 0 [] machine = .error (.exhausted .sizes) machine ∧
        invoke caller 1 [] machine = .error (.exhausted .sizes) machine :=
    ⟨invoke_of_not_stackFits (by decide : ¬ deep.StackFits) rfl (.inr rfl) caller,
      invoke_of_not_stackFits (by decide : ¬ wide.StackFits) rfl (.inr rfl) caller⟩
  refine ⟨by decide, by decide, ?_, ?_, ?_⟩
  · rintro ⟨_, _, _, -, -, -, hrefused⟩
    exact nomatch (hstops Caller.idle).1.symm.trans (hrefused Caller.idle fun _ _ ↦ rfl)
  · rintro ⟨_, _, _, -, -, -, hrefused⟩
    exact nomatch (hstops Caller.idle).2.symm.trans (hrefused Caller.idle fun _ _ ↦ rfl)
  · rintro id hid ⟨frame, stack, heap, hstarts⟩
    -- Under a caller without rounds a body that starts would use up the rounds.
    have hidle : Caller.idle.rounds = 0 := rfl
    obtain ⟨after, hrounds⟩ := runReceived_of_no_rounds hidle frame stack
      { machine with heap := heap }
    have hrun := (hstarts Caller.idle).trans hrounds
    obtain rfl | rfl : id = 0 ∨ id = 1 := by omega
    · exact nomatch (hstops Caller.idle).1.symm.trans hrun
    · exact nomatch (hstops Caller.idle).2.symm.trans hrun

end Invocations

end LispMachine
