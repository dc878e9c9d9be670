import LispMachine.Proofs.Run.Delivery
import LispMachine.Proofs.Run.Turns

/-!
What happens in a run, written down. A `Note` says that a frame was interpreted, with the opcodes
that it fetched in order, or that the compilation of a function was attempted. `Journals` says which
notes belong to a run of an action from a machine: those of its parts, in the order in which the
parts begin. A frame has its own note, and then come those of its turns, so that a note is about one
frame alone, whatever is called and caught while it runs. Where nothing is noted, nothing was
interpreted, counted or compiled (`Machine.Quiet`).

The main statements are `noted_watched` and `Request.noted`: every run has a journal. An induction
over the journal of a run then tells what the run has done to the machine.
-/

set_option autoImplicit false

namespace LispMachine

open LispMachine.Action Storage Engine

variable {α β : Type}

/-! ### Journals -/

/-- Something that happened in a run. -/
inductive Note where
  /-- A frame was interpreted, and these are the opcodes that it fetched. -/
  | interpreted (opcodes : List UInt8)
  /-- A function that had not been compiled was. -/
  | compiled (id : Nat)
  /-- A function that had not been compiled could not be. -/
  | failed (id : Nat)
  deriving DecidableEq

/-- From one machine to another nothing was interpreted, counted or compiled. Functions may have
been added, none of them compiled. -/
structure Machine.Quiet (before after : Machine) : Prop where
  compiler_eq : after.compiler = before.compiler
  meter_eq : after.meter = before.meter
  interpretedCalls_eq : after.interpretedCalls = before.interpretedCalls
  functions_eq : ∃ added : Array Function, after.functions = before.functions ++ added ∧
    ∀ function ∈ added, function.compiled = none

theorem Machine.Quiet.of_same {before after : Machine}
    (hcompiler : after.compiler = before.compiler) (hmeter : after.meter = before.meter)
    (hcalls : after.interpretedCalls = before.interpretedCalls)
    (hfunctions : after.functions = before.functions) : before.Quiet after :=
  ⟨hcompiler, hmeter, hcalls, #[], by rw [hfunctions, Array.append_empty], nofun⟩

/-- The notes belong to the run of an action from a machine. -/
inductive Journals : {α : Type} → Engine α → Machine → List Note → Prop where
  | quiet {α : Type} {action : Engine α} {machine : Machine}
      (hquiet : machine.Quiet (machineAfter (action machine))) : Journals action machine []
  | bind_ok {α β : Type} {first : Engine α} {next : α → Engine β} {machine between : Machine}
      {result : α} {notes later : List Note} (hrun : first machine = .ok result between)
      (hfirst : Journals first machine notes) (hnext : Journals (next result) between later) :
      Journals (first >>= next) machine (notes ++ later)
  | bind_error {α β : Type} {first : Engine α} {next : α → Engine β} {machine between : Machine}
      {stop : Stop Signal} {notes : List Note} (hrun : first machine = .error stop between)
      (hfirst : Journals first machine notes) : Journals (first >>= next) machine notes
  | attempt {α : Type} {action : Engine α} {machine : Machine} {notes : List Note}
      (haction : Journals action machine notes) : Journals (Action.attempt action) machine notes
  | compiled {id : Nat} {machine after : Machine} {subject : Function} {code : CompiledCode}
      (hsubject : machine.functions[id]? = some subject) (hopen : subject.compiled = none)
      (hrun : compile id machine = .ok code after) : Journals (compile id) machine [.compiled id]
  | failed {id : Nat} {machine after : Machine} {subject : Function} {stop : Stop Signal}
      (hsubject : machine.functions[id]? = some subject)
      (hrun : compile id machine = .error stop after) : Journals (compile id) machine [.failed id]
  /-- A frame is interpreted, and each of its turns has notes of its own. -/
  | interpreted {caller : Caller} {frame : Frame} {stack : OperandStack} {machine : Machine}
      {states : List FrameState} (notes : FrameState → List Note)
      (hstates : states = turns caller frame caller.rounds
        (⟨0, stack, 0⟩, { machine with interpretedCalls := machine.interpretedCalls + 1 }))
      (hturns : ∀ state ∈ states,
        Journals (turn caller frame state.1) (counted frame state) (notes state)) :
      Journals (do countInterpretedCall; interpret caller frame stack) machine
        (.interpreted (states.filterMap (fetched? frame)) :: states.flatMap notes)

/-- An attempt ends on the machine on which what is attempted ends. -/
theorem machineAfter_attempt (action : Engine α) (machine : Machine) :
    machineAfter (Action.attempt action machine) = machineAfter (action machine) := by
  unfold Action.attempt
  cases action machine with
  | ok result after => rfl
  | error stop after => cases stop <;> rfl

/-- Every run of the action has a journal. -/
def Noted (action : Engine α) : Prop := ∀ machine, ∃ notes, Journals action machine notes

namespace Noted

/-! ### Parts -/

theorem quietly {action : Engine α}
    (hquiet : ∀ machine : Machine, machine.Quiet (machineAfter (action machine))) : Noted action :=
  fun machine ↦ ⟨[], .quiet (hquiet machine)⟩

theorem unchanging {action : Engine α}
    (hsame : ∀ machine, machineAfter (action machine) = machine) : Noted action :=
  quietly fun machine ↦ by rw [hsame machine]; exact .of_same rfl rfl rfl rfl

theorem pure (result : α) : Noted (Pure.pure result : Engine α) := unchanging fun _ ↦ rfl

theorem fault (reason : Fault) : Noted (Action.fault reason : Engine α) := unchanging fun _ ↦ rfl

theorem signal (reason : Signal) : Noted (Action.signal reason : Engine α) := unchanging fun _ ↦ rfl

theorem exhausted : Noted (Action.exhausted : Engine α) := unchanging fun _ ↦ rfl

theorem sized (count : Option α) : Noted (Action.sized count : Engine α) := by
  cases count with
  | some count => exact unchanging fun _ ↦ rfl
  | none => exact unchanging fun _ ↦ rfl

theorem resume (result : Except Signal α) : Noted (Action.resume result : Engine α) :=
  unchanging fun _ ↦ by cases result <;> rfl

theorem stored (action : Storage α) : Noted (liftM action : Engine α) := by
  refine quietly fun machine ↦ ?_
  rw [liftM_apply]
  cases action machine.toStore <;> exact .of_same rfl rfl rfl rfl

theorem observe (caller : Caller) (event : Event) : Noted (caller.observe event) := by
  refine unchanging fun machine ↦ ?_
  unfold Caller.observe
  split_ifs <;> rfl

/-- Some action after another, which need only be considered for what the first can give. -/
theorem bind_reached {first : Engine α} {next : α → Engine β} (hfirst : Noted first)
    (hnext : ∀ machine result after, first machine = .ok result after → Noted (next result)) :
    Noted (first >>= next) := by
  intro machine
  obtain ⟨notes, hnotes⟩ := hfirst machine
  cases hrun : first machine with
  | ok result between =>
    obtain ⟨later, hlater⟩ := hnext machine result between hrun between
    exact ⟨_, .bind_ok hrun hnotes hlater⟩
  | error stop between => exact ⟨_, .bind_error hrun hnotes⟩

theorem bind {first : Engine α} {next : α → Engine β} (hfirst : Noted first)
    (hnext : ∀ result, Noted (next result)) : Noted (first >>= next) :=
  hfirst.bind_reached fun _ result _ _ ↦ hnext result

theorem attempt {action : Engine α} (haction : Noted action) (caller : Caller) :
    Noted (caller.attempt action) := by
  have hattempt : Noted (Action.attempt action) := fun machine ↦
    (haction machine).imp fun _ ↦ .attempt
  refine hattempt.bind fun result ↦ ?_
  cases result with
  | ok result => exact pure _
  | error reason => exact (observe caller _).bind fun _ ↦ pure _

theorem keepFirst (caller : Caller) (first : Option Signal) (reason : Signal) :
    Noted (caller.keepFirst first reason) := by
  cases first with
  | none => exact pure reason
  | some earlier => exact (observe caller _).bind fun _ ↦ pure earlier

theorem bindingMark : Noted Engine.bindingMark := unchanging fun _ ↦ rfl

theorem handlerCount : Noted Engine.handlerCount := unchanging fun _ ↦ rfl

theorem noticeQuit : Noted Engine.noticeQuit := by
  refine quietly fun machine ↦ ?_
  rw [noticeQuit_apply]
  split_ifs <;> exact .of_same rfl rfl rfl rfl

theorem checkpoint (backward : Bool) : Noted (Engine.checkpoint backward) := by
  unfold Engine.checkpoint
  split_ifs
  · exact (stored _).bind fun _ ↦ noticeQuit
  · exact noticeQuit

theorem throwTo (tag value : Value) : Noted (Engine.throwTo tag value : Engine α) := by
  refine quietly fun machine ↦ ?_
  rw [throwTo_apply]
  split_ifs
  · exact .of_same rfl rfl rfl rfl
  · rw [liftM_apply]
    cases (error Symbols.noCatch [tag, value] : Storage α) machine.toStore <;>
      exact .of_same rfl rfl rfl rfl

theorem logBinding (entry : BindingEntry) : Noted (Engine.logBinding entry) :=
  quietly fun _ ↦ .of_same rfl rfl rfl rfl

theorem truncateHandlers (count : Nat) : Noted (Engine.truncateHandlers count) :=
  quietly fun _ ↦ .of_same rfl rfl rfl rfl

theorem addFunction {function : Function} (hnew : function.compiled = none) :
    Noted (Engine.addFunction function) :=
  quietly fun machine ↦ ⟨rfl, rfl, rfl, #[function], Array.push_eq_append, by simp [hnew]⟩

/-- Compiling is noted unless there is nothing left to compile. -/
theorem compile (id : Nat) : Noted (Engine.compile id) := by
  intro machine
  cases hsubject : machine.functions[id]? with
  | none =>
    refine ⟨[], .quiet ?_⟩
    rw [compile_of_missing hsubject]
    exact .of_same rfl rfl rfl rfl
  | some subject =>
    cases hcompiled : subject.compiled with
    | some code =>
      refine ⟨[], .quiet ?_⟩
      rw [compile_of_compiled hsubject hcompiled]
      exact .of_same rfl rfl rfl rfl
    | none =>
      cases hrun : Engine.compile id machine with
      | ok code after => exact ⟨_, .compiled hsubject hcompiled hrun⟩
      | error stop after => exact ⟨_, .failed hsubject hrun⟩

theorem compileIfDue (id : Nat) : Noted (Engine.compileIfDue id) := by
  have hget : Noted (get : Engine Machine) := unchanging fun _ ↦ rfl
  refine hget.bind fun machine ↦ ?_
  split_ifs
  · exact (compile id).bind fun _ ↦ pure ()
  · exact pure ()

/-- A frame whose turns have journals has one. -/
theorem interpreted {caller : Caller} {frame : Frame}
    (hturn : ∀ activation, Noted (turn caller frame activation)) (stack : OperandStack) :
    Noted (do countInterpretedCall; interpret caller frame stack) := by
  intro machine
  choose notes hnotes using fun state : FrameState ↦ hturn state.1 (counted frame state)
  exact ⟨_, .interpreted notes rfl fun state _ ↦ hnotes state⟩

end Noted

/-! ### Unwinding and dispatching -/

section Applying

variable {caller : Caller}
  (happly : ∀ function arguments, Noted (caller.apply function arguments))

include happly

theorem noted_runUnwindForm (handler : Value) : Noted (runUnwindForm caller handler) := by
  refine (Noted.stored _).bind fun store ↦ ?_
  split_ifs
  · exact (happly handler []).bind fun _ ↦ .pure ()
  · exact (Noted.stored _).bind fun body ↦ (happly _ _).bind fun _ ↦ .pure ()

theorem noted_undo (entry : BindingEntry) : Noted (undo caller entry) := by
  cases entry with
  | unwindProtect handler => exact noted_runUnwindForm happly handler
  | restriction buffer bounds => cases bounds <;> exact .stored _
  | _ => exact .stored _

theorem noted_unwindFrom (mark : BindingMark) (rounds : Nat) (first : Option Signal) :
    Noted (unwindFrom caller mark rounds first) := by
  induction rounds generalizing first with
  | zero => exact .exhausted
  | succ rounds ih =>
    have htake : Noted (takeBinding mark) := by
      refine .quietly fun machine ↦ ?_
      rw [takeBinding_apply]
      cases machine.bindings with
      | nil => exact .of_same rfl rfl rfl rfl
      | cons entry rest =>
        dsimp only
        split_ifs <;> exact .of_same rfl rfl rfl rfl
    refine htake.bind fun entry ↦ ?_
    cases entry with
    | none => exact .pure first
    | some entry =>
      refine ((noted_undo happly entry).attempt caller).bind fun result ↦ ?_
      cases result with
      | ok _ => exact ih first
      | error reason => exact (Noted.keepFirst caller first reason).bind fun kept ↦ ih (some kept)

theorem noted_unbindTo (mark : BindingMark) : Noted (unbindTo caller mark) := by
  refine Noted.bindingMark.bind fun now ↦ ?_
  refine (noted_unwindFrom happly mark _ none).bind fun first ↦ ?_
  cases first with
  | none => exact .pure ()
  | some reason => exact .signal reason

theorem noted_unbind (count : Nat) : Noted (unbind caller count) :=
  (Noted.observe caller _).bind fun _ ↦ Noted.bindingMark.bind fun _ ↦ noted_unbindTo happly _

theorem noted_bracketed {action : Engine α} (haction : Noted action) :
    Noted (do let mark ← bindingMark; unwindingTo caller mark action) := by
  refine Noted.bindingMark.bind fun mark ↦ (haction.attempt caller).bind fun result ↦ ?_
  refine ((noted_unbindTo happly mark).attempt caller).bind fun unwound ↦ ?_
  cases unwound with
  | ok _ => cases result <;> exact .resume _
  | error later =>
    cases result with
    | ok _ => exact .signal later
    | error reason => exact (Noted.keepFirst caller _ later).bind fun kept ↦ .signal kept

theorem noted_dispatch (base : Nat) (reason : Signal) : Noted (dispatch caller base reason) := by
  have hwithin (rounds : Nat) (reason : Signal) :
      Noted (dispatchWithin caller base rounds reason) := by
    induction rounds generalizing reason with
    | zero => exact .exhausted
    | succ rounds ih =>
      have hfind : Noted (findHandler base reason) := by
        refine .unchanging fun machine ↦ ?_
        obtain hfound | hfound | ⟨handler, outer, hfound, -⟩ :=
          findHandler_cases base reason machine <;> rw [hfound] <;> rfl
      refine hfind.bind fun found ↦ ?_
      cases found with
      | none => exact .pure _
      | some found =>
        have hset : Noted (setHandlers found.2) := .quietly fun _ ↦ .of_same rfl rfl rfl rfl
        refine (Noted.observe caller _).bind fun _ ↦ hset.bind fun _ ↦ ?_
        refine ((noted_unbindTo happly found.1.mark).attempt caller).bind fun unwound ↦ ?_
        cases unwound with
        | error next => exact ih next
        | ok _ =>
          refine (Noted.stored _).bind fun payload ↦ ?_
          cases payload <;> exact .pure _
  exact Noted.handlerCount.bind fun count ↦ hwithin _ reason

theorem noted_dispatching {frame : Frame} {step : Engine α} {resume : Handler → Value → Engine α}
    (hstep : Noted step) (hresume : ∀ handler payload, Noted (resume handler payload)) :
    Noted (dispatching caller frame step resume) := by
  refine (hstep.attempt caller).bind fun result ↦ ?_
  cases result with
  | ok outcome => exact .pure outcome
  | error reason =>
    refine (noted_dispatch happly _ reason).bind fun disposition ↦ ?_
    cases disposition with
    | propagate reason => exact .signal reason
    | resume handler payload => exact hresume handler payload

theorem noted_withHandler (kind : HandlerKind) (tag : Value) {body : Engine Value}
    (hbody : Noted body) : Noted (withHandler caller kind tag body) := by
  have hpush (handler : Handler) : Noted (pushHandler handler) :=
    .quietly fun _ ↦ .of_same rfl rfl rfl rfl
  refine Noted.handlerCount.bind fun base ↦ Noted.bindingMark.bind fun mark ↦ ?_
  refine (hpush _).bind fun _ ↦ (hbody.attempt caller).bind fun result ↦ ?_
  cases result with
  | ok value => exact (Noted.truncateHandlers base).bind fun _ ↦ .pure _
  | error reason =>
    refine (noted_dispatch happly base reason).bind fun disposition ↦ ?_
    refine (Noted.truncateHandlers base).bind fun _ ↦ ?_
    cases disposition with
    | resume handler payload => exact .pure _
    | propagate reason => exact .signal reason

/-! ### Whole runs -/

/-- What is put together from the parts of a run has a journal if what it calls has. -/
theorem Composed.noted {use : LogUse} {action : Caller → Engine α}
    (hcomposed : Composed use action) : Noted (action caller) := by
  induction hcomposed with
  | pure result => exact .pure result
  | stored action => exact .stored action
  | exhausted => exact .exhausted
  | fault reason => exact .fault reason
  | bind _ _ hfirst hnext => exact hfirst.bind hnext
  | growing _ ih => exact ih
  | freely _ ih => exact ih
  | rounds _ ih => exact ih caller.rounds
  | apply function arguments => exact happly function arguments
  | checkpoint backward => exact .checkpoint backward
  | throwing tag value => exact .throwTo tag value
  | logging entry => exact .logBinding entry
  | unbinding count => exact noted_unbind happly count
  | bracketed _ ih => exact noted_bracketed happly ih
  | caught kind tag _ ih => exact noted_withHandler happly kind tag ih

/-- A part of a frame that counts nothing has a journal if what it calls has. -/
theorem Stepped.noted {frame : Frame} {pushes : Bool} {exit : Exit} {action : Caller → Engine α}
    (hstepped : Stepped frame false pushes exit action) : Noted (action caller) := by
  induction hstepped with
  | pure result => exact .pure result
  | exhausted => exact .exhausted
  | fault reason => exact .fault reason
  | observe event _ => exact .observe caller event
  | countOpcode _ _ hcounts | countInterpretedCall hcounts => exact absurd hcounts (by decide)
  | countCompiledCall => exact .quietly fun _ ↦ .of_same rfl rfl rfl rfl
  | pushHandler kind tag depth resume _ => exact .quietly fun _ ↦ .of_same rfl rfl rfl rfl
  | popHandler =>
    refine Noted.handlerCount.bind fun count ↦ ?_
    split_ifs
    · exact .fault _
    · exact .quietly fun _ ↦ .of_same rfl rfl rfl rfl
  | unbindAll => exact noted_unbindTo happly frame.mark
  | composed hcomposed => exact hcomposed.noted happly
  | bind _ _ hfirst hnext => exact hfirst.bind hnext
  | rounds _ ih => exact ih caller.rounds
  | leaving _ ih => exact ih
  | unhandled _ _ ih => exact ih
  | dispatching _ _ hstep hresume => exact noted_dispatching happly hstep hresume

theorem noted_runFrame (frame : Frame) (stack : OperandStack) :
    Noted (runFrame caller frame stack) := by
  unfold runFrame
  cases frame.function.compiled with
  | none => exact .interpreted (fun activation ↦ (Stepped.turn activation).noted happly) stack
  | some code =>
    have hnative : Stepped frame false (!code.native.sites.isEmpty) .outward fun caller ↦
        runNative caller frame code.native stack := .runNative rfl stack
    have hcount : Noted countCompiledCall := .quietly fun _ ↦ .of_same rfl rfl rfl rfl
    exact hcount.bind fun _ ↦ hnative.noted happly

theorem noted_runInvocation {subject : Function} {arguments : List Value}
    (hreceived : Noted
      (receiveArguments caller subject.parameters arguments (.empty subject.stackLimit))) :
    Noted (runInvocation caller subject arguments) := by
  have hbalance (frame : Frame) : Noted (checkBalance frame) := by
    refine Noted.handlerCount.bind fun handlers ↦ Noted.bindingMark.bind fun bindings ↦ ?_
    split_ifs
    · exact (Noted.truncateHandlers _).bind fun _ ↦ .fault _
    · exact .pure ()
    · exact .fault _
  have hbody (base : Nat) : Noted (runBody caller subject arguments base) := by
    rw [runBody_eq]
    split
    case isFalse => exact .unchanging fun _ ↦ rfl
    refine hreceived.bind fun stack ↦ Noted.bindingMark.bind fun mark ↦ ?_
    refine (noted_runFrame happly _ stack).bind fun value ↦ ?_
    exact (hbalance _).bind fun _ ↦ .pure value
  refine Noted.handlerCount.bind fun base ↦ ((hbody base).attempt caller).bind fun result ↦ ?_
  exact (Noted.truncateHandlers base).bind fun _ ↦ .resume result

/-- What is put together from the parts of a call has a journal if what it calls has. -/
theorem Called.noted {action : Caller → Engine α} (hcalled : Called action) :
    Noted (action caller) := by
  induction hcalled with
  | composed hcomposed => exact hcomposed.noted happly
  | observe event _ => exact .observe caller event
  | bind _ _ hfirst hnext => exact hfirst.bind hnext
  | compileIfDue id => exact .compileIfDue id
  | addFunction function hnew => exact .addFunction hnew
  | function id => exact .unchanging fun _ ↦ rfl
  | bracketed subject arguments _ hreceived =>
    exact noted_bracketed happly (noted_runInvocation happly hreceived)

theorem noted_applyFunction (function : Value) (arguments : List Value) :
    Noted (applyFunction caller function arguments) := by
  have hget : Noted (get : Engine Machine) := .unchanging fun _ ↦ rfl
  have hdepth (change : Nat → Nat) :
      Noted (modify fun machine ↦ { machine with evalDepth := change machine.evalDepth }) :=
    .quietly fun _ ↦ .of_same rfl rfl rfl rfl
  have hcall : Noted (do
      caller.observe (.applying function arguments)
      call caller function arguments) :=
    (Noted.observe caller _).bind fun _ ↦ (Called.call function arguments).noted happly
  refine hget.bind fun machine ↦ ?_
  split_ifs
  · exact .stored _
  · refine (Noted.checkpoint false).bind fun _ ↦ (hdepth (· + 1)).bind fun _ ↦ ?_
    exact (hcall.attempt caller).bind fun result ↦ (hdepth (· - 1)).bind fun _ ↦ .resume result

end Applying

/-- Every application has a journal, by induction on the steps that it may take. -/
theorem noted_watched (watch : Event → Machine → Bool) (steps : Nat) (function : Value)
    (arguments : List Value) : Noted ((Caller.watched watch steps).apply function arguments) := by
  induction steps generalizing function arguments with
  | zero => exact .exhausted
  | succ steps ih => exact noted_applyFunction ih function arguments

/-- Everything that a machine can be asked for has a journal. -/
theorem Request.noted {caller : Caller}
    (happly : ∀ function arguments, Noted (caller.apply function arguments)) (request : Request) :
    Noted (request.run caller) := by
  cases request with
  | invoking id arguments => exact (Called.invoke id arguments).noted happly
  | applying function arguments => exact happly function arguments
  | evaluating form => exact happly _ _

end LispMachine
