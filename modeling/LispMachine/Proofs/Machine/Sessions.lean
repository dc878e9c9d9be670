import LispMachine.Proofs.Machine.Reached
import LispMachine.Proofs.Run.Journal

/-!
Sessions. A host makes one machine after another out of the one with which it begins: it asks for
what it likes, and it changes the settings and the meter as it likes. A session is what it has come
to, with the notes of everything that has happened on the way (`Machine.Session`).

Everything that a host can ask for has a journal (`HostAction.noted`), but for starting and stopping
the meter, which is a change of settings. So every session goes on, whatever is asked for next
(`Machine.Session.exists_next`), and a machine that is reached is reached in a session
(`Machine.Reached.exists_session`).
-/

set_option autoImplicit false

namespace LispMachine

open LispMachine.Action Storage Engine

variable {α β : Type}

/-! ### Loading -/

namespace Loader

/-- Every run of the loading has a journal. -/
def Noted (action : Loader α) : Prop := LispMachine.Noted action.run

namespace Noted

theorem pure (result : α) : Noted (Pure.pure result : Loader α) := LispMachine.Noted.pure _

theorem refused (reason : LoadError) : Noted (throw reason : Loader α) := LispMachine.Noted.pure _

/-- Loading after loading, which need only be considered for what the first can give. -/
theorem bind_reached {action : Loader α} {next : α → Loader β} (haction : Noted action)
    (hnext : ∀ machine loaded after, action.run machine = .ok (.ok loaded) after →
      Noted (next loaded)) : Noted (action >>= next) := by
  refine LispMachine.Noted.bind_reached haction fun machine result after hrun ↦ ?_
  cases result with
  | ok loaded => exact hnext machine loaded after hrun
  | error reason => exact LispMachine.Noted.pure _

theorem bind {action : Loader α} {next : α → Loader β} (haction : Noted action)
    (hnext : ∀ loaded, Noted (next loaded)) : Noted (action >>= next) :=
  haction.bind_reached fun _ loaded _ _ ↦ hnext loaded

/-- An action of the machine as a part of loading. -/
theorem engine {action : Engine α} (haction : LispMachine.Noted action) :
    Noted (liftM action : Loader α) :=
  haction.bind fun _ ↦ LispMachine.Noted.pure _

theorem stored (action : Storage α) : Noted (liftM action : Loader α) :=
  engine (.stored action)

theorem liftExcept (result : Except LoadError α) :
    Noted (MonadExcept.ofExcept result : Loader α) := by
  cases result with
  | ok value => exact pure value
  | error reason => exact refused reason

theorem mapM {items : List α} {body : α → Loader β} (hbody : ∀ item, Noted (body item)) :
    Noted (items.mapM body) := by
  induction items with
  | nil => exact pure _
  | cons item items ih =>
    rw [List.mapM_cons]
    exact (hbody item).bind fun _ ↦ ih.bind fun _ ↦ pure _

theorem forM {items : List α} {body : α → Loader PUnit} (hbody : ∀ item, Noted (body item)) :
    Noted (items.forM body) := by
  induction items with
  | nil => exact pure _
  | cons item items ih => exact (hbody item).bind fun _ ↦ ih

end Noted

/-- What a loading gives satisfies a condition. -/
def Gives (condition : α → Prop) (action : Loader α) : Prop :=
  ∀ machine loaded after, action.run machine = .ok (.ok loaded) after → condition loaded

theorem Gives.pure {condition : α → Prop} {result : α} (hresult : condition result) :
    Gives condition (Pure.pure result) := by
  intro machine loaded after hrun
  cases hrun
  exact hresult

theorem Gives.after {condition : β → Prop} {first : Loader α} {next : α → Loader β}
    (hnext : ∀ loaded, Gives condition (next loaded)) : Gives condition (first >>= next) := by
  intro machine loaded after hrun
  obtain ⟨middle, between, -, hrest⟩ := bind_eq_ok hrun
  cases middle with
  | ok middle => exact hnext middle between loaded after hrest
  | error reason => cases hrest

/-- A function that has been built has not been compiled. -/
theorem buildWithin_uncompiled (levels : Nat) (program : ProgramFile) :
    Gives (fun function ↦ function.compiled = none) (buildWithin levels program) := by
  cases levels with
  | zero =>
    intro machine loaded after hrun
    cases hrun
  | succ levels =>
    obtain ⟨name, code, constants, maxDepth, spelling, functions⟩ := program
    unfold buildWithin
    refine .after fun _ ↦ .after fun _ ↦ .after fun _ ↦ .after fun entry ↦ ?_
    exact .after fun depth ↦ .after fun constants ↦ .pure rfl

theorem noted_defineFunction (name : String) {function : Function}
    (hnew : function.compiled = none) : LispMachine.Noted (defineFunction name function) := by
  have hadd : LispMachine.Noted
      (addFunction { function with name := some (function.name.getD name) }) := .addFunction hnew
  refine (LispMachine.Noted.stored _).bind fun symbol ↦ hadd.bind fun id ↦ ?_
  refine (LispMachine.Noted.stored _).bind fun object ↦ ?_
  cases symbol with
  | symbol index => exact (LispMachine.Noted.stored _).bind fun _ ↦ .pure object
  | fixnum | object => exact .pure object

/-- Literals and programs, by induction on how deep they nest. -/
theorem noted_within (levels : Nat) :
    (∀ literal, Noted (literalWithin levels literal)) ∧
      ∀ program, Noted (buildWithin levels program) := by
  induction levels with
  | zero => exact ⟨fun _ ↦ .refused _, fun _ ↦ .refused _⟩
  | succ levels ih =>
    have hitems (items : List Json) : Noted (items.mapM (literalWithin levels)) :=
      .mapM ih.1
    have hinteger (n : Int) : LispMachine.Noted (integer n) := by
      unfold integer
      cases Value.ofInt? n with
      | some value => exact .pure value
      | none => exact .stored _
    have hparameters (spelling : Option ParameterSpelling) : Noted (parameters spelling) := by
      unfold parameters
      split
      · exact .pure _
      · split
        · exact .pure _
        · exact .refused _
      · split
        · exact .pure _
        · exact .refused _
      · exact (Noted.mapM fun name ↦ .stored _).bind fun _ ↦ .pure _
    constructor
    · intro literal
      unfold literalWithin
      split
      · exact .pure _
      · exact .pure _
      · exact .pure _
      · exact .engine (hinteger _)
      · exact .stored _
      · exact .stored _
      · exact (hitems _).bind fun _ ↦ .stored _
      · split
        · split
          · exact .stored _
          · exact (hitems _).bind fun _ ↦ .stored _
          · exact (hitems _).bind fun _ ↦ .stored _
          · exact (ih.1 _).bind fun _ ↦ (ih.1 _).bind fun _ ↦ .stored _
          · split
            · exact .pure _
            · exact .refused _
          · split
            · refine (ih.2 _).bind_reached fun _ function _ hrun ↦ ?_
              have hnew := buildWithin_uncompiled levels _ _ function _ hrun
              exact (Noted.engine (.addFunction hnew)).bind fun _ ↦ .stored _
            · exact .refused _
          · exact .refused _
        · exact .refused _
      · exact .refused _
    · intro program
      obtain ⟨name, code, constants, maxDepth, spelling, functions⟩ := program
      unfold buildWithin
      refine (Noted.forM fun helper ↦ ?_).bind fun _ ↦ ?_
      · cases helper.name with
        | none => exact .refused _
        | some name =>
          refine (ih.2 helper).bind_reached fun _ function _ hrun ↦ ?_
          have hnew := buildWithin_uncompiled levels helper _ function _ hrun
          exact (Noted.engine (noted_defineFunction name hnew)).bind fun _ ↦ .pure _
      · refine (Noted.liftExcept _).bind fun code ↦ (hparameters spelling).bind fun parameters ↦ ?_
        refine (Noted.engine (LispMachine.Noted.sized _)).bind fun entry ↦ ?_
        refine (Noted.liftExcept _).bind fun depth ↦ (hitems constants).bind fun constants ↦ ?_
        exact .pure _

end Loader

/-! ### What a host can ask for -/

namespace HostAction

theorem noted_loading {action : Loader α} (haction : action.Noted)
    {next : α → Engine (List Value)}
    (hnext : ∀ machine loaded after, action.run machine = .ok (.ok loaded) after →
      Noted (next loaded)) : Noted (loading action next) := by
  refine Noted.bind_reached haction fun machine result after hrun ↦ ?_
  cases result with
  | ok loaded => exact hnext machine loaded after hrun
  | error reason => exact .pure []

/-- Everything that a host can ask for has a journal, unless it is to start or stop the meter. -/
theorem noted {caller : Caller}
    (happly : ∀ function arguments, Noted (caller.apply function arguments)) {action : HostAction}
    (hmeter : ∀ on, action ≠ .setMetering on) : Noted (action.perform caller) := by
  cases action with
  | literal json => exact noted_loading ((Loader.noted_within _).1 json) fun _ value _ _ ↦ .pure _
  | intern name => exact (Noted.stored _).bind fun _ ↦ .pure _
  | load program =>
    refine noted_loading ((Loader.noted_within _).2 program) fun _ function _ hrun ↦ ?_
    have hnew := Loader.buildWithin_uncompiled _ program _ function _ hrun
    exact (Noted.addFunction hnew).bind fun _ ↦ .pure _
  | define name program =>
    refine noted_loading ((Loader.noted_within _).2 program) fun _ function _ hrun ↦ ?_
    have hnew := Loader.buildWithin_uncompiled _ program _ function _ hrun
    exact (Loader.noted_defineFunction name hnew).bind fun _ ↦ .pure _
  | copy id =>
    have hfunction : Noted (Engine.function id) := .unchanging fun _ ↦ rfl
    exact hfunction.bind fun function ↦ (Noted.addFunction rfl).bind fun _ ↦ .pure _
  | compile id => exact (Noted.compile id).bind fun _ ↦ .pure _
  | run request => exact (request.noted happly).bind fun _ ↦ .pure _
  | runCompiled id arguments =>
    have hfunction : Noted (Engine.function id) := .unchanging fun _ ↦ rfl
    have hinvoke : Noted (invokeCompiled caller id arguments) := by
      refine hfunction.bind fun subject ↦ ?_
      split_ifs
      · exact .fault _
      · exact (Called.invoke id arguments).noted happly
    exact hinvoke.bind fun _ ↦ .pure _
  | execute code constants maxDepth =>
    have hexecute : Noted (executeCode caller code constants.toArray maxDepth) :=
      (Noted.addFunction rfl).bind fun id ↦ (Called.invoke id []).noted happly
    exact hexecute.bind fun _ ↦ .pure _
  | catching tag form =>
    have hcatch : Noted (catchIn caller tag (caller.eval form)) := by
      refine (noted_withHandler happly _ tag (happly _ _)).bind fun outcome ↦ ?_
      cases outcome <;> exact .pure _
    exact hcatch.bind fun _ ↦ .pure _
  | handling conditions form =>
    refine (noted_withHandler happly .conditionCase conditions (happly _ _)).bind fun outcome ↦ ?_
    cases outcome <;> exact .pure _
  | assign symbol value => exact (Noted.stored _).bind fun _ ↦ .pure _
  | bind symbol value =>
    exact ((Composed.bindVariable symbol value).noted happly).bind fun _ ↦ .pure _
  | unbind count => exact (noted_unbind happly count).bind fun _ ↦ .pure _
  | unbindTo mark => exact (noted_unbindTo happly mark).bind fun _ ↦ .pure _
  | protect handler =>
    have hprotect : Noted (unwindProtect handler) := (Noted.logBinding _).bind fun _ ↦ .pure _
    exact hprotect.bind fun _ ↦ .pure _
  | saveCurrentBuffer =>
    have hsave : Noted Engine.saveCurrentBuffer :=
      (Noted.stored _).bind fun _ ↦ (Noted.logBinding _).bind fun _ ↦ .pure _
    exact hsave.bind fun _ ↦ .pure _
  | defineError symbol message parents => exact (Noted.stored _).bind fun _ ↦ .pure _
  | requestQuit =>
    have hrequest : Noted (modify Machine.requestQuit) :=
      .quietly fun _ ↦ .of_same rfl rfl rfl rfl
    exact hrequest.bind fun _ ↦ .pure _
  | expectQuits arrivals =>
    have hexpect : Noted (modify (Machine.expectQuits · arrivals)) :=
      .quietly fun _ ↦ .of_same rfl rfl rfl rfl
    exact hexpect.bind fun _ ↦ .pure _
  | checkpoint backward => exact (Noted.checkpoint backward).bind fun _ ↦ .pure _
  | setCompiling on =>
    have hset : Noted (Engine.setCompiling on) := .quietly fun _ ↦ .of_same rfl rfl rfl rfl
    exact hset.bind fun _ ↦ .pure _
  | setMetering on => exact absurd rfl (hmeter on)

end HostAction

/-! ### Sessions -/

/-- A host has begun with a machine and has come to another one, and this is what happened. -/
inductive Machine.Session (start : Machine) : Machine → List Note → Prop where
  | begun : Session start start []
  | adjusted {machine : Machine} {notes : List Note} (hsession : Session start machine notes)
      (settings : Settings) (meter : Option Meter) :
      Session start { machine with settings := settings, meter := meter } notes
  /-- The run that the host starts may be watched and bounded in any way. -/
  | performed {machine : Machine} {notes later : List Note} (hsession : Session start machine notes)
      (action : HostAction) (watch : Event → Machine → Bool) (steps : Nat)
      (hjournal : Journals (action.perform (.watched watch steps)) machine later) :
      Session start (machineAfter (action.perform (.watched watch steps) machine)) (notes ++ later)

namespace Machine

/-- Whatever a host asks for next, the session goes on. -/
theorem Session.exists_next {start machine : Machine} {notes : List Note}
    (hsession : start.Session machine notes) (action : HostAction)
    (watch : Event → Machine → Bool) (steps : Nat) :
    ∃ later, start.Session (machineAfter (action.perform (.watched watch steps) machine))
      (notes ++ later) := by
  by_cases hmeter : ∃ on, action = .setMetering on
  · obtain ⟨on, rfl⟩ := hmeter
    exact ⟨[], (List.append_nil notes).symm ▸ hsession.adjusted _ _⟩
  · obtain ⟨later, hjournal⟩ := HostAction.noted (noted_watched watch steps)
      (fun on heq ↦ hmeter ⟨on, heq⟩) machine
    exact ⟨later, hsession.performed action watch steps hjournal⟩

/-- A machine that is reached is reached in a session. -/
theorem Reached.exists_session {machine : Machine} {held : List Value}
    (hreached : machine.Reached held) :
    ∃ settings notes, (Machine.initial settings).Session machine notes := by
  induction hreached with
  | initial settings => exact ⟨settings, [], .begun⟩
  | step _ action _ watch steps ih =>
    obtain ⟨settings, notes, hsession⟩ := ih
    obtain ⟨later, hnext⟩ := hsession.exists_next action watch steps
    exact ⟨settings, _, hnext⟩

end Machine

end LispMachine
