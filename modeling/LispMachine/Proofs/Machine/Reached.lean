import LispMachine.Proofs.Machine.Boot
import LispMachine.Proofs.Machine.Loading

/-!
The machines that can be reached. A host makes a machine, loads programs into it and runs them, and
it may keep the values that it is given and use them again (`HostAction`, `Machine.Reached`). Every
machine that it reaches in this way is sound, however the runs end. A run ends where its watch
refuses an event, so the machines in the midst of runs are reached too.

The main results are that nothing dangles and that constants stay constant.
-/

set_option autoImplicit false

namespace LispMachine

open Engine Storage

variable {α : Type}

/-! ### What a machine holds at rest -/

def Object.values : Object → List Value
  | .cons car cdr => [car, cdr]
  | .vector items => items.toList
  | .float _ | .string _ | .function _ _ | .primitive _ _ | .buffer _ | .marker _ => []

/-- The value in a cell, or the symbol that it redirects to. A void variable has none. -/
def ValueCell.values : ValueCell → List Value
  | .plain value => value.toList
  | .aliasOf target => [.symbol target]

def Symbol.values (symbol : Symbol) : List Value :=
  symbol.cell.values ++ symbol.function ::
    symbol.properties.flatMap fun property => [property.1, property.2]

/-- The values in the heap, in the symbol table and in the buffers. -/
def Store.values (store : Store) : List Value :=
  store.heap.objects.toList.flatMap Object.values ++
    store.symbols.symbols.toList.flatMap Symbol.values ++
    store.buffers.buffers.toList.map Buffer.object

/-- The values in the store, in the functions, in the binding log and in the handlers. -/
def Machine.values (machine : Machine) : List Value :=
  machine.toStore.values ++ machine.functions.toList.flatMap Function.values ++
    machine.bindings.flatMap BindingEntry.values ++ machine.handlers.map Handler.tag

instance (values : List Value) (store : Store) : Decidable (AllKnownTo values store) :=
  inferInstanceAs (Decidable (∀ value ∈ values, value.KnownTo store))

/-- Whether nothing dangles where an event happens, neither in the machine nor in what the event is
about. -/
def Machine.knowsAll (machine : Machine) (event : Event) : Bool :=
  decide (AllKnownTo (event.values ++ machine.values) machine.toStore)

theorem Symbol.KnownTo.values {symbol : Symbol} {store : Store} (hknown : symbol.KnownTo store) :
    AllKnownTo symbol.values store := by
  refine AllKnownTo.append ?_ (.cons hknown.function ?_)
  · have hcell := hknown.cell
    generalize symbol.cell = cell at hcell ⊢
    cases cell with
    | plain value => exact hcell
    | aliasOf target => exact .cons hcell .nil
  · intro value hmem
    obtain ⟨property, hproperty, hvalue⟩ := List.mem_flatMap.mp hmem
    have hpair := hknown.properties property hproperty
    exact AllKnownTo.pair hpair.1 hpair.2 value hvalue

theorem Store.Sound.values {store : Store} (hsound : store.Sound) :
    AllKnownTo store.values store := by
  intro value hmem
  simp only [Store.values, List.mem_append, List.mem_flatMap, List.mem_map,
    Array.mem_toList_iff] at hmem
  rcases hmem with (⟨object, hobject, hvalue⟩ | ⟨symbol, hsymbol, hvalue⟩) | ⟨buffer, hbuffer, rfl⟩
  · have hknown := hsound.objects object hobject
    cases object with
    | cons car cdr => exact AllKnownTo.pair hknown.1 hknown.2 value hvalue
    | vector items => exact hknown value hvalue
    | float | string | function | primitive | buffer | marker => cases hvalue
  · exact (hsound.symbols symbol hsymbol).values value hvalue
  · exact hsound.handles buffer hbuffer

theorem Machine.Sound.values {machine : Machine} (hsound : machine.Sound) :
    AllKnownTo machine.values machine.toStore := by
  refine ((hsound.store.values.append ?_).append ?_).append ?_
  · intro value hmem
    obtain ⟨function, hfunction, hvalue⟩ := List.mem_flatMap.mp hmem
    exact hsound.functions function (Array.mem_toList_iff.mp hfunction) value hvalue
  · intro value hmem
    obtain ⟨entry, hentry, hvalue⟩ := List.mem_flatMap.mp hmem
    exact hsound.bindings entry hentry value hvalue
  · intro value hmem
    obtain ⟨handler, hhandler, rfl⟩ := List.mem_map.mp hmem
    exact hsound.handlers handler hhandler

/-! ### What a host can do -/

/-- What a host can ask of a machine. -/
inductive HostAction where
  /-- Make the value that a literal stands for. -/
  | literal (json : Json)
  | intern (name : String)
  /-- Load a program and keep its function. -/
  | load (program : ProgramFile)
  /-- Load a program and make it the definition of a name. -/
  | define (name : String) (program : ProgramFile)
  /-- Copy a function that is kept, but not its native code. -/
  | copy (id : Nat)
  | compile (id : Nat)
  | run (request : Request)
  | runCompiled (id : Nat) (arguments : List Value)
  /-- Run code that belongs to no function. -/
  | execute (code : Code) (constants : List Value) (maxDepth : Nat)
  /-- Evaluate a form with a catch of the host's own around it. -/
  | catching (tag form : Value)
  /-- Evaluate a form with a condition-case of the host's own around it. -/
  | handling (conditions form : Value)
  | assign (symbol value : Value)
  | bind (symbol value : Value)
  | unbind (count : Nat)
  | unbindTo (mark : BindingMark)
  | protect (handler : Value)
  | saveCurrentBuffer
  | defineError (symbol : Value) (message : String) (parents : List Value)
  | requestQuit
  /-- Requests to quit will arrive in the course of what the host asks for next. -/
  | expectQuits (arrivals : List Bool)
  | checkpoint (backward : Bool)
  | setCompiling (on : Bool)
  | setMetering (on : Bool)

namespace HostAction

/-- The values that the host passes to the machine. -/
def values : HostAction → List Value
  | .run request => request.values
  | .runCompiled _ arguments => arguments
  | .execute _ constants _ => constants
  | .catching tag form => [tag, form]
  | .handling conditions form => [conditions, form]
  | .assign symbol value | .bind symbol value => [symbol, value]
  | .protect handler => [handler]
  | .defineError symbol _ parents => symbol :: parents
  | _ => []

/-- Load something and go on with it, or do nothing if it is refused. -/
def loading (action : Loader α) (next : α → Engine (List Value)) : Engine (List Value) := do
  match ← action.run with
  | .ok loaded => next loaded
  | .error _ => return []

/-- What the machine does, and the values that it hands out. -/
def perform (caller : Caller) : HostAction → Engine (List Value)
  | .literal json => loading (Loader.literal json) fun value => return [value]
  | .intern name => return [← Storage.intern name]
  | .load program => loading (Loader.build program) fun function => do
      let _ ← addFunction function
      return []
  | .define name program => loading (Loader.build program) fun function =>
      return [← Loader.defineFunction name function]
  | .copy id => do
      let function ← Engine.function id
      let _ ← addFunction { function with compiled := none }
      return []
  | .compile id => do
      let _ ← Engine.compile id
      return []
  | .run request => return [← request.run caller]
  | .runCompiled id arguments => return [← invokeCompiled caller id arguments]
  | .execute code constants maxDepth =>
      return [← executeCode caller code constants.toArray maxDepth]
  | .catching tag form => return [← catchIn caller tag (caller.eval form)]
  | .handling conditions form => do
      match ← conditionCaseIn caller conditions (caller.eval form) with
      | .returned value | .caught value => return [value]
  | .assign symbol value => return [← setVariable symbol value]
  | .bind symbol value => do
      bindVariable symbol value
      return []
  | .unbind count => do
      Engine.unbind caller count
      return []
  | .unbindTo mark => do
      Engine.unbindTo caller mark
      return []
  | .protect handler => return [← unwindProtect handler]
  | .saveCurrentBuffer => return [← Engine.saveCurrentBuffer]
  | .defineError symbol message parents => do
      defineErrorAt symbol message parents
      return []
  | .requestQuit => do
      modify Machine.requestQuit
      return []
  | .expectQuits arrivals => do
      modify (Machine.expectQuits · arrivals)
      return []
  | .checkpoint backward => do
      Engine.checkpoint backward
      return []
  | .setCompiling on => do
      Engine.setCompiling on
      return []
  | .setMetering on => do
      Engine.setMetering on
      return []

/-! ### Every action keeps the machine sound -/

section

variable {world : Store}

/-- An action whose result is handed out. -/
theorem upholds_giving {first second : Engine Value}
    (haction : Engine.Upholds world first second Value.KnownTo) :
    Engine.Upholds world (do return [← first]) (do return [← second]) AllKnownTo :=
  .bind haction fun _ _ _ _ hvalue ↦ .pure fun _ hgrows _ ↦ .cons (hgrows.known hvalue) .nil

/-- An action that hands out nothing. -/
theorem upholds_silently {first second : Engine α} {gives : α → Store → Prop}
    (haction : Engine.Upholds world first second gives) :
    Engine.Upholds world (first >>= fun _ ↦ Pure.pure []) (second >>= fun _ ↦ Pure.pure [])
      AllKnownTo :=
  .bind haction fun _ _ _ _ _ ↦ .pure fun _ _ _ ↦ .nil

theorem upholds_loading {action : Loader α} {gives : α → Store → Prop}
    (haction : Loader.Upholds world action gives) {next : α → Engine (List Value)}
    (hnext : ∀ loaded later, world.Grows later → gives loaded later →
      Engine.Upholds later (next loaded) (next loaded) AllKnownTo) :
    Engine.Upholds world (loading action next) (loading action next) AllKnownTo := by
  refine .bind haction fun loaded later hgrows _ hgives ↦ ?_
  cases loaded with
  | ok result => exact hnext result later hgrows (hgives result rfl)
  | error reason => exact .pure fun _ _ _ ↦ .nil

/-- The machine is changed in nothing but its settings, its meter and the requests to quit. -/
theorem upholds_adjusting {change : Machine → Machine}
    (hchange : ∀ machine, ∃ settings meter quitPending arrivals, change machine =
      { machine with
        settings := settings, meter := meter, quitPending := quitPending, arrivals := arrivals }) :
    Engine.Upholds world (modify change) (modify change) Anything := by
  refine .changing (fun _ ↦ rfl) fun machine _ hsound ↦ ?_
  obtain ⟨settings, meter, quitPending, arrivals, hafter⟩ := hchange machine
  rw [hafter]
  exact ⟨{ hsound with }, .refl machine.toStore, trivial⟩

/-- Whatever a host asks for keeps the machine sound, and the values that it is given are known. -/
theorem upholds_perform {caller companion : Caller} (hcallers : SoundCallers caller companion)
    {action : HostAction} (hvalues : AllKnownTo action.values world) :
    Engine.Upholds world (action.perform caller) (action.perform companion) AllKnownTo := by
  cases action with
  | literal json =>
    exact upholds_loading (.literal json) fun _ _ _ hvalue ↦
      .pure fun _ hgrows _ ↦ .cons (hgrows.known hvalue) .nil
  | intern name => exact upholds_giving (.stored (.intern name))
  | load program =>
    exact upholds_loading (.build program) fun _ _ _ hfunction ↦
      upholds_silently (.addFunction hfunction)
  | define name program =>
    exact upholds_loading (.build program) fun _ _ _ hfunction ↦
      upholds_giving (Loader.Upholds.defineFunction name hfunction)
  | copy id =>
    refine .reading_bind (fun _ ↦ rfl) fun machine _ hsound ↦ Engine.Upholds.at_start ?_ hsound
    refine upholds_silently (.addFunction ((hsound.function id).sublist ?_))
    simp [Function.values]
  | compile id => exact upholds_silently (.compile id)
  | run request => exact upholds_giving (request.upholds_run hcallers hvalues)
  | runCompiled id arguments =>
    refine upholds_giving (.reading_bind (fun _ ↦ rfl) fun machine hgrows hsound ↦ ?_)
    refine Engine.Upholds.at_start ?_ hsound
    split_ifs
    · exact .fault _
    · exact .invoke hcallers id (hgrows.allKnown hvalues)
  | execute code constants maxDepth =>
    refine upholds_giving (.bind (.addFunction (hvalues.sublist ?_)) fun id _ _ _ _ ↦
      .invoke hcallers id .nil)
    simp [Function.values, Parameters.values, values]
  | catching tag form =>
    obtain ⟨htag, hform⟩ := AllKnownTo.of_pair hvalues
    exact upholds_giving (.catchIn hcallers htag (.eval hcallers hform))
  | handling conditions form =>
    obtain ⟨hconditions, hform⟩ := AllKnownTo.of_pair hvalues
    refine .bind (.withHandler hcallers .conditionCase hconditions (.eval hcallers hform))
      fun outcome _ _ _ hvalue ↦ ?_
    cases outcome with
    | returned value | caught value => exact .pure fun _ hgrows _ ↦ .cons (hgrows.known hvalue) .nil
  | assign symbol value =>
    obtain ⟨hsymbol, hvalue⟩ := AllKnownTo.of_pair hvalues
    exact upholds_giving (.stored (.setVariable hsymbol hvalue))
  | bind symbol value =>
    obtain ⟨hsymbol, hvalue⟩ := AllKnownTo.of_pair hvalues
    exact upholds_silently (.bindVariable hsymbol hvalue)
  | unbind count => exact upholds_silently (.unbind hcallers count)
  | unbindTo mark => exact upholds_silently (.unbindTo hcallers mark)
  | protect handler =>
    exact upholds_giving (.unwindProtect (hvalues handler (List.mem_singleton.mpr rfl)))
  | saveCurrentBuffer => exact upholds_giving .saveCurrentBuffer
  | defineError symbol message parents =>
    obtain ⟨hsymbol, hparents⟩ := List.forall_mem_cons.mp hvalues
    exact upholds_silently (.stored (.defineErrorAt message hsymbol hparents))
  | requestQuit | expectQuits =>
    exact upholds_silently (upholds_adjusting fun _ ↦ ⟨_, _, _, _, rfl⟩)
  | checkpoint backward => exact upholds_silently (.checkpoint backward)
  | setCompiling on => exact upholds_silently (upholds_adjusting fun _ ↦ ⟨_, _, _, _, rfl⟩)
  | setMetering on => exact upholds_silently (upholds_adjusting fun _ ↦ ⟨_, _, _, _, rfl⟩)

end

end HostAction

/-! ### Void variables -/

/-- Reading a void variable stops with an error. -/
theorem Storage.variableValue_of_void {store : Store} {index : Nat}
    (hvoid : store.symbols.value? index = none) (value : Value) (after : Store) :
    variableValue (.symbol index) store ≠ .ok value after := by
  have hplain : store.symbols.plainValue? index = none := by
    cases hcell : (store.symbols.get index).cell with
    | aliasOf target =>
      unfold SymbolTable.plainValue?
      rw [hcell]
    | plain held =>
      have hresolve := SymbolTable.resolve?_of_plain hcell
      unfold SymbolTable.value? at hvoid
      rwa [hresolve] at hvoid
  rw [variableValue_apply, hplain]
  change symbolValue (.symbol index) store ≠ _
  rw [symbolValue_apply]
  cases htarget : store.symbols.resolve? index with
  | none => exact nofun
  | some target =>
    have hvalue : store.symbols.plainValue? target = none := by
      unfold SymbolTable.value? at hvoid
      rwa [htarget] at hvoid
    dsimp only
    rw [hvalue]
    exact nofun

/-- A builtin symbol stands at its place. -/
theorem SymbolTable.Fixed.name_of_builtin {table : SymbolTable} (hfixed : table.Fixed) {index : Nat}
    {name : String} (hname : builtinNames[index]? = some name) : (table.get index).name = name := by
  have hplace := getElem?_of_prefix hfixed.builtin hname
  unfold traits at hplace
  rw [List.getElem?_map, List.getElem?_map, Array.getElem?_toList, Option.map_map] at hplace
  obtain ⟨symbol, hsymbol, rfl⟩ := Option.map_eq_some_iff.mp hplace
  rw [get_of_some hsymbol]
  rfl

/-- A symbol stays at its place and keeps its name. -/
theorem Store.Grows.symbol_kept {before after : Store} (hgrows : before.Grows after) {index : Nat}
    {symbol : Symbol} (hsymbol : before.symbols.symbols[index]? = some symbol) :
    ∃ later : Symbol, after.symbols.symbols[index]? = some later ∧ later.name = symbol.name := by
  have htrait : before.symbols.traits[index]? = some (symbol.name, symbol.constant) := by
    unfold SymbolTable.traits
    rw [List.getElem?_map, Array.getElem?_toList, hsymbol]
    rfl
  have hlater := getElem?_of_prefix hgrows.traits htrait
  unfold SymbolTable.traits at hlater
  rw [List.getElem?_map, Array.getElem?_toList] at hlater
  obtain ⟨later, hplace, hsame⟩ := Option.map_eq_some_iff.mp hlater
  exact ⟨later, hplace, congrArg Prod.fst hsame⟩

/-! ### The machines that a host reaches -/

namespace Engine

/-- The values that a run hands out: its results, or what the signal carries that it stops with. -/
def handedOut : EStateM.Result (Stop Signal) Machine (List Value) → List Value
  | .ok values _ => values
  | .error (.signal reason) _ => reason.values
  | .error (.exhausted _) _ => []

theorem EndsSound.after {start : Machine} {run : EStateM.Result (Stop Signal) Machine (List Value)}
    (hend : EndsSound start AllKnownTo run) :
    start.toStore.Grows (machineAfter run).toStore ∧ (machineAfter run).Sound ∧
      AllKnownTo (handedOut run) (machineAfter run).toStore := by
  cases hend with
  | ok hgrows hsound hgives => exact ⟨hgrows, hsound, hgives⟩
  | signal hgrows hsound hreason => exact ⟨hgrows, hsound, hreason⟩
  | exhausted hgrows hsound => exact ⟨hgrows, hsound, .nil⟩

end Engine

/-- The machine can be reached by a host that has been given some values on the way. -/
inductive Machine.Reached : Machine → List Value → Prop where
  | initial (settings : Settings) : Reached (Machine.initial settings) []
  /-- The host may pass on every value that it finds in the machine or has been given. The run that
  it starts may be watched and bounded in any way. -/
  | step {machine : Machine} {held : List Value} (hreached : Reached machine held)
      (action : HostAction) (hvalues : action.values ⊆ machine.values ++ held)
      (watch : Event → Machine → Bool) (steps : Nat) :
      Reached (machineAfter (action.perform (.watched watch steps) machine))
        (held ++ handedOut (action.perform (.watched watch steps) machine))

/-- A new machine after a program has been loaded into it and run in at most so many steps. -/
def Machine.afterProgram (program : ProgramFile) (steps : Nat) : Machine :=
  let loaded := machineAfter ((HostAction.load program).perform (.bounded steps) (.initial {}))
  machineAfter ((HostAction.run (.invoking 0 [])).perform (.bounded steps) loaded)

namespace Machine.Reached

variable {machine : Machine} {held : List Value}

/-- One action from a sound machine. -/
theorem sound_step (hsound : machine.Sound) {action : HostAction}
    (hvalues : AllKnownTo action.values machine.toStore) {watch watch' : Event → Machine → Bool}
    (hwatch : ∀ {event : Event} {machine : Machine}, AllKnownTo event.values machine.toStore →
      machine.Sound → watch' event machine = watch event machine) (steps : Nat) :
    action.perform (.watched watch' steps) machine = action.perform (.watched watch steps) machine ∧
      Engine.EndsSound machine AllKnownTo (action.perform (.watched watch steps) machine) :=
  HostAction.upholds_perform (.watched hwatch steps) hvalues machine (.refl _) hsound

/-- Every machine that is reached is sound, and the host holds no value that dangles. -/
theorem sound (hreached : machine.Reached held) :
    machine.Sound ∧ AllKnownTo held machine.toStore := by
  induction hreached with
  | initial settings => exact ⟨sound_initial settings, .nil⟩
  | step hreached action hvalues watch steps ih =>
    have hknown := (ih.1.values.append ih.2).sublist hvalues
    obtain ⟨-, hend⟩ := sound_step ih.1 hknown (fun {_ _} _ _ ↦ rfl) steps
    obtain ⟨hgrows, hsound, hout⟩ := hend.after
    exact ⟨hsound, (hgrows.allKnown ih.2).append hout⟩

/-- A program can be loaded into a new machine and run. -/
theorem afterProgram (program : ProgramFile) (steps : Nat) :
    ∃ held, (Machine.afterProgram program steps).Reached held :=
  ⟨_, .step (.step (.initial {}) (.load program) (List.nil_subset _) _ _) (.run (.invoking 0 []))
    (List.nil_subset _) _ _⟩

/-! ### Nothing dangles -/

/-- A watch that also stops the run as soon as something dangles stops no run of a sound machine. -/
theorem watch_knowsAll (watch : Event → Machine → Bool) {event : Event} {machine : Machine}
    (hevent : AllKnownTo event.values machine.toStore) (hsound : machine.Sound) :
    (watch event machine && machine.knowsAll event) = watch event machine := by
  have hall : machine.knowsAll event = true := decide_eq_true (hevent.append hsound.values)
  rw [hall, Bool.and_true]

/-- Values never dangle. In a machine that is reached,

1. every value in the heap, the symbol table, the buffers, the functions, the binding log and the
   handlers, and every value that the host has been given, is a fixnum in range, a symbol of the
   table or the address of an object;
2. the same holds throughout everything that a host can do next with such values, also of the
   operands, arguments and signals of every event: a watch that stops the run where something
   dangles changes nothing. The values that are handed out in the end do not dangle, and the objects
   that are there keep their kinds;
3. a void variable is never read as a value. -/
theorem nothing_dangles (hreached : machine.Reached held) :
    AllKnownTo (machine.values ++ held) machine.toStore ∧
      (∀ (action : HostAction) (watch : Event → Machine → Bool) (steps : Nat),
        AllKnownTo action.values machine.toStore →
        let run := action.perform (.watched watch steps) machine
        action.perform (.watched (fun event now ↦ watch event now && now.knowsAll event) steps)
            machine = run ∧
          AllKnownTo (handedOut run) (machineAfter run).toStore ∧
          machine.heap.kinds <+: (machineAfter run).heap.kinds) ∧
      ∀ index, machine.symbols.value? index = none →
        ∀ value after, variableValue (.symbol index) machine.toStore ≠ .ok value after := by
  obtain ⟨hsound, hheld⟩ := hreached.sound
  refine ⟨hsound.values.append hheld, fun action watch steps hvalues ↦ ?_, fun index hvoid ↦ ?_⟩
  · obtain ⟨hsame, hend⟩ := sound_step hsound hvalues (watch_knowsAll watch) steps
    obtain ⟨hgrows, -, hout⟩ := hend.after
    exact ⟨hsame, hout, hgrows.kinds⟩
  · exact variableValue_of_void hvoid

/-- A program that makes a cons of its constants has been loaded and run. -/
theorem nothing_dangles_after_cons :
    let machine := Machine.afterProgram
      (.mk none (.bytes #[192, 193, 66, 135]) [.int 7, .string "seven"] none none []) 9
    ∃ held, machine.Reached held ∧ AllKnownTo (machine.values ++ held) machine.toStore := by
  obtain ⟨held, hreached⟩ := afterProgram _ _
  exact ⟨held, hreached, (nothing_dangles hreached).1⟩

/-! ### Constants -/

/-- Constants stay constant. In a machine that is reached, nil, t and every keyword have themselves
as their value, and whatever a host does next, they keep it at the same place of the table. -/
theorem constants_keep_values (hreached : machine.Reached held) :
    (machine.symbols.get 0).name = "nil" ∧ (machine.symbols.get 1).name = "t" ∧
      ∀ (index : Nat) (symbol : Symbol), machine.symbols.symbols[index]? = some symbol →
        SymbolTable.isSelfNaming symbol.name = true →
        symbol.cell = .plain (some (.symbol index)) ∧
          ∀ (action : HostAction) (watch : Event → Machine → Bool) (steps : Nat),
            AllKnownTo action.values machine.toStore →
            let after := machineAfter (action.perform (.watched watch steps) machine)
            ∃ later : Symbol, after.symbols.symbols[index]? = some later ∧
              later.name = symbol.name ∧ later.cell = symbol.cell := by
  obtain ⟨hsound, -⟩ := hreached.sound
  have hfixed := hsound.store.fixed
  refine ⟨hfixed.name_of_builtin rfl, hfixed.name_of_builtin rfl, ?_⟩
  intro index symbol hsymbol hnaming
  have hcell := hfixed.itself hsymbol (hfixed.constant hsymbol hnaming)
  refine ⟨hcell, fun action watch steps hvalues ↦ ?_⟩
  obtain ⟨-, hend⟩ := sound_step hsound hvalues (fun {_ _} _ _ ↦ rfl) steps
  obtain ⟨hgrows, hlater, -⟩ := hend.after
  obtain ⟨later, hplace, hname⟩ := hgrows.symbol_kept hsymbol
  refine ⟨later, hplace, hname, ?_⟩
  have hitself := hlater.store.fixed
  rw [hitself.itself hplace (hitself.constant hplace (hname ▸ hnaming)), hcell]

/-- A program that sets a keyword has been loaded and run. -/
theorem constants_keep_values_after_set :
    let machine := Machine.afterProgram
      (.mk none (.bytes #[193, 16, 192, 135]) [.object [("symbol", .string ":key")], .int 7] none
        none []) 9
    ∃ held, machine.Reached held ∧
      (machine.symbols.get 0).name = "nil" ∧ (machine.symbols.get 1).name = "t" ∧
      ∀ (index : Nat) (symbol : Symbol), machine.symbols.symbols[index]? = some symbol →
        SymbolTable.isSelfNaming symbol.name = true →
        symbol.cell = .plain (some (.symbol index)) := by
  obtain ⟨held, hreached⟩ := afterProgram _ _
  obtain ⟨hnil, ht, hitself⟩ := constants_keep_values hreached
  exact ⟨held, hreached, hnil, ht, fun index symbol hsymbol hnaming ↦
    (hitself index symbol hsymbol hnaming).1⟩

end Machine.Reached

end LispMachine
