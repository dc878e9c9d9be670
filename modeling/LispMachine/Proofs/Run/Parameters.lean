import LispMachine.Proofs.Run.Arguments
import LispMachine.Proofs.Run.Equal
import Mathlib.Data.List.Nodup

/-!
How functions with a dynamic parameter list receive their arguments. The list names its parameters,
with `&optional` and `&rest` between the names; read in this way it stands for a template. Such a
function refuses the numbers of arguments that a function with the template refuses, with the same
data. With any other number the values that the template would put on the stack are bound to the
names, in the same order, and nothing else is bound. The main statement is
`invoke_dynamic_as_template`.
-/

set_option autoImplicit false

namespace LispMachine

open LispMachine.Action Storage Engine

/-! ### Parameter lists -/

/-- The symbols that a parameter list names: those that need an argument, those after `&optional`, if
it is in the list, and the one after `&rest`, if that is there. -/
structure ParameterNames where
  mandatory : List Nat
  optional : Option (List Nat) := none
  rest : Option Nat := none

namespace ParameterNames

/-- The end of the parameter list that says what is done with the rest. -/
def ending (names : ParameterNames) : List Value :=
  match names.rest with
  | some rest => [Symbols.andRest, .symbol rest]
  | none => []

/-- The parameter list. -/
def symbols (names : ParameterNames) : List Value :=
  match names.optional with
  | some optional =>
    names.mandatory.map .symbol ++ (Symbols.andOptional :: optional.map .symbol ++ names.ending)
  | none => names.mandatory.map .symbol ++ names.ending

/-- The names of which each is given one argument. -/
def positional (names : ParameterNames) : List Nat :=
  names.mandatory ++ names.optional.getD []

/-- All names, in their order. -/
def all (names : ParameterNames) : List Nat := names.positional ++ names.rest.toList

/-- The template with as many parameters of each kind. -/
def template (names : ParameterNames) : Template :=
  ⟨names.mandatory.length, names.mandatory.length + (names.optional.getD []).length,
    names.rest.isSome⟩

end ParameterNames

/-- A symbol that can be bound in its own cell: it is not constant and no alias. -/
structure SymbolTable.Bindable (table : SymbolTable) (symbol : Nat) : Prop where
  present : symbol < table.size
  plain : ∃ old, (table.get symbol).cell = .plain old
  assignable : (table.get symbol).constant = false

/-- The names are distinct symbols that can be bound, none of them `&optional` or `&rest`. -/
structure ParameterNames.Bindable (names : ParameterNames) (table : SymbolTable) : Prop where
  distinct : names.all.Nodup
  unmarked : ∀ name ∈ names.all,
    Value.symbol name ≠ Symbols.andOptional ∧ Value.symbol name ≠ Symbols.andRest
  bindable : ∀ name ∈ names.all, table.Bindable name

/-- Names without a marker among them are positional. -/
theorem DynamicParameters.parseFrom_append {names : List Nat}
    (hunmarked : ∀ name ∈ names,
      Value.symbol name ≠ Symbols.andOptional ∧ Value.symbol name ≠ Symbols.andRest)
    (positional : List Value) (mandatory : Option Nat) (symbols : List Value) :
    parseFrom positional mandatory (names.map .symbol ++ symbols) =
      parseFrom ((names.map .symbol).reverse ++ positional) mandatory symbols := by
  induction names generalizing positional with
  | nil => rfl
  | cons name names ih =>
    obtain ⟨hname, hnames⟩ := List.forall_mem_cons.mp hunmarked
    rw [List.map_cons, List.cons_append, parseFrom, if_neg hname.1, if_neg hname.2, ih hnames,
      List.reverse_cons, List.append_assoc, List.singleton_append]

/-- What ends the list is the name for the rest, if there is one. -/
theorem ParameterNames.parseFrom_ending (names : ParameterNames) (positional : List Value)
    (mandatory : Option Nat) :
    DynamicParameters.parseFrom positional mandatory names.ending =
      ⟨positional.reverse, mandatory.getD positional.length, names.rest.map .symbol⟩ := by
  unfold ending
  cases names.rest <;> rfl

/-- A parameter list is taken apart into its names. -/
theorem ParameterNames.parse_symbols {names : ParameterNames} {table : SymbolTable}
    (hnames : names.Bindable table) :
    DynamicParameters.parse names.symbols =
      ⟨names.positional.map .symbol, names.mandatory.length, names.rest.map .symbol⟩ := by
  have hpositional : ∀ name ∈ names.positional,
      Value.symbol name ≠ Symbols.andOptional ∧ Value.symbol name ≠ Symbols.andRest :=
    fun name hname ↦ hnames.unmarked name (List.mem_append_left _ hname)
  obtain ⟨hmandatory, hoptional⟩ := List.forall_mem_append.mp hpositional
  unfold DynamicParameters.parse symbols positional
  cases hcase : names.optional with
  | none =>
    dsimp only
    rw [DynamicParameters.parseFrom_append hmandatory, parseFrom_ending]
    simp only [List.append_nil, List.reverse_reverse, List.length_reverse, List.length_map,
      Option.getD_none]
  | some optional =>
    rw [hcase, Option.getD_some] at hoptional
    dsimp only
    rw [DynamicParameters.parseFrom_append hmandatory, List.cons_append,
      DynamicParameters.parseFrom, if_pos rfl, DynamicParameters.parseFrom_append hoptional,
      parseFrom_ending]
    simp only [List.append_nil, List.reverse_append, List.reverse_reverse, List.length_reverse,
      List.length_map, Option.getD_none, Option.getD_some, List.map_append]

/-! ### Tables in which names hold values -/

namespace SymbolTable

variable {table : SymbolTable}

theorem get_setCell_of_ne {index symbol : Nat} (hindex : index ≠ symbol) (cell : ValueCell) :
    (table.setCell index cell).get symbol = table.get symbol := by
  unfold get setCell update
  rw [Array.getD_eq_getD_getElem?, Array.getD_eq_getD_getElem?, Array.getElem?_modify,
    if_neg hindex]

/-- The table in which each of the names holds the value at its place. -/
def holding (table : SymbolTable) : List Nat → List Value → SymbolTable
  | name :: names, value :: values =>
    (table.setCell name (.plain (some value))).holding names values
  | _, _ => table

/-- What the log keeps of names that are bound one after the other. -/
def hidden (table : SymbolTable) (names : List Nat) : BindingLog :=
  (names.map fun name ↦ .binding name (table.plainValue? name)).reverse

/-- In the second table each of the names holds the value at its place, and every other symbol is as
it is in the first. -/
structure Binds (before after : SymbolTable) (names : List Nat) (values : List Value) : Prop where
  length_eq : names.length = values.length
  value_eq : ∀ (place name : Nat) (value : Value),
    names[place]? = some name → values[place]? = some value → after.value? name = some value
  get_eq : ∀ symbol, symbol ∉ names → after.get symbol = before.get symbol

theorem get_holding {names : List Nat} {values : List Value} {symbol : Nat}
    (hsymbol : symbol ∉ names) : (table.holding names values).get symbol = table.get symbol := by
  induction names generalizing table values with
  | nil => rfl
  | cons name names ih =>
    obtain ⟨hname, hnames⟩ := List.ne_and_not_mem_of_not_mem_cons hsymbol
    cases values with
    | nil => rfl
    | cons value values => exact (ih hnames).trans (get_setCell_of_ne (Ne.symm hname) _)

theorem hidden_setCell {names : List Nat} {symbol : Nat} (hsymbol : symbol ∉ names)
    (cell : ValueCell) : (table.setCell symbol cell).hidden names = table.hidden names := by
  unfold hidden
  congr 1
  refine List.map_congr_left fun name hname ↦ ?_
  have hother : symbol ≠ name := by
    rintro rfl
    exact hsymbol hname
  unfold plainValue?
  rw [get_setCell_of_ne hother]

theorem size_holding (names : List Nat) (values : List Value) :
    (table.holding names values).size = table.size := by
  induction names generalizing table values with
  | nil => rfl
  | cons name names ih =>
    cases values with
    | nil => rfl
    | cons value values => exact (ih values).trans (size_setCell _ _)

theorem Bindable.holding {names : List Nat} {symbol : Nat} (hbindable : table.Bindable symbol)
    (hsymbol : symbol ∉ names) (values : List Value) :
    (table.holding names values).Bindable symbol where
  present := (size_holding names values).symm ▸ hbindable.present
  plain := (get_holding hsymbol).symm ▸ hbindable.plain
  assignable := (get_holding hsymbol).symm ▸ hbindable.assignable

theorem binds_holding {names : List Nat} {values : List Value} (hdistinct : names.Nodup)
    (hpresent : ∀ name ∈ names, name < table.size) (hlength : names.length = values.length) :
    table.Binds (table.holding names values) names values := by
  refine ⟨hlength, ?_, fun symbol hsymbol ↦ get_holding hsymbol⟩
  induction names generalizing table values with
  | nil => nofun
  | cons first names ih =>
    obtain ⟨hfirst, hnames⟩ := List.nodup_cons.mp hdistinct
    obtain ⟨hsize, hsizes⟩ := List.forall_mem_cons.mp hpresent
    cases values with
    | nil => cases hlength
    | cons value values =>
      intro place name bound hname hvalue
      cases place with
      | zero =>
        obtain rfl : first = name := Option.some.inj hname
        obtain rfl : value = bound := Option.some.inj hvalue
        have hcell : ((table.holding (first :: names) (value :: values)).get first).cell =
            .plain (some value) := by
          rw [holding, get_holding hfirst]
          exact cell_setCell_self hsize _
        unfold value?
        rw [resolve?_of_plain hcell]
        exact plainValue?_of_plain hcell
      | succ place =>
        have hsizes' : ∀ name ∈ names,
            name < (table.setCell first (.plain (some value))).size :=
          fun name hname ↦ (size_setCell _ _).symm ▸ hsizes name hname
        exact ih hnames hsizes' (Nat.succ.inj hlength) place name bound hname hvalue

end SymbolTable

/-- The machine in which names have been bound to values, one after the other. -/
def Machine.binding (machine : Machine) (names : List Nat) (values : List Value) : Machine :=
  { machine with
    symbols := machine.symbols.holding names values
    bindings := machine.symbols.hidden names ++ machine.bindings }

namespace Machine

variable {machine : Machine}

theorem binding_cons {name : Nat} {names : List Nat} (hname : name ∉ names) (value : Value)
    (values : List Value) :
    machine.binding (name :: names) (value :: values) =
      (machine.binding [name] [value]).binding names values := by
  have hlog : machine.symbols.hidden (name :: names) ++ machine.bindings =
      (machine.symbols.setCell name (.plain (some value))).hidden names ++
        (.binding name (machine.symbols.plainValue? name) :: machine.bindings) := by
    rw [SymbolTable.hidden_setCell hname, SymbolTable.hidden, List.map_cons, List.reverse_cons,
      List.append_assoc]
    rfl
  unfold binding
  rw [hlog]
  rfl

theorem binding_append {names later : List Nat} {values others : List Value}
    (hdistinct : (names ++ later).Nodup) (hlength : names.length = values.length) :
    machine.binding (names ++ later) (values ++ others) =
      (machine.binding names values).binding later others := by
  induction names generalizing machine values with
  | nil =>
    obtain rfl : values = [] := List.eq_nil_of_length_eq_zero hlength.symm
    rfl
  | cons name names ih =>
    cases values with
    | nil => cases hlength
    | cons value values =>
      rw [List.cons_append] at hdistinct
      obtain ⟨hname, hnames⟩ := List.nodup_cons.mp hdistinct
      have hfirst : name ∉ names := fun hmem ↦ hname (List.mem_append_left _ hmem)
      rw [List.cons_append, List.cons_append, binding_cons hname, binding_cons hfirst,
        ih hnames (Nat.succ.inj hlength)]

end Machine

/-! ### Binding parameters -/

/-- Arguments brought to a number: those beyond it are left off, and nil stands for those that are
missing. -/
def fitted (count : Nat) (arguments : List Value) : List Value :=
  arguments.take count ++ List.replicate (count - arguments.length) .nil

theorem length_fitted (count : Nat) (arguments : List Value) :
    (fitted count arguments).length = count := by
  rw [fitted, List.length_append, List.length_take, List.length_replicate]
  omega

theorem fitted_succ (count : Nat) (arguments : List Value) :
    fitted (count + 1) arguments = argument arguments 0 :: fitted count (arguments.drop 1) := by
  cases arguments with
  | nil =>
    simp only [fitted, List.take_nil, List.nil_append, List.length_nil, Nat.sub_zero,
      List.drop_nil, List.replicate_succ]
    rfl
  | cons first arguments =>
    simp only [fitted, List.take_succ_cons, List.length_cons, Nat.add_sub_add_right,
      List.drop_succ_cons, List.drop_zero, List.cons_append]
    rfl

section Binding

variable {machine : Machine}

theorem resolveAssignable_of_bindable {store : Store} {name : Nat}
    (hname : store.symbols.Bindable name) :
    resolveAssignable (.symbol name) store = .ok name store := by
  obtain ⟨old, hcell⟩ := hname.plain
  rw [resolveAssignable_apply, SymbolTable.resolve?_of_plain hcell]
  exact if_neg (Bool.eq_false_iff.mp hname.assignable)

theorem bindVariable_of_bindable {name : Nat} (hname : machine.symbols.Bindable name)
    (value : Value) :
    bindVariable (.symbol name) value machine = .ok () (machine.binding [name] [value]) :=
  bind_of_ok (liftM_of_ok (resolveAssignable_of_bindable hname))

/-- The positional parameters are bound to as many arguments. -/
theorem bindParameters_of_bindable {names : List Nat} (hdistinct : names.Nodup)
    (hnames : ∀ name ∈ names, machine.symbols.Bindable name) (arguments : List Value) :
    bindParameters (names.map .symbol) arguments machine =
      .ok () (machine.binding names (fitted names.length arguments)) := by
  induction names generalizing machine arguments with
  | nil => rfl
  | cons name names ih =>
    obtain ⟨hname, hdistinct⟩ := List.nodup_cons.mp hdistinct
    obtain ⟨hfirst, hnames⟩ := List.forall_mem_cons.mp hnames
    have hlater : ∀ other ∈ names,
        (machine.binding [name] [argument arguments 0]).symbols.Bindable other := by
      intro other hother
      refine (hnames other hother).holding (fun hsame ↦ hname ?_) _
      exact List.mem_singleton.mp hsame ▸ hother
    rw [List.length_cons, fitted_succ, Machine.binding_cons hname]
    exact (bind_of_ok (bindVariable_of_bindable hfirst _)).trans (ih hdistinct hlater _)

end Binding

/-! ### Receiving arguments -/

section Receiving

variable {caller : Caller} {machine : Machine} {names : ParameterNames} {arguments : List Value}

theorem ParameterNames.length_positional (names : ParameterNames) :
    names.positional.length = names.template.positional :=
  List.length_append

/-- The number of the arguments is tested as the template does. -/
theorem receiveArguments_dynamic {table : SymbolTable} (hnames : names.Bindable table)
    (stack : OperandStack) :
    receiveArguments caller (.dynamic names.symbols) arguments stack =
      if names.template.accepts arguments.length then do
        bindParameters (names.positional.map .symbol) arguments
        bindRest (names.rest.map .symbol) names.positional.length arguments
        return stack
      else
        liftM (wrongArgumentCount names.template.mandatory names.template.maxArguments
          arguments.length : Storage OperandStack) := by
  have hlength : (names.positional.map Value.symbol).length = names.template.positional := by
    rw [List.length_map, names.length_positional]
  have hrest : (names.rest.map Value.symbol).isNone = true ↔ names.template.rest = false := by
    unfold ParameterNames.template
    cases names.rest <;> simp
  have hmost : (if (names.rest.map Value.symbol).isSome then none
      else some (names.positional.map Value.symbol).length) = names.template.maxArguments := by
    rw [hlength]
    unfold Template.maxArguments ParameterNames.template
    cases names.rest <;> rfl
  have hcount := names.template.accepts_iff arguments.length
  rw [← hlength, ← hrest] at hcount
  unfold receiveArguments
  dsimp only
  rw [ParameterNames.parse_symbols hnames]
  dsimp only
  rw [hmost]
  by_cases haccepts : names.template.accepts arguments.length = true
  · rw [if_pos haccepts]
    refine (if_neg (hcount.mp haccepts)).trans ?_
    rw [List.length_map]
  · rw [if_neg haccepts]
    exact if_pos (not_not.mp fun hnot ↦ haccepts (hcount.mpr hnot))

/-- The values that a template makes of arguments, and the heap with the list of the others. -/
def Template.slots (template : Template) (arguments : List Value) (heap : Heap) :
    List Value × Heap :=
  let given := fitted template.positional arguments
  if template.rest then
    let others := heap.list (arguments.drop template.positional)
    (given ++ [others.1], others.2)
  else (given, heap)

theorem templateSlots_eq (template : Template) (arguments : List Value) (store : Store) :
    templateSlots template arguments store =
      .ok (template.slots arguments store.heap).1
        { store with heap := (template.slots arguments store.heap).2 } := by
  have hmissing : template.positional - (arguments.take template.positional).length =
      template.positional - arguments.length := by
    rw [List.length_take]
    omega
  unfold templateSlots Template.slots
  dsimp only
  rw [hmissing]
  cases template.rest <;> rfl

theorem Template.length_slots (template : Template) (arguments : List Value) (heap : Heap) :
    (template.slots arguments heap).1.length = template.entryDepth := by
  unfold slots entryDepth
  cases template.rest
  · exact length_fitted _ _
  · exact List.length_append.trans (congrArg (· + 1) (length_fitted _ _))

theorem ParameterNames.length_all (names : ParameterNames) :
    names.all.length = names.template.entryDepth := by
  rw [all, List.length_append, length_positional]
  unfold Template.entryDepth template
  cases names.rest <;> rfl

/-- The values that the template would put on the stack are bound to the names. -/
theorem receiveArguments_of_bindable (caller : Caller)
    (hnames : names.Bindable machine.symbols)
    (haccepts : names.template.accepts arguments.length = true) (stack : OperandStack) :
    receiveArguments caller (.dynamic names.symbols) arguments stack machine =
      .ok stack ({ machine with heap := (names.template.slots arguments machine.heap).2 }.binding
        names.all (names.template.slots arguments machine.heap).1) := by
  have hdistinct : (names.positional ++ names.rest.toList).Nodup := hnames.distinct
  obtain ⟨hpositional, hothers⟩ := List.forall_mem_append.mp hnames.bindable
  have hbound := bindParameters_of_bindable hdistinct.of_append_left hpositional arguments
  rw [receiveArguments_dynamic hnames, if_pos haccepts]
  refine (bind_of_ok hbound).trans ?_
  unfold ParameterNames.all Template.slots
  rw [← names.length_positional]
  cases hrest : names.rest with
  | none =>
    have htemplate : names.template.rest = false := by
      rw [ParameterNames.template, hrest]
      rfl
    rw [htemplate, Option.toList_none, List.append_nil]
    rfl
  | some rest =>
    have htemplate : names.template.rest = true := by
      rw [ParameterNames.template, hrest]
      rfl
    rw [hrest, Option.toList_some] at hdistinct hothers
    have hfree : rest ∉ names.positional :=
      fun hmem ↦ List.disjoint_of_nodup_append hdistinct hmem (List.mem_singleton_self rest)
    have hrestBindable : (machine.symbols.holding names.positional
        (fitted names.positional.length arguments)).Bindable rest :=
      (hothers rest (List.mem_singleton_self rest)).holding hfree _
    rw [htemplate, if_pos rfl, Option.toList_some]
    dsimp only
    rw [Machine.binding_append hdistinct (length_fitted _ _).symm]
    exact bind_of_ok (bindVariable_of_bindable hrestBindable _)

end Receiving

/-! ### Invocations -/

/-- What was due before a call has been compiled. The function that is called is there, and the store,
the bindings and the handlers are as they were. -/
structure Machine.Readied (machine ready : Machine) (id : Nat) (subject : Function) : Prop where
  compiled : compileIfDue id machine = .ok () ready
  function : ready.functions[id]? = some subject
  store : ready.toStore = machine.toStore
  bindings : ready.bindings = machine.bindings
  handlers : ready.handlers = machine.handlers

/-- Of the function that is called nothing but its native code can have changed. -/
theorem Machine.readied_of_compileIfDue {machine ready : Machine} {id : Nat} {subject : Function}
    (hsubject : machine.functions[id]? = some subject)
    (hready : compileIfDue id machine = .ok () ready) :
    ∃ code, machine.Readied ready id { subject with compiled := code } := by
  have hrun := hready
  change (if machine.settings.compileOnFirstCall then (do let _ ← compile id) else Pure.pure () :
    Engine Unit) machine = _ at hrun
  split_ifs at hrun with hdue
  · obtain ⟨code, between, hcompile, hpure⟩ := bind_eq_ok hrun
    cases hpure
    cases hcompiled : subject.compiled with
    | some native =>
      rw [compile_of_compiled hsubject hcompiled] at hcompile
      cases hcompile
      refine ⟨some code, hready, hsubject.trans ?_, rfl, rfl, rfl⟩
      rw [← hcompiled]
    | none =>
      obtain ⟨-, rfl⟩ := compile_eq_ok hsubject hcompiled hcompile
      refine ⟨some code, hready, ?_, rfl, rfl, rfl⟩
      rw [Array.getElem?_modify, if_pos rfl, hsubject]
      rfl
  · cases hrun
    exact ⟨subject.compiled, hready, hsubject, rfl, rfl, rfl⟩

/-- Invoking the function is an error because of the number of the arguments, whose data are the
given ones in the given heap. Nothing else in the store has changed, and neither a binding nor a
handler is left. That is so for every caller, also for one under which no instruction can be run. -/
def Machine.RefusesWith (machine : Machine) (id : Nat) (arguments : List Value) (data : Value)
    (heap : Heap) : Prop :=
  ∀ caller : Caller,
    (∀ reason machine, caller.permits (.stopping reason) machine = true) →
      ∃ after, invoke caller id arguments machine =
          .error (.signal (.error Symbols.wrongNumberOfArguments data)) after ∧
        after.toStore = { machine.toStore with heap := heap } ∧
        after.bindings = machine.bindings ∧ after.handlers = machine.handlers

section Invocations

variable {machine ready : Machine} {id : Nat} {subject : Function} {arguments : List Value}

theorem Machine.Readied.invoke_eq (hreadied : machine.Readied ready id subject) (caller : Caller)
    (arguments : List Value) :
    invoke caller id arguments machine =
      unwindingTo caller machine.bindings.length (runInvocation caller subject arguments)
        ready := by
  have hgetD : ready.functions.getD id default = subject := by
    rw [Array.getD_eq_getD_getElem?, hreadied.function]
    rfl
  refine (bind_of_ok hreadied.compiled).trans ?_
  rw [← hgetD, ← hreadied.bindings]
  rfl

/-- Without slots for the stack an invocation stops once what is due has been compiled. -/
theorem Machine.Readied.invoke_of_not_stackFits (hreadied : machine.Readied ready id subject)
    (hfits : ¬ subject.StackFits) (caller : Caller) :
    invoke caller id arguments machine = .error (.exhausted .sizes) ready := by
  rw [hreadied.invoke_eq]
  exact runInvocation_of_not_stackFits hfits _

/-- A body that starts is no error because of the number of the arguments. -/
theorem not_refusesWith_of_started {mark : BindingMark} {frame : Frame} {stack : OperandStack}
    {started : Machine} (hstarts : ∀ caller, invoke caller id arguments machine =
      runStarted caller mark frame stack started) (data : Value) (heap : Heap) :
    ¬ machine.RefusesWith id arguments data heap := by
  intro hrefuses
  obtain ⟨after, herror, -⟩ := hrefuses Caller.idle fun _ _ ↦ rfl
  have hidle : Caller.idle.rounds = 0 := rfl
  obtain ⟨stopped, hexhausted⟩ := runStarted_of_no_rounds hidle mark frame stack started
  rw [hstarts, hexhausted] at herror
  cases herror

/-- Where the arguments are refused, the data of the error and the heap are known. -/
theorem refusesWith_iff_of_refused {template : Template} {data : Value} {heap : Heap}
    (hreadied : machine.Readied ready id subject) (hfits : subject.StackFits)
    (hreceived : ∀ caller,
      receiveArguments caller subject.parameters arguments (.empty subject.stackLimit) =
        liftM (wrongArgumentCount template.mandatory template.maxArguments arguments.length :
          Storage OperandStack))
    (herror : (wrongArgumentCount template.mandatory template.maxArguments arguments.length :
      Storage OperandStack) machine.toStore =
        .error (.signal ⟨Symbols.wrongNumberOfArguments, data⟩) { machine.toStore with heap := heap })
    (data' : Value) (heap' : Heap) :
    machine.RefusesWith id arguments data' heap' ↔ data' = data ∧ heap' = heap := by
  let reason : StoreError := ⟨Symbols.wrongNumberOfArguments, data⟩
  let after : Machine := { ready with toStore := { machine.toStore with heap := heap } }
  have hinvoke (caller : Caller)
      (hpermits : ∀ reason machine, caller.permits (.stopping reason) machine = true) :
      invoke caller id arguments machine =
        .error (.signal (.error Symbols.wrongNumberOfArguments data)) after := by
    have hrefused : receiveArguments caller subject.parameters arguments
        (.empty subject.stackLimit) ready =
          .error (.signal (.error reason.symbol reason.data)) after := by
      rw [hreceived]
      rw [← hreadied.store] at herror
      rw [liftM_of_signal herror, hreadied.store]
    rw [hreadied.invoke_eq, ← hreadied.bindings]
    exact unwindingTo_of_signal (runInvocation_of_refused hfits hrefused hpermits) (hpermits _ _)
  constructor
  · intro hrefuses
    obtain ⟨_, hrun, hstore, -⟩ := hrefuses Caller.idle fun _ _ ↦ rfl
    rw [hinvoke Caller.idle fun _ _ ↦ rfl] at hrun
    cases hrun
    exact ⟨rfl, (congrArg Store.heap hstore).symm⟩
  · rintro ⟨rfl, rfl⟩ caller hpermits
    exact ⟨after, hinvoke caller hpermits, rfl, hreadied.bindings, hreadied.handlers⟩

variable {names : ParameterNames}

/-- With a number of arguments that the template accepts, the body starts where the names are
bound. -/
theorem invoke_dynamic_of_accepts (hreadied : machine.Readied ready id subject)
    (hfits : subject.StackFits)
    (hnames : names.Bindable machine.symbols)
    (hdynamic : subject.parameters = .dynamic names.symbols)
    (haccepts : names.template.accepts arguments.length = true) (caller : Caller) :
    invoke caller id arguments machine =
      runStarted caller machine.bindings.length
        ⟨subject, names.all.length + machine.bindings.length, machine.handlers.length⟩
        (.empty subject.stackLimit)
        { ready with
          heap := (names.template.slots arguments machine.heap).2
          symbols := machine.symbols.holding names.all
            (names.template.slots arguments machine.heap).1
          bindings := machine.symbols.hidden names.all ++ machine.bindings } := by
  have hheap : ready.heap = machine.heap := congrArg Store.heap hreadied.store
  have hsymbols : ready.symbols = machine.symbols := congrArg Store.symbols hreadied.store
  have hreceived := receiveArguments_of_bindable caller (hsymbols.symm ▸ hnames) haccepts
    (.empty subject.stackLimit)
  rw [← hdynamic, hheap, Machine.binding, hreadied.bindings] at hreceived
  have hmark : (machine.symbols.hidden names.all ++ machine.bindings).length =
      names.all.length + machine.bindings.length := by
    rw [SymbolTable.hidden, List.length_append, List.length_reverse, List.length_map]
  rw [hreadied.invoke_eq, runInvocation_of_started hfits hreceived, ← hreadied.handlers, ← hmark,
    ← hsymbols]

/-- With a number of arguments that the template accepts, the body starts with the values on its
stack. -/
theorem invoke_template_of_accepts {template : Template}
    (hreadied : machine.Readied ready id subject) (hfits : subject.StackFits)
    (htemplate : subject.parameters = .template template)
    (haccepts : template.accepts arguments.length = true) :
    ∃ stack, stack.values = (template.slots arguments machine.heap).1 ∧
      ∀ caller, invoke caller id arguments machine =
        runStarted caller machine.bindings.length
          ⟨subject, machine.bindings.length, machine.handlers.length⟩ stack
          { ready with heap := (template.slots arguments machine.heap).2 } := by
  obtain ⟨stack, hvalues, -, hreceived⟩ := receiveArguments_of_slots htemplate haccepts
    (templateSlots_eq template arguments ready.toStore) (template.length_slots arguments _)
  have hheap : ready.heap = machine.heap := congrArg Store.heap hreadied.store
  rw [hheap] at hvalues hreceived
  refine ⟨stack, hvalues, fun caller ↦ ?_⟩
  rw [hreadied.invoke_eq, runInvocation_of_started hfits (hreceived caller), ← hreadied.handlers,
    ← hreadied.bindings]

/-- A function with a dynamic parameter list against one with the template that the list stands for,
in the same machine, where what is due before the calls can be compiled. Where both
can have an operand stack, the two refuse the same numbers of arguments, which are those that the
template does not accept, with the same data. With any other number both bodies start. Where the one
starts with values on its stack, the other starts with an empty stack and with each name bound to the
value at its place, that of the rest to the list of the others. No other symbol has changed, and the
log keeps just what the names held before. A call of the one that can have no stack stops at once. -/
theorem invoke_dynamic_as_template {twin : Nat} {ready' : Machine} {other : Function}
    (hnames : names.Bindable machine.symbols)
    (hsubject : machine.functions[id]? = some subject)
    (hdynamic : subject.parameters = .dynamic names.symbols)
    (hready : compileIfDue id machine = .ok () ready)
    (hother : machine.functions[twin]? = some other)
    (htemplate : other.parameters = .template names.template)
    (hready' : compileIfDue twin machine = .ok () ready') (arguments : List Value) :
    (subject.StackFits → other.StackFits →
      (∀ data heap, machine.RefusesWith id arguments data heap ↔
        machine.RefusesWith twin arguments data heap) ∧
      ((∃ data heap, machine.RefusesWith id arguments data heap) ↔
        names.template.accepts arguments.length = false) ∧
      ((¬ ∃ data heap, machine.RefusesWith id arguments data heap) →
        ∃ code code' heap stack table, machine.symbols.Binds table names.all stack.values ∧
          (∀ caller, invoke caller twin arguments machine =
            runStarted caller machine.bindings.length
              ⟨{ other with compiled := code' }, machine.bindings.length, machine.handlers.length⟩
              stack { ready' with heap := heap }) ∧
          ∀ caller, invoke caller id arguments machine =
            runStarted caller machine.bindings.length
              ⟨{ subject with compiled := code }, names.all.length + machine.bindings.length,
                machine.handlers.length⟩
              (.empty subject.stackLimit)
              { ready with
                heap := heap
                symbols := table
                bindings := machine.symbols.hidden names.all ++ machine.bindings })) ∧
    (¬ subject.StackFits → ∀ caller,
      invoke caller id arguments machine = .error (.exhausted .sizes) ready) ∧
    (¬ other.StackFits → ∀ caller,
      invoke caller twin arguments machine = .error (.exhausted .sizes) ready') := by
  obtain ⟨code, hreadied⟩ := Machine.readied_of_compileIfDue hsubject hready
  obtain ⟨code', hreadied'⟩ := Machine.readied_of_compileIfDue hother hready'
  refine ⟨fun hfits hfits' ↦ ?_, hreadied.invoke_of_not_stackFits, hreadied'.invoke_of_not_stackFits⟩
  by_cases haccepts : names.template.accepts arguments.length = true
  · have hstarts := invoke_dynamic_of_accepts hreadied hfits hnames hdynamic haccepts
    obtain ⟨stack, hvalues, hstarts'⟩ :=
      invoke_template_of_accepts hreadied' hfits' htemplate haccepts
    have hnever := not_refusesWith_of_started hstarts
    have hnever' := not_refusesWith_of_started hstarts'
    refine ⟨fun data heap ↦ iff_of_false (hnever data heap) (hnever' data heap), ?_, fun _ ↦ ?_⟩
    · refine iff_of_false ?_ (Bool.not_eq_false _ ▸ haccepts)
      rintro ⟨data, heap, hrefuses⟩
      exact hnever data heap hrefuses
    · refine ⟨code, code', _, stack, machine.symbols.holding names.all stack.values, ?_, hstarts',
        fun caller ↦ ?_⟩
      · refine SymbolTable.binds_holding hnames.distinct
          (fun name hname ↦ (hnames.bindable name hname).present) ?_
        rw [hvalues, Template.length_slots, names.length_all]
      · rw [hvalues]
        exact hstarts caller
  · obtain ⟨heap, data, -, -, -, -, herror⟩ := wrongArgumentCount_apply (α := OperandStack)
      names.template.mandatory names.template.maxArguments arguments.length machine.toStore
    have hrefuses := refusesWith_iff_of_refused hreadied hfits (fun caller ↦ by
      rw [hdynamic, receiveArguments_dynamic hnames, if_neg haccepts]) herror
    have hrefuses' := refusesWith_iff_of_refused hreadied' hfits' (fun caller ↦ by
      rw [htemplate, receiveArguments, if_neg haccepts]) herror
    have hrefused : ∃ data heap, machine.RefusesWith id arguments data heap :=
      ⟨data, heap, (hrefuses data heap).mpr ⟨rfl, rfl⟩⟩
    refine ⟨fun data heap ↦ (hrefuses data heap).trans (hrefuses' data heap).symm, ?_,
      fun hnot ↦ absurd hrefused hnot⟩
    exact iff_of_true hrefused (Bool.eq_false_iff.mpr haccepts)

/-- A list with one name of each kind. No arguments are refused, as by the template. With four of
them the three names are bound to the three values that are on the stack of the other function. -/
theorem invoke_dynamic_as_template_each :
    let names : ParameterNames := ⟨[46], some [47], some 48⟩
    let table : SymbolTable :=
      ⟨Array.replicate 46 default ++ #[⟨"x", .plain none, .nil, false, []⟩,
        ⟨"y", .plain (some .t), .nil, false, []⟩, ⟨"z", .plain none, .nil, false, []⟩]⟩
    let subject : Function :=
      { code := #[0x87], constants := #[], maxDepth := 0, parameters := .dynamic names.symbols }
    let other : Function := { subject with parameters := .template ⟨1, 2, true⟩ }
    let machine : Machine :=
      { heap := .empty 1, symbols := table, settings := {}, functions := #[subject, other] }
    names.symbols =
        [.symbol 46, Symbols.andOptional, .symbol 47, Symbols.andRest, .symbol 48] ∧
      (∃ data heap, machine.RefusesWith 0 [] data heap ∧ machine.RefusesWith 1 [] data heap) ∧
      ∃ code code' heap stack bound, table.Binds bound [46, 47, 48] stack.values ∧
        (∀ caller, invoke caller 1 [.nil, .t, .nil, .t] machine =
          runStarted caller 0 ⟨{ other with compiled := code' }, 0, 0⟩ stack
            { machine with heap := heap }) ∧
        ∀ caller, invoke caller 0 [.nil, .t, .nil, .t] machine =
          runStarted caller 0 ⟨{ subject with compiled := code }, 3, 0⟩ (.empty 0)
            { machine with
              heap := heap
              symbols := bound
              bindings := [.binding 48 none, .binding 47 (some .t), .binding 46 none] } := by
  intro names table subject other machine
  have hnames : names.Bindable table :=
    { distinct := by decide
      unmarked := by decide
      bindable := by
        intro name hname
        obtain rfl | rfl | rfl : name = 46 ∨ name = 47 ∨ name = 48 := by
          simpa [names, ParameterNames.all, ParameterNames.positional] using hname
        · exact ⟨by decide, ⟨_, rfl⟩, rfl⟩
        · exact ⟨by decide, ⟨_, rfl⟩, rfl⟩
        · exact ⟨by decide, ⟨_, rfl⟩, rfl⟩ }
  have hsubject : machine.functions[0]? = some subject := rfl
  have hother : machine.functions[1]? = some other := rfl
  have hready (id : Nat) : compileIfDue id machine = .ok () machine := rfl
  have hagree := invoke_dynamic_as_template hnames hsubject rfl (hready 0) hother rfl (hready 1)
  have hfits : subject.StackFits := by decide
  have hfits' : other.StackFits := by decide
  obtain ⟨hsame, hrefused, -⟩ := (hagree []).1 hfits hfits'
  obtain ⟨-, hrefused', hstarts⟩ := (hagree [.nil, .t, .nil, .t]).1 hfits hfits'
  refine ⟨rfl, ?_, hstarts fun hrefuses ↦ ?_⟩
  · obtain ⟨data, heap, hrefuses⟩ := hrefused.mpr (by decide)
    exact ⟨data, heap, hrefuses, (hsame data heap).mp hrefuses⟩
  · exact absurd (hrefused'.mp hrefuses) (by decide)

/-- The list names one parameter and the function declares the greatest depth that there is as a size.
The one argument that it is given is not refused, but the body does not start. -/
theorem invoke_dynamic_unstarted :
    let names : ParameterNames := ⟨[46], none, none⟩
    let table : SymbolTable :=
      ⟨Array.replicate 46 default ++ #[⟨"x", .plain none, .nil, false, []⟩]⟩
    let subject : Function :=
      { code := #[0xC0, 0x87], constants := #[.nil], maxDepth := 2 ^ 64 - 1,
        parameters := .dynamic names.symbols }
    let machine : Machine :=
      { heap := .empty 1, symbols := table, settings := {}, functions := #[subject] }
    names.template.accepts 1 = true ∧
      (¬ ∃ data heap, machine.RefusesWith 0 [.t] data heap) ∧
      ¬ ∃ mark frame stack started, ∀ caller, invoke caller 0 [.t] machine =
        runStarted caller mark frame stack started := by
  intro names table subject machine
  have hreadied : machine.Readied machine 0 subject := ⟨rfl, rfl, rfl, rfl, rfl⟩
  have hstops : invoke Caller.idle 0 [.t] machine = .error (.exhausted .sizes) machine :=
    hreadied.invoke_of_not_stackFits (by decide) Caller.idle
  refine ⟨by decide, ?_, ?_⟩
  · rintro ⟨data, heap, hrefuses⟩
    obtain ⟨after, herror, -⟩ := hrefuses Caller.idle fun _ _ ↦ rfl
    exact nomatch hstops.symm.trans herror
  · rintro ⟨mark, frame, stack, started, hstarts⟩
    have hidle : Caller.idle.rounds = 0 := rfl
    obtain ⟨after, hrounds⟩ := runStarted_of_no_rounds hidle mark frame stack started
    exact nomatch hstops.symm.trans ((hstarts Caller.idle).trans hrounds)

end Invocations

end LispMachine
