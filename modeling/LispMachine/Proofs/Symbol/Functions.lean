import LispMachine.Proofs.Run.Arguments
import LispMachine.Proofs.Run.Unwinding

/-!
What counts as a function, and what can be called. An application follows the definitions of symbols
to their end and calls what it finds there if that is an object of the right kind
(`call_of_behind`); otherwise it stops before anything is called, with an error about the function
itself. The test for functions looks at one definition only. A symbol that is defined as another
symbol passes the test without a look at this one (`Store.Forwards`). The main statement,
`functionp_against_application`, says that the test is right about all other values: they pass it
exactly if an application comes to call something.
-/

set_option autoImplicit false

namespace LispMachine

open LispMachine.Action Storage Engine

/-! ### Following definitions -/

namespace Storage

theorem functionBehind_symbol {function : Value} {index : Nat} {store : Store} (limit : Nat) :
    functionBehind function (limit + 1) (.symbol index) store =
      if (Value.symbol index).isNil then error Symbols.voidFunction [function] store
      else functionBehind function limit (store.symbols.get index).function store := by
  change (if (Value.symbol index).isNil then _ else _ : Storage Value) store = _
  split_ifs <;> rfl

/-- Definitions end with something that is no symbol, and nothing has changed, or else with an error
about the function from which they were followed. -/
theorem functionBehind_cases (function : Value) (limit : Nat) (current : Value) (store : Store) :
    (∃ callee, functionBehind function limit current store = .ok callee store) ∨
    ∃ symbol ∈ [Symbols.voidFunction, Symbols.circularList],
      functionBehind function limit current store = error symbol [function] store := by
  induction limit generalizing current with
  | zero => exact .inr ⟨Symbols.circularList, by decide, rfl⟩
  | succ limit ih =>
    cases current with
    | fixnum | object => exact .inl ⟨_, rfl⟩
    | symbol index =>
      rw [functionBehind_symbol]
      split_ifs
      · exact .inr ⟨Symbols.voidFunction, by decide, rfl⟩
      · exact ih (store.symbols.get index).function

end Storage

namespace Store

variable {store : Store} {value callee : Value}

/-- The definitions of a value end with an object that can be called. -/
def Reaches (store : Store) (value callee : Value) : Prop :=
  indirectFunction value store = .ok callee store ∧ store.isCallable callee = true

/-- The value is a symbol other than nil that is defined as another one. -/
def Forwards (store : Store) (value : Value) : Prop :=
  ∃ index, value = .symbol index ∧ value.isNil = false ∧
    (store.symbols.get index).function.isSymbol = true ∧
    (store.symbols.get index).function.isNil = false

theorem reaches_iff_of_indirect (hbehind : indirectFunction value store = .ok callee store) :
    (∃ callee, store.Reaches value callee) ↔ store.isCallable callee = true := by
  constructor
  · rintro ⟨other, hother, hcallable⟩
    cases hbehind.symm.trans hother
    exact hcallable
  · exact fun hcallable ↦ ⟨callee, hbehind, hcallable⟩

theorem not_reaches_of_error {symbol : Value}
    (hbehind : indirectFunction value store = error symbol [value] store) :
    ¬ ∃ callee, store.Reaches value callee := by
  rintro ⟨callee, hcallee, -⟩
  cases hbehind.symm.trans hcallee

/-- What the test finds: a symbol that is defined as another one, or what an application finds, or
that there is no definition. -/
theorem isFunction_cases (store : Store) (value : Value) :
    (store.Forwards value ∧ store.isFunction value = true) ∨
    ¬ store.Forwards value ∧
      ((∃ callee, indirectFunction value store = .ok callee store ∧
        store.isFunction value = store.isCallable callee) ∨
      indirectFunction value store = error Symbols.voidFunction [value] store ∧
        store.isFunction value = false) := by
  cases value with
  | fixnum | object => exact .inr ⟨nofun, .inl ⟨_, rfl, rfl⟩⟩
  | symbol index =>
    have hbehind : indirectFunction (.symbol index) store =
        if (Value.symbol index).isNil then error Symbols.voidFunction [.symbol index] store
        else functionBehind (.symbol index) 99 (store.symbols.get index).function store :=
      functionBehind_symbol _
    have htest : store.isFunction (.symbol index) =
        if (Value.symbol index).isNil then false
        else if (store.symbols.get index).function.isSymbol then
          !(store.symbols.get index).function.isNil
        else store.isCallable (store.symbols.get index).function := rfl
    have hforwards : store.Forwards (.symbol index) ↔ (Value.symbol index).isNil = false ∧
        (store.symbols.get index).function.isSymbol = true ∧
        (store.symbols.get index).function.isNil = false := by
      constructor
      · rintro ⟨_, ⟨⟩, hlives⟩
        exact hlives
      · exact fun hlives ↦ ⟨index, rfl, hlives⟩
    rw [hbehind, htest, hforwards]
    generalize (store.symbols.get index).function = definition
    cases hnil : (Value.symbol index).isNil with
    | true => exact .inr ⟨nofun, .inr ⟨rfl, rfl⟩⟩
    | false =>
      cases definition with
      | fixnum | object => exact .inr ⟨nofun, .inl ⟨_, rfl, rfl⟩⟩
      | symbol next =>
        cases hnext : (Value.symbol next).isNil with
        | true =>
          refine .inr ⟨nofun, .inr ⟨?_, rfl⟩⟩
          exact (functionBehind_symbol _).trans (if_pos hnext)
        | false =>
          -- an application goes on from here, and the test does not
          exact .inl ⟨⟨rfl, rfl, rfl⟩, rfl⟩

/-- A value passes the test exactly if its definitions end with an object that can be called, or if
they go on behind the one that is looked at. -/
theorem isFunction_iff (store : Store) (value : Value) :
    store.isFunction value = true ↔
      (∃ callee, store.Reaches value callee) ∨ store.Forwards value := by
  rcases store.isFunction_cases value with
    ⟨hforwards, htest⟩ | ⟨hends, ⟨callee, hbehind, htest⟩ | ⟨hbehind, htest⟩⟩
  · simp only [htest, hforwards, or_true]
  · simp only [htest, reaches_iff_of_indirect hbehind, hends, or_false]
  · simp only [htest, Bool.false_eq_true, not_reaches_of_error hbehind, hends, or_self]

end Store

/-! ### Calling -/

/-- What calling an object is, if it can be called. -/
def Store.entry? (store : Store) (caller : Caller) (callee : Value) (arguments : List Value) :
    Option (Engine Value) :=
  match store.heap.get? callee with
  | some (.primitive index _) => some (callPrimitive caller callee index arguments)
  | some (.function id _) => some (invoke caller id arguments)
  | _ => none

theorem Store.isSome_entry? (store : Store) (caller : Caller) (callee : Value)
    (arguments : List Value) :
    (store.entry? caller callee arguments).isSome = store.isCallable callee := by
  unfold entry? isCallable
  cases store.heap.get? callee with
  | none => rfl
  | some object => cases object <;> rfl

section Calling

variable {caller : Caller} {function callee : Value} {arguments : List Value} {machine : Machine}

/-- What is called is the object with which the definitions end. -/
theorem call_of_behind
    (hbehind : indirectFunction function machine.toStore = .ok callee machine.toStore) :
    call caller function arguments machine =
      match machine.entry? caller callee arguments with
      | some action => action machine
      | none => (liftM (error Symbols.invalidFunction [function] : Storage Value) : Engine Value)
          machine := by
  have hcall : call caller function arguments machine =
      (match machine.heap.get? callee with
        | some (.primitive index _) => callPrimitive caller callee index arguments
        | some (.function id _) => invoke caller id arguments
        | _ => liftM (error Symbols.invalidFunction [function] : Storage Value) :
          Engine Value) machine :=
    bind_of_ok (liftM_of_ok hbehind)
  rw [hcall]
  unfold Store.entry?
  cases machine.heap.get? callee with
  | none => rfl
  | some object => cases object <;> rfl

theorem nested_congr {action action' : Engine Value}
    (hsame : action { machine with evalDepth := machine.evalDepth + 1 } =
      action' { machine with evalDepth := machine.evalDepth + 1 }) :
    nested caller action machine = nested caller action' machine :=
  attempt_bind_congr hsame _

theorem nested_of_signal {action : Engine Value} {reason : Signal} {after : Machine}
    (hstops : action { machine with evalDepth := machine.evalDepth + 1 } =
      .error (.signal reason) after) (hpermits : caller.permits (.stopping reason) after = true) :
    nested caller action machine =
      .error (.signal reason) { after with evalDepth := after.evalDepth - 1 } := by
  have hattempt : caller.attempt action { machine with evalDepth := machine.evalDepth + 1 } =
      .ok (.error reason) after := by
    rw [Caller.attempt_apply, hstops]
    exact if_pos hpermits
  exact bind_of_ok hattempt

/-- A call that finds nothing to call ends with an error about the function. -/
theorem call_of_not_reaches (hreaches : ¬ ∃ callee, machine.Reaches function callee) :
    ∃ symbol ∈ [Symbols.voidFunction, Symbols.invalidFunction, Symbols.circularList],
      call caller function arguments machine =
        (liftM (error symbol [function] : Storage Value) : Engine Value) machine := by
  rcases functionBehind_cases function maxFunctionChain function machine.toStore with
    ⟨callee, hbehind⟩ | ⟨symbol, hsymbol, hbehind⟩
  · have hentry : machine.entry? caller callee arguments = none := by
      rw [Store.reaches_iff_of_indirect hbehind, ← machine.isSome_entry? caller callee arguments]
        at hreaches
      exact Option.not_isSome_iff_eq_none.mp hreaches
    refine ⟨Symbols.invalidFunction, by decide, ?_⟩
    rw [call_of_behind hbehind, hentry]
  · refine ⟨symbol, ?_, ?_⟩
    · exact List.cons_subset_cons _ (List.subset_cons_self _ _) hsymbol
    · exact bind_of_error (liftM_of_signal hbehind)

end Calling

/-- An application that is admitted is the call, one level deeper. A request to quit that arrives
just then waits. -/
theorem bounded_apply {machine : Machine} (hadmits : machine.admits = true) (steps : Nat)
    (function : Value) (arguments : List Value) :
    (Caller.bounded (steps + 1)).apply function arguments machine =
      nested (.bounded steps) (call (.bounded steps) function arguments) machine.receiveQuit := by
  have hentered : (Caller.bounded steps).entering.apply function arguments machine =
      nested (.bounded steps) (call (.bounded steps) function arguments) machine.receiveQuit :=
    nested_congr rfl
  exact (apply_of_admits hadmits function arguments).trans hentered

/-- The test for functions and the application of functions. The test accepts what an application
finds something to call for, and symbols that are defined as other symbols. An application that may
start comes to call an object if it finds one; otherwise it stops with an error about the function
itself, with nothing called and nothing changed but the heap, which holds the data of the error. A
request to quit that arrives when the application starts waits in both cases. -/
theorem functionp_against_application (machine : Machine) (value : Value) :
    functionp value machine.toStore =
      .ok (.ofBool (machine.isFunction value)) machine.toStore ∧
    (machine.isFunction value = true ↔
      (∃ callee, machine.Reaches value callee) ∨ machine.Forwards value) ∧
    (machine.admits = true → ∀ (arguments : List Value) (steps : Nat),
      (∀ callee, machine.Reaches value callee →
        ∃ action, machine.entry? (.bounded steps) callee arguments = some action ∧
          (Caller.bounded (steps + 1)).apply value arguments machine =
            nested (.bounded steps) action machine.receiveQuit) ∧
      ((¬ ∃ callee, machine.Reaches value callee) →
        ∃ symbol ∈ [Symbols.voidFunction, Symbols.invalidFunction, Symbols.circularList],
          ∃ data heap, heap.ListsFrom machine.heap.size data [value] ∧
            (Caller.bounded (steps + 1)).apply value arguments machine =
              .error (.signal (.error symbol data)) { machine.receiveQuit with heap := heap })) := by
  refine ⟨rfl, machine.isFunction_iff value, fun hadmits arguments steps ↦ ?_⟩
  let deeper : Machine := { machine.receiveQuit with evalDepth := machine.evalDepth + 1 }
  constructor
  · rintro callee ⟨hbehind, hcallable⟩
    rw [← machine.isSome_entry? (.bounded steps) callee arguments] at hcallable
    obtain ⟨action, hentry⟩ := Option.isSome_iff_exists.mp hcallable
    have hdeeper : deeper.entry? (.bounded steps) callee arguments = some action := hentry
    have hcall : call (.bounded steps) value arguments deeper = action deeper := by
      have hbehind : indirectFunction value deeper.toStore = .ok callee deeper.toStore := hbehind
      rw [call_of_behind hbehind, hdeeper]
    exact ⟨action, hentry,
      (bounded_apply hadmits steps value arguments).trans (nested_congr hcall)⟩
  · intro hreaches
    have hdeeper : ¬ ∃ callee, deeper.Reaches value callee := hreaches
    obtain ⟨symbol, hsymbol, hcall⟩ := call_of_not_reaches hdeeper
    have herror : (liftM (error symbol [value] : Storage Value) : Engine Value) deeper =
        .error (.signal (.error symbol (machine.heap.list [value]).1))
          { deeper with heap := (machine.heap.list [value]).2 } := rfl
    refine ⟨symbol, hsymbol, _, _, (machine.heap.list_fresh [value]).2, ?_⟩
    exact (bounded_apply hadmits steps value arguments).trans
      (nested_of_signal (hcall.trans herror) rfl)

/-- A symbol that is defined as a function by way of another symbol is called as this function, and
a number is refused. -/
theorem functionp_against_application_behind :
    let machine : Machine :=
      { heap := ((Heap.empty 1).allocate (.function 0 "")).2, settings := {}
        symbols := ⟨#[{ name := "nil" }, { name := "f", function := .symbol 2 },
          { name := "g", function := .object 0 }]⟩ }
    machine.admits = true ∧ machine.Reaches (.symbol 1) (.object 0) ∧
      (Caller.bounded 1).apply (.symbol 1) [] machine =
        nested (.bounded 0) (invoke (.bounded 0) 0 []) machine ∧
      (¬ ∃ callee, machine.Reaches (.fixnum 7) callee) ∧
      ∃ symbol data heap, (Caller.bounded 1).apply (.fixnum 7) [] machine =
        .error (.signal (.error symbol data)) { machine with heap := heap } := by
  intro machine
  have hadmits : machine.admits = true := by decide
  have hreaches : machine.Reaches (.symbol 1) (.object 0) := ⟨rfl, rfl⟩
  have hnever : ¬ ∃ callee, machine.Reaches (.fixnum 7) callee := by
    rintro ⟨callee, hbehind, hcallable⟩
    cases hbehind
    cases hcallable
  obtain ⟨-, -, happlied⟩ := functionp_against_application machine (.symbol 1)
  obtain ⟨action, hentry, hcalled⟩ := (happlied hadmits [] 0).1 _ hreaches
  obtain ⟨-, -, hrefused⟩ := functionp_against_application machine (.fixnum 7)
  obtain ⟨symbol, -, data, heap, -, hstops⟩ := (hrefused hadmits [] 0).2 hnever
  cases hentry
  exact ⟨hadmits, hreaches, hcalled, hnever, symbol, data, heap, hstops⟩

/-- A symbol that is defined as a void one passes the test, and cannot be called. -/
theorem functionp_of_void :
    let machine : Machine :=
      { heap := Heap.empty 1, settings := {}
        symbols := ⟨#[{ name := "nil" }, { name := "f", function := .symbol 2 },
          { name := "g" }]⟩ }
    functionp (.symbol 1) machine.toStore = .ok .t machine.toStore ∧
      (∃ data heap, indirectFunction (.symbol 1) machine.toStore =
        .error (.signal ⟨Symbols.voidFunction, data⟩) { machine.toStore with heap := heap }) ∧
      ∃ data heap, (Caller.bounded 1).apply (.symbol 1) [] machine =
        .error (.signal (.error Symbols.voidFunction data)) { machine with heap := heap } := by
  intro machine
  exact ⟨rfl, ⟨_, _, rfl⟩, _, _, rfl⟩

end LispMachine
