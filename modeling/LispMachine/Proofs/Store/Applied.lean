import LispMachine.Condition
import LispMachine.Proofs.Store.Cells

/-!
Actions on a store. An action that is put together from two does the second where the first has come
to; with that, the actions that read a variable, the conditions of an error or a list are written as
what they give on a store.
-/

set_option autoImplicit false

namespace LispMachine

/-! ### One action after the other -/

namespace Action

variable {Reason State α β : Type} {first : Action Reason State α}
  {next : α → Action Reason State β} {start between : State}

/-- An action that is put together from two and gives a result has gone through both. -/
theorem bind_eq_ok {after : State} {result : β} (hrun : (first >>= next) start = .ok result after) :
    ∃ middle between, first start = .ok middle between ∧
      next middle between = .ok result after := by
  change EStateM.bind first next start = _ at hrun
  unfold EStateM.bind at hrun
  cases hfirst : first start with
  | ok middle between =>
    rw [hfirst] at hrun
    exact ⟨middle, between, rfl, hrun⟩
  | error stop between =>
    rw [hfirst] at hrun
    cases hrun

/-- An action that is put together from two, of which the first gives a result. -/
theorem bind_of_ok {middle : α} (hfirst : first start = .ok middle between) :
    (first >>= next) start = next middle between := by
  change EStateM.bind first next start = _
  unfold EStateM.bind
  rw [hfirst]

/-- An action that is put together from two, of which the first stops. -/
theorem bind_of_error {stop : Stop Reason} (hfirst : first start = .error stop between) :
    (first >>= next) start = .error stop between := by
  change EStateM.bind first next start = _
  unfold EStateM.bind
  rw [hfirst]

/-- An action that starts with reading the state. -/
theorem read_bind (next : State → Action Reason State β) (start : State) :
    ((get : Action Reason State State) >>= next) start = next start start :=
  rfl

end Action

open LispMachine.Action

namespace Storage

/-! ### Reading -/

theorem leadingElements_apply (value : Value) (store : Store) :
    leadingElements value store =
      (match store.heap.chain value with
        | (_, .endless) => exhausted
        | (items, _) => Pure.pure items : Storage (List Value)) store :=
  rfl

theorem resolveVariable_apply (index : Nat) (store : Store) :
    resolveVariable (.symbol index) store =
      (match store.symbols.resolve? index with
        | some target => Pure.pure target
        | none => error Symbols.circularList [.symbol index] : Storage Nat) store :=
  rfl

theorem resolveAssignable_apply (index : Nat) (store : Store) :
    resolveAssignable (.symbol index) store =
      match store.symbols.resolve? index with
      | none => error Symbols.circularList [.symbol index] store
      | some target =>
        if (store.symbols.get target).constant = true then
          error Symbols.settingConstant [.symbol index] store
        else .ok target store := by
  have hresolve := resolveVariable_apply index store
  cases htarget : store.symbols.resolve? index with
  | none =>
    rw [htarget] at hresolve
    exact bind_of_error hresolve
  | some target =>
    rw [htarget] at hresolve
    have hchecked : resolveAssignable (.symbol index) store =
        (if (store.symbols.get target).constant then do
          let _ ← (error Symbols.settingConstant [.symbol index] : Storage Unit)
          return target
        else return target : Storage Nat) store :=
      bind_of_ok hresolve
    rw [hchecked]
    dsimp only
    split_ifs <;> rfl

theorem symbolValue_apply (index : Nat) (store : Store) :
    symbolValue (.symbol index) store =
      match store.symbols.resolve? index with
      | none => error Symbols.circularList [.symbol index] store
      | some target =>
        match store.symbols.plainValue? target with
        | some value => .ok value store
        | none => error Symbols.voidVariable [.symbol index] store := by
  have hresolve := resolveVariable_apply index store
  cases htarget : store.symbols.resolve? index with
  | none =>
    rw [htarget] at hresolve
    exact bind_of_error hresolve
  | some target =>
    rw [htarget] at hresolve
    have hread : symbolValue (.symbol index) store =
        (match store.symbols.plainValue? target with
          | some value => Pure.pure value
          | none => error Symbols.voidVariable [.symbol index] : Storage Value) store :=
      bind_of_ok hresolve
    rw [hread]
    dsimp only
    cases store.symbols.plainValue? target with
    | none | some => rfl

theorem variableValue_apply (index : Nat) (store : Store) :
    variableValue (.symbol index) store =
      (match store.symbols.plainValue? index with
        | some value => Pure.pure value
        | none => symbolValue (.symbol index) : Storage Value) store :=
  rfl

theorem errorConditions_apply (index : Nat) (store : Store) :
    errorConditions (.symbol index) store =
      (match store.symbols.property? index Symbols.errorConditions with
        | some conditions => leadingElements conditions
        | none => Pure.pure [.symbol index] : Storage (List Value)) store :=
  rfl

/-! ### Assigning -/

theorem withSymbols_eq_ok {α : Type} {change : SymbolTable → α × SymbolTable} {store : Store}
    (result : α) (table : SymbolTable) (hchange : change store.symbols = (result, table)) :
    withSymbols change store = .ok result { store with symbols := table } := by
  change EStateM.Result.ok (change store.symbols).1
    { store with symbols := (change store.symbols).2 } = _
  rw [hchange]

/-- A value is stored in the symbol's own cell if that is its place. -/
theorem assign_of_assignPlain? {index : Nat} {value : Value} {store : Store} {table : SymbolTable}
    (hassigned : store.symbols.assignPlain? index value = some table) :
    assign (.symbol index) value store = .ok () { store with symbols := table } := by
  unfold assign
  refine Eq.trans (bind_of_ok (withSymbols_eq_ok true table ?_)) rfl
  dsimp only
  rw [hassigned]

/-- What is not stored in the symbol's own cell is set. -/
theorem assign_plain_or_set (symbol value : Value) (store : Store) :
    (∃ index table, symbol = .symbol index ∧
      store.symbols.assignPlain? index value = some table ∧
      assign symbol value store = .ok () { store with symbols := table }) ∨
    assign symbol value store = (do let _ ← setVariable symbol value : Storage Unit) store := by
  cases symbol with
  | fixnum | object => exact .inr rfl
  | symbol index =>
    cases hassigned : store.symbols.assignPlain? index value with
    | some table =>
      exact .inl ⟨index, table, rfl, hassigned, assign_of_assignPlain? hassigned⟩
    | none =>
      refine .inr ?_
      unfold assign
      refine Eq.trans (bind_of_ok (withSymbols_eq_ok false store.symbols ?_)) rfl
      dsimp only
      rw [hassigned]

end Storage

end LispMachine
