import LispMachine.Store

/-!
Conditions: what an error counts as. An error symbol lists its conditions, itself first, in its
property `error-conditions`; a handler that names any of them covers the error. An error symbol
without that property is its own only condition.
-/

set_option autoImplicit false

namespace LispMachine

/-- Whether a condition that a handler names is among those of an error. The symbol t stands for
every error. -/
def namesCondition (conditions : List Value) (named : Value) : Bool :=
  named == .t || conditions.contains named

namespace Storage

/-- The conditions of the error that a symbol names. -/
def errorConditions (symbol : Value) : Storage (List Value) := do
  match symbol with
  | .symbol index =>
    match (← symbols).property? index Symbols.errorConditions with
    | some conditions => leadingElements conditions
    | none => return [symbol]
  | _ => return []

/-- Whether what a handler names, one condition or a list of them, covers an error with the given
conditions. -/
def coversConditions (conditions : List Value) (named : Value) : Storage Bool := do
  match named with
  | .symbol _ => return !named.isNil && namesCondition conditions named
  | _ => return (← leadingElements named).any (namesCondition conditions)

/-- The conditions with those of further parents added, each once. -/
def inheritConditions (conditions : List Value) : List Value → Storage (List Value)
  | [] => return conditions
  | parent :: parents => do
    let inherited ←
      match parent with
      | .symbol index =>
        match (← symbols).property? index Symbols.errorConditions with
        | some list => leadingElements list
        | none => pure [parent]
      | _ => pure [parent]
    let conditions := inherited.foldl
      (fun all condition => if all.contains condition then all else all ++ [condition])
      conditions
    inheritConditions conditions parents

/-- Make a symbol name an error with a message, which also counts as the errors of its parents. -/
def defineError (symbol : Nat) (message : String) (parents : List Value) : Storage Unit := do
  let conditions ← inheritConditions [.symbol symbol] parents
  let conditions ← list conditions
  let message ← makeString message
  modifySymbols fun table =>
    (table.putProperty symbol Symbols.errorConditions conditions).putProperty symbol
      Symbols.errorMessage message

/-- The errors that every machine knows besides `error` and `quit`; each is a kind of `error`. -/
def standardErrors : List (Value × String) :=
  [(Symbols.wrongTypeArgument, "Wrong type argument"),
    (Symbols.argsOutOfRange, "Args out of range"),
    (Symbols.voidVariable, "Symbol's value as variable is void"),
    (Symbols.voidFunction, "Symbol's function definition is void"),
    (Symbols.invalidFunction, "Invalid function"),
    (Symbols.wrongNumberOfArguments, "Wrong number of arguments"),
    (Symbols.settingConstant, "Attempt to set a constant symbol"),
    (Symbols.noCatch, "No catch for tag"),
    (Symbols.arithError, "Arithmetic error"),
    (Symbols.excessiveLispNesting, "Lisp nesting exceeds `max-lisp-eval-depth'"),
    (Symbols.beginningOfBuffer, "Beginning of buffer"),
    (Symbols.endOfBuffer, "End of buffer"),
    (Symbols.circularList, "List contains a loop")]

/-- Define one of the errors that a symbol value names. -/
def defineErrorAt (symbol : Value) (message : String) (parents : List Value) : Storage Unit := do
  if let .symbol index := symbol then defineError index message parents

/-- Define the errors that every machine knows. -/
def defineStandardErrors : Storage Unit := do
  defineErrorAt Symbols.errorSymbol "error" []
  defineErrorAt Symbols.quit "Quit" []
  standardErrors.forM fun (symbol, message) =>
    defineErrorAt symbol message [Symbols.errorSymbol]

end Storage

end LispMachine
