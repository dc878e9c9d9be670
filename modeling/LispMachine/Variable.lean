import LispMachine.Machine

/-!
Variables: reading, setting and dynamically binding the value of a symbol. All three go to the
symbol that the aliases lead to. Code reads and sets most variables in the symbol's own cell
(`variableValue`, `assign`), and only aliases, void variables and constants take the general way
(`symbolValue`, `setVariable`).
-/

set_option autoImplicit false

namespace LispMachine

namespace SymbolTable

/-- The value that a symbol's variable has after following aliases. -/
def value? (table : SymbolTable) (index : Nat) : Option Value :=
  (table.resolve? index).bind table.plainValue?

/-- The table with a value in the symbol's own cell, unless the symbol is constant or an alias. -/
def assignPlain? (table : SymbolTable) (index : Nat) (value : Value) : Option SymbolTable :=
  match table.get index with
  | { constant := false, cell := .plain _, .. } =>
    some (table.setCell index (.plain (some value)))
  | _ => none

end SymbolTable

namespace Storage

/-- The symbol whose cell holds a variable's value, or the error for what is no variable. -/
def resolveVariable (symbol : Value) : Storage Nat := do
  match symbol with
  | .symbol index =>
    match (← symbols).resolve? index with
    | some target => return target
    | none => error Symbols.circularList [symbol]
  | _ => wrongType Symbols.symbolp symbol

/-- The value of a variable, found through its aliases. -/
def symbolValue (symbol : Value) : Storage Value := do
  let target ← resolveVariable symbol
  match (← symbols).plainValue? target with
  | some value => return value
  | none => error Symbols.voidVariable [symbol]

/-- The symbol that a variable's value may be stored at, which must not be a constant. -/
def resolveAssignable (symbol : Value) : Storage Nat := do
  let target ← resolveVariable symbol
  if ((← symbols).get target).constant then error Symbols.settingConstant [symbol]
  return target

/-- Store the value of a variable, found through its aliases. -/
def setVariable (symbol value : Value) : Storage Value := do
  let target ← resolveAssignable symbol
  modifySymbols fun table => table.setCell target (.plain (some value))
  return value

/-- The value of a variable, from the symbol's own cell if it is there. -/
def variableValue (symbol : Value) : Storage Value := do
  match symbol with
  | .symbol index =>
    match (← symbols).plainValue? index with
    | some value => return value
    | none => symbolValue symbol
  | _ => symbolValue symbol

/-- Store the value of a variable, in the symbol's own cell if that is its place. -/
def assign (symbol value : Value) : Storage Unit := do
  let assigned ← withSymbols fun table =>
    match symbol with
    | .symbol index =>
      match table.assignPlain? index value with
      | some table => (true, table)
      | none => (false, table)
    | _ => (false, table)
  if assigned then return ()
  let _ ← setVariable symbol value

end Storage

namespace Engine

open Storage

/-- Add an entry to the binding log. -/
def logBinding (entry : BindingEntry) : Engine Unit :=
  modify fun machine => { machine with bindings := entry :: machine.bindings }

/-- Bind a variable dynamically: its present value, or voidness, goes to the binding log. -/
def bindVariable (symbol value : Value) : Engine Unit := do
  let target ← resolveAssignable symbol
  logBinding (.binding target ((← symbols).plainValue? target))
  modifySymbols fun table => table.setCell target (.plain (some value))

/-- The mark of the binding log as it is now. -/
def bindingMark : Engine BindingMark := do return (← get).bindings.length

end Engine

end LispMachine
