import LispMachine.Symbol.Builtin

/-!
The symbol table. A symbol has a value cell, a function cell and a list of properties. A value
cell holds a value, or nothing (the variable is void), or redirects to another symbol (the symbol
is an alias). Reading and writing a variable first follows the redirections; a chain of
`maxAliasChain` of them or more counts as a cycle.
-/

set_option autoImplicit false

namespace LispMachine

/-- Where the value of a symbol is kept. -/
inductive ValueCell where
  /-- The value itself, `none` while the variable is void. -/
  | plain (value : Option Value)
  /-- In the cell of another symbol. -/
  | aliasOf (target : Nat)
  deriving DecidableEq

/-- A symbol with all that is stored at it. -/
structure Symbol where
  name : String
  cell : ValueCell := .plain none
  /-- The function definition, nil while there is none. -/
  function : Value := .nil
  /-- Whether the value may not be changed. -/
  constant : Bool := false
  properties : List (Value × Value) := []

instance : Inhabited Symbol := ⟨{ name := "" }⟩

/-- The symbols by index. -/
structure SymbolTable where
  symbols : Array Symbol

namespace SymbolTable

def maxAliasChain : Nat := 100

def size (table : SymbolTable) : Nat := table.symbols.size

/-- The symbol at an index. -/
def get (table : SymbolTable) (index : Nat) : Symbol := table.symbols.getD index default

/-- Change the symbol at an index. -/
def update (table : SymbolTable) (index : Nat) (change : Symbol → Symbol) : SymbolTable :=
  ⟨table.symbols.modify index change⟩

/-- The index of the symbol with a name. -/
def lookup? (table : SymbolTable) (name : String) : Option Nat :=
  table.symbols.findIdx? fun symbol => symbol.name == name

/-- Whether symbols with this name are their own constant value. -/
def isKeyword (name : String) : Bool :=
  match name.toList with
  | ':' :: _ :: _ => true
  | _ => false

/-- The index of the symbol with a name, which is added if it is missing. -/
def intern (table : SymbolTable) (name : String) : Nat × SymbolTable :=
  match table.lookup? name with
  | some index => (index, table)
  | none =>
    let index := table.size
    let symbol : Symbol :=
      if isKeyword name then
        { name := name, cell := .plain (some (.symbol index)), constant := true }
      else { name := name }
    (index, ⟨table.symbols.push symbol⟩)

/-- Follow fewer than `limit` redirections. -/
def resolveWithin (table : SymbolTable) : Nat → Nat → Option Nat
  | 0, _ => none
  | limit + 1, index =>
    match (table.get index).cell with
    | .plain _ => some index
    | .aliasOf target => resolveWithin table limit target

/-- The symbol whose cell holds the value of a variable, `none` on a cycle of aliases. -/
def resolve? (table : SymbolTable) (index : Nat) : Option Nat :=
  table.resolveWithin maxAliasChain index

/-- The value in the symbol's own cell, `none` for a void variable and for an alias. -/
def plainValue? (table : SymbolTable) (index : Nat) : Option Value :=
  match (table.get index).cell with
  | .plain value => value
  | .aliasOf _ => none

/-- Put a value, or voidness, into the symbol's own cell. -/
def setCell (table : SymbolTable) (index : Nat) (cell : ValueCell) : SymbolTable :=
  table.update index fun symbol => { symbol with cell := cell }

def setConstant (table : SymbolTable) (index : Nat) (constant : Bool) : SymbolTable :=
  table.update index fun symbol => { symbol with constant := constant }

def setFunction (table : SymbolTable) (index : Nat) (function : Value) : SymbolTable :=
  table.update index fun symbol => { symbol with function := function }

/-- The value of a property. -/
def property? (table : SymbolTable) (index : Nat) (property : Value) : Option Value :=
  (table.get index).properties.lookup property

/-- Replace the value of a property in place, or add the property at the end. -/
def putIn (property value : Value) : List (Value × Value) → List (Value × Value)
  | [] => [(property, value)]
  | (name, old) :: rest =>
    if name = property then (name, value) :: rest
    else (name, old) :: putIn property value rest

def putProperty (table : SymbolTable) (index : Nat) (property value : Value) : SymbolTable :=
  table.update index fun symbol =>
    { symbol with properties := putIn property value symbol.properties }

/-- The table with the builtin symbols, where nil and t are constants that stand for
themselves. -/
def initial : SymbolTable :=
  let table := builtinNames.foldl (fun table name => (table.intern name).2) ⟨#[]⟩
  [0, 1].foldl
    (fun table index =>
      (table.setCell index (.plain (some (.symbol index)))).setConstant index true)
    table

end SymbolTable

end LispMachine
