import LispMachine.Store

/-!
What can be called. A symbol stands for its function definition, which may be a symbol again; what
is called in the end is a function or a primitive.
-/

set_option autoImplicit false

namespace LispMachine

namespace Store

/-- Whether a value refers to a function or a primitive. -/
def isCallable (store : Store) (value : Value) : Bool :=
  match store.heap.get? value with
  | some (.function _ _) | some (.primitive _ _) => true
  | _ => false

/-- Whether a value counts as a function: it is callable, or a symbol whose definition is callable
or another symbol. -/
def isFunction (store : Store) (value : Value) : Bool :=
  match value with
  | .symbol index =>
    if value.isNil then false
    else
      let definition := (store.symbols.get index).function
      if definition.isSymbol then !definition.isNil else store.isCallable definition
  | _ => store.isCallable value

end Store

/-- How many symbols are followed from a symbol to its function. -/
def maxFunctionChain : Nat := 100

namespace Storage

/-- Follow at most `limit` function definitions from `current`, on behalf of `function`. -/
def functionBehind (function : Value) : Nat → Value → Storage Value
  | 0, _ => error Symbols.circularList [function]
  | limit + 1, current => do
    match current with
    | .symbol index =>
      if current.isNil then error Symbols.voidFunction [function]
      else functionBehind function limit ((← symbols).get index).function
    | _ => return current

/-- What a function is in the end, after following symbols to their definitions. -/
def indirectFunction (function : Value) : Storage Value :=
  functionBehind function maxFunctionChain function

end Storage

end LispMachine
