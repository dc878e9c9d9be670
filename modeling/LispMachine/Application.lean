import LispMachine.Primitive.Catalogue

/-!
Applying functions. Here the circle closes: applying a function may run code, which may apply
functions. Each nested application has one step less than the one around it, so an application
with a bound on its steps either ends or uses the bound up. The machine has a limit of its own on
how deep applications may be nested, which is an error that programs can catch.
-/

set_option autoImplicit false

namespace LispMachine

namespace Engine

open LispMachine.Action Storage

/-- Call a primitive after checking the number of arguments. -/
def callPrimitive (caller : Caller) (callee : Value) (index : Nat) (arguments : List Value) :
    Engine Value := do
  match Primitive.catalogue[index]? with
  | none => error Symbols.invalidFunction [callee]
  | some primitive =>
    if primitive.accepts arguments.length then primitive.action.run caller arguments
    else error Symbols.wrongNumberOfArguments [callee, .ofNat arguments.length]

/-- Find out what a function is and call that. -/
def call (caller : Caller) (function : Value) (arguments : List Value) : Engine Value := do
  let callee ← indirectFunction function
  match ← object? callee with
  | some (.primitive index _) => callPrimitive caller callee index arguments
  | some (.function id _) => invoke caller id arguments
  | _ => error Symbols.invalidFunction [function]

/-- Run an action one level deeper. -/
def nested {α : Type} (caller : Caller) (action : Engine α) : Engine α := do
  modify fun machine => { machine with evalDepth := machine.evalDepth + 1 }
  let result ← caller.attempt action
  modify fun machine => { machine with evalDepth := machine.evalDepth - 1 }
  resume result

/-- Apply a function unless applications are nested too deep. -/
def applyFunction (caller : Caller) (function : Value) (arguments : List Value) :
    Engine Value := do
  let machine ← get
  if machine.settings.maxEvalDepth ≤ machine.evalDepth then
    error Symbols.excessiveLispNesting [.ofNat machine.evalDepth]
  else
    checkpoint false
    nested caller do
      caller.observe (.applying function arguments)
      call caller function arguments

/-- Apply a function in at most so many steps, each a nested application or a round of a loop, as
long as the watch permits what happens. -/
def watchedFuncall (watch : Event → Machine → Bool) : Nat → Value → List Value → Engine Value
  | 0, _, _ => exhausted
  | steps + 1, function, arguments =>
    applyFunction ⟨watchedFuncall watch steps, steps, watch⟩ function arguments

end Engine

/-- The caller whose runs take at most so many steps and are watched. -/
def Caller.watched (watch : Event → Machine → Bool) (steps : Nat) : Caller :=
  ⟨Engine.watchedFuncall watch steps, steps, watch⟩

/-- The caller whose runs take at most so many steps. -/
def Caller.bounded (steps : Nat) : Caller := .watched (fun _ _ => true) steps

/-- How many steps a run may take. No run that ends comes near this bound. -/
def stepBound : Nat := 0x4000000000000000

/-- The way in which programs apply functions. -/
def Caller.standard : Caller := .bounded stepBound

end LispMachine
