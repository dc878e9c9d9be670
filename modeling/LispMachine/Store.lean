import LispMachine.Buffer
import LispMachine.Heap.Basic
import LispMachine.Signal
import LispMachine.Symbol.Table

/-!
Actions, and the store that most of them are about. An `Action` changes a state and gives a value,
or stops: with a signal, which handlers may catch, or because something that runs are bounded by is
used up, which nothing catches. Both ways of stopping keep the state as it then is.

A `Store` is what programs compute with: the heap, the symbols, the buffers. A `Storage` action
touches nothing else, so it can neither apply a function nor see what is being run. The only signals
that it can stop with are errors: throws and faults come from the run itself.

The second half of the module holds the actions that everything else is made of: allocation, the
standard errors, and reading lists.
-/

set_option autoImplicit false

namespace LispMachine

/-- What runs are bounded by. -/
inductive Resource where
  /-- The length of the run. A run that would never end uses it up. -/
  | rounds
  /-- The sizes that can be counted, and the slots that an array can have. -/
  | sizes
  deriving DecidableEq

/-- Why an action stopped, for signals of the given type. -/
inductive Stop (Reason : Type) where
  | signal (reason : Reason)
  | exhausted (resource : Resource)
  deriving DecidableEq

/-- An action on a state, with the type of the signals that it can stop with. -/
abbrev Action (Reason State : Type) := EStateM (Stop Reason) State

namespace Action

variable {Reason State α : Type}

/-- Stop with a signal. -/
def signal (reason : Reason) : Action Reason State α := throw (.signal reason)

/-- Stop with a fault. -/
def fault (fault : Fault) : Action Signal State α := signal (.fatal fault)

/-- Stop because the run is too long. -/
def exhausted : Action Reason State α := throw (.exhausted .rounds)

/-- Stop because something is too great to be counted or stored. -/
def oversized : Action Reason State α := throw (.exhausted .sizes)

/-- What has been counted, if it could be. -/
def sized : Option α → Action Reason State α
  | some count => pure count
  | none => oversized

/-- The result of a computation that can fault. -/
def ofFaulty : Except Fault α → Action Signal State α
  | .ok result => pure result
  | .error reason => fault reason

/-- Run an action and give the signal that it stops with as a result. Running out of something is no
signal and goes on. -/
def attempt (action : Action Reason State α) : Action Reason State (Except Reason α) := fun state =>
  match action state with
  | .ok result state => .ok (.ok result) state
  | .error (.signal reason) state => .ok (.error reason) state
  | .error (.exhausted resource) state => .error (.exhausted resource) state

/-- Go on with an attempted action: give its result or stop with its signal. -/
def resume : Except Reason α → Action Reason State α
  | .ok result => pure result
  | .error reason => signal reason

end Action

/-- What programs compute with. -/
structure Store where
  heap : Heap
  symbols : SymbolTable := SymbolTable.initial
  buffers : BufferStore := {}
  /-- The bounds of the last match and its groups, in pairs; `none` for a group without match. -/
  matchData : List (Option Nat) := []
  /-- What was printed, other than into buffers. -/
  output : String := ""

/-- An error: the symbol that names it and its data. -/
structure StoreError where
  symbol : Value
  data : Value

/-- An action that touches the store alone and stops with no signal but an error. -/
abbrev Storage := Action StoreError Store

namespace Storage

open LispMachine.Action

/-! ### Parts of the store -/

/-- Change the heap and give a result. -/
@[inline] def withHeap {α : Type} (change : Heap → α × Heap) : Storage α :=
  modifyGet fun store =>
    match store with
    | ⟨heap, symbols, buffers, matchData, output⟩ =>
      let (result, heap) := change heap
      (result, ⟨heap, symbols, buffers, matchData, output⟩)

/-- Change the heap. -/
@[inline] def modifyHeap (change : Heap → Heap) : Storage Unit :=
  withHeap fun heap => ((), change heap)

/-- Change the symbol table and give a result. -/
@[inline] def withSymbols {α : Type} (change : SymbolTable → α × SymbolTable) : Storage α :=
  modifyGet fun store =>
    match store with
    | ⟨heap, symbols, buffers, matchData, output⟩ =>
      let (result, symbols) := change symbols
      (result, ⟨heap, symbols, buffers, matchData, output⟩)

/-- Change the symbol table. -/
@[inline] def modifySymbols (change : SymbolTable → SymbolTable) : Storage Unit :=
  withSymbols fun symbols => ((), change symbols)

/-- Change the buffers. -/
@[inline] def modifyBuffers (change : BufferStore → BufferStore) : Storage Unit :=
  modify fun store =>
    match store with
    | ⟨heap, symbols, buffers, matchData, output⟩ =>
      ⟨heap, symbols, change buffers, matchData, output⟩

/-- The store as it is now. -/
@[inline] def store : Storage Store := get

/-- The heap as it is now. -/
@[inline] def heap : Storage Heap := do return (← get).heap

/-- The symbol table as it is now. -/
@[inline] def symbols : Storage SymbolTable := do return (← get).symbols

/-- The current buffer as it is now. -/
@[inline] def currentBuffer : Storage Buffer := do return (← get).buffers.current

/-- The object that a value refers to. -/
@[inline] def object? (value : Value) : Storage (Option Object) := do
  return (← get).heap.get? value

/-- Add to what was printed. -/
def writeOutput (text : String) : Storage Unit :=
  modify fun store => { store with output := store.output ++ text }

/-! ### Allocation -/

/-- Add an object to the heap. -/
def allocate (object : Object) : Storage Value := withHeap fun heap => heap.allocate object

def cons (car cdr : Value) : Storage Value := allocate (.cons car cdr)

/-- A fresh list. -/
def list (items : List Value) : Storage Value := withHeap fun heap => heap.list items

def makeString (text : String) : Storage Value := allocate (.string text)

def makeFloat (x : Double) : Storage Value := allocate (.float x)

def makeVector (items : Array Value) : Storage Value := allocate (.vector items)

/-- The symbol with a name. -/
def intern (name : String) : Storage Value :=
  withSymbols fun symbols =>
    let (index, symbols) := symbols.intern name
    (.symbol index, symbols)

/-! ### Errors -/

/-- Stop with an error whose data is a fresh list. -/
def error {α : Type} (symbol : Value) (data : List Value) : Storage α := do
  let data ← list data
  signal ⟨symbol, data⟩

/-- The error for a value that does not satisfy a predicate. -/
def wrongType {α : Type} (predicate value : Value) : Storage α :=
  error Symbols.wrongTypeArgument [predicate, value]

def argsOutOfRange {α : Type} (a b : Value) : Storage α :=
  error Symbols.argsOutOfRange [a, b]

/-- The error with a message. -/
def errorMessage {α : Type} (text : String) : Storage α := do
  let message ← makeString text
  error Symbols.errorSymbol [message]

/-! ### Lists -/

/-- The first part of a cons; nil of nil. -/
def car (value : Value) : Storage Value := do
  match (← get).heap.cons? value with
  | some (car, _) => return car
  | none => if value.isNil then return .nil else wrongType Symbols.listp value

/-- The second part of a cons; nil of nil. -/
def cdr (value : Value) : Storage Value := do
  match (← get).heap.cons? value with
  | some (_, cdr) => return cdr
  | none => if value.isNil then return .nil else wrongType Symbols.listp value

/-- The items of a proper list. A circular list has no last item, and reading it never ends. -/
def elements (value : Value) : Storage (List Value) := do
  match (← get).heap.chain value with
  | (items, .proper) => return items
  | (_, .improper) => wrongType Symbols.listp value
  | (_, .endless) => exhausted

/-- The items of a list up to the first tail that is no cons. -/
def leadingElements (value : Value) : Storage (List Value) := do
  match (← get).heap.chain value with
  | (_, .endless) => exhausted
  | (items, _) => return items

end Storage

end LispMachine
