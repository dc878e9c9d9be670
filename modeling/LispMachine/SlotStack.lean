import LispMachine.Fault
import LispMachine.Size
import LispMachine.Store

/-!
The slots of an operand stack. The values of a stack lie in an array, from slot 1 up to the slot
where a cursor stands; slot 0 is never written. What lies above the cursor is what was last stored
there.

The operations are actions on the array and the cursor, so each also has a state when it fails. They
count in sizes: a sum that is no size, a difference below zero and an index outside of the array
stop an operation for good.
-/

set_option autoImplicit false

namespace LispMachine

/-- An array of slots and the number of values in it. -/
structure SlotStack where
  slots : Array Value
  cursor : Size

/-- An action on slots. -/
abbrev SlotAction := Action Fault SlotStack

namespace SlotStack

open LispMachine.Action

/-- A stack able to hold `limit` values, unless an array cannot have the slots for them. -/
def make? (limit : Size) : Option SlotStack := do
  let count ← limit.add? 1
  if count.toNat ≤ Size.maxValues then some ⟨Array.replicate count.toNat .nil, 0⟩ else none

/-- How many values there is room for. -/
def maxDepth (stack : SlotStack) : Size := .ofNat (stack.slots.size - 1)

/-- The values from the bottom up. -/
def values (stack : SlotStack) : List Value :=
  (stack.slots.extract 1 (stack.cursor.toNat + 1)).toList

/-! ### Slots -/

/-- What a slot holds. -/
def read (index : Size) : SlotAction Value := do sized (← get).slots[index.toNat]?

/-- Store a value in a slot. -/
def write (index : Size) (value : Value) : SlotAction Unit := do
  let stack ← get
  if index.toNat < stack.slots.size then
    set { stack with slots := stack.slots.setIfInBounds index.toNat value }
  else oversized

/-- The number of the slot `n` below the cursor. -/
def below (n : Size) : SlotAction Size := do sized ((← get).cursor.subtract? n)

/-- Put the cursor at a slot. -/
def moveTo (cursor : Size) : SlotAction Unit :=
  modify fun stack => { stack with cursor := cursor }

/-! ### Operations -/

/-- Fails unless the stack holds `needed` values. -/
def require (needed : Size) : SlotAction Unit := do
  let stack ← get
  if stack.cursor < needed then signal (.stackUnderflow stack.cursor.toNat needed.toNat)
  else return ()

/-- Fails unless there is a value `n` slots below the top. -/
def requireSlot (n : Size) : SlotAction Unit := do require (← sized (n.add? 1))

def push (value : Value) : SlotAction Unit := do
  let stack ← get
  if stack.maxDepth ≤ stack.cursor then signal (.stackOverflow stack.maxDepth.toNat)
  else
    let cursor ← sized (stack.cursor.add? 1)
    moveTo cursor
    write cursor value

/-- The value `n` slots below the top. -/
def peek (n : Size) : SlotAction Value := do
  requireSlot n
  read (← below n)

def top : SlotAction Value := peek 0

def pop : SlotAction Value := do
  let value ← top
  moveTo (← below 1)
  return value

/-- Overwrite the slot `n` below the top. -/
def store (n : Size) (value : Value) : SlotAction Unit := do
  requireSlot n
  write (← below n) value

def storeTop (value : Value) : SlotAction Unit := store 0 value

def discard (n : Size) : SlotAction Unit := do
  require n
  moveTo (← below n)

/-- Pop `n` values and give them in the order in which they were pushed. -/
def popSlice (n : Size) : SlotAction (List Value) := do
  require n
  moveTo (← below n)
  let stack ← get
  let first ← sized (stack.cursor.add? 1)
  let last ← sized (first.add? n)
  if last.toNat ≤ stack.slots.size then
    return (stack.slots.extract first.toNat last.toNat).toList
  else oversized

/-- Put the cursor at `depth`, up or down, keeping the contents of all slots. -/
def resetTo (depth : Size) : SlotAction Unit := do
  let stack ← get
  if stack.maxDepth < depth then signal (.stackOverflow stack.maxDepth.toNat)
  else moveTo depth

end SlotStack

/-! ### Commands -/

/-- An operation of an operand stack with what it is given. -/
inductive StackCommand where
  | push (value : Value)
  | pop
  | top
  | peek (n : Size)
  | set (n : Size) (value : Value)
  | setTop (value : Value)
  | discard (n : Size)
  | popSlice (n : Size)
  | resetTo (depth : Size)

/-- What an operation gives. -/
inductive StackAnswer where
  | done
  | value (value : Value)
  | values (values : List Value)

/-- Do what a command says. -/
def SlotStack.obey : StackCommand → SlotAction StackAnswer
  | .push value => do
    push value
    return .done
  | .pop => return .value (← pop)
  | .top => return .value (← top)
  | .peek n => return .value (← peek n)
  | .set n value => do
    store n value
    return .done
  | .setTop value => do
    storeTop value
    return .done
  | .discard n => do
    discard n
    return .done
  | .popSlice n => return .values (← popSlice n)
  | .resetTo depth => do
    resetTo depth
    return .done

end LispMachine
