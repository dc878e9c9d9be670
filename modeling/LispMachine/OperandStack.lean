import LispMachine.Fault
import LispMachine.Value

/-!
The operand stack of one invocation. The values on the stack are `live`, top first; `spent`
keeps what popped slots still hold, nearest to the top first, because a handler may restore a
greater depth and then finds in those slots what was last stored there (nil in slots that were
never written). `SlotStack` has the slots themselves.

The slots can be used as they are, which checks nothing: that is for code that has made sure of
the depth. The operations of the stack itself check. Each either succeeds or raises the fault that
names the depth and the need, and then the stack is as it was.
-/

set_option autoImplicit false

namespace LispMachine

/-- A stack of at most `limit` values over slots that keep their contents. -/
structure OperandStack where
  limit : Nat
  live : List Value
  spent : List Value

namespace OperandStack

/-- An empty stack that can hold `limit` values. -/
def empty (limit : Nat) : OperandStack := ⟨limit, [], []⟩

def depth (stack : OperandStack) : Nat := stack.live.length

/-- The values from the bottom up. -/
def values (stack : OperandStack) : List Value := stack.live.reverse

/-! ### Slots -/

/-- What the slot `n` below the top holds. -/
def slot (stack : OperandStack) (n : Nat) : Value := stack.live.getD n .nil

/-- The values in the `n` slots at the top, in the order in which they were pushed. -/
def slots (stack : OperandStack) (n : Nat) : List Value := (stack.live.take n).reverse

/-- The stack with one more slot, which holds a value. -/
def extend (stack : OperandStack) (value : Value) : OperandStack :=
  { stack with live := value :: stack.live, spent := stack.spent.tail }

/-- The stack with a value in the slot `n` below the top. -/
def overwrite (stack : OperandStack) (n : Nat) (value : Value) : OperandStack :=
  { stack with live := stack.live.set n value }

/-- The stack without its top `n` values, whose slots keep them. -/
def lower (stack : OperandStack) (n : Nat) : OperandStack :=
  { stack with
    live := stack.live.drop n
    spent := (stack.live.take n).reverse ++ stack.spent }

/-- The stack with `n` more slots, which hold what was last stored in them. -/
def raise (stack : OperandStack) : Nat → OperandStack
  | 0 => stack
  | n + 1 =>
    raise { stack with
      live := stack.spent.headD .nil :: stack.live
      spent := stack.spent.tail } n

/-- The stack with its top at `depth`, up or down, and the contents of all slots kept. -/
def atDepth (stack : OperandStack) (depth : Nat) : OperandStack :=
  if depth ≤ stack.depth then stack.lower (stack.depth - depth)
  else stack.raise (depth - stack.depth)

/-! ### Operations -/

/-- Fails unless the stack holds `needed` values. -/
def require (stack : OperandStack) (needed : Nat) : Except Fault Unit :=
  if stack.depth < needed then .error (.stackUnderflow stack.depth needed) else .ok ()

def push (stack : OperandStack) (value : Value) : Except Fault OperandStack :=
  if stack.limit ≤ stack.depth then .error (.stackOverflow stack.limit)
  else .ok (stack.extend value)

/-- The value `n` slots below the top. -/
def peek (stack : OperandStack) (n : Nat) : Except Fault Value :=
  match stack.live[n]? with
  | some value => .ok value
  | none => .error (.stackUnderflow stack.depth (n + 1))

def top (stack : OperandStack) : Except Fault Value := stack.peek 0

def pop (stack : OperandStack) : Except Fault (Value × OperandStack) :=
  match stack.live with
  | [] => .error (.stackUnderflow 0 1)
  | value :: rest => .ok (value, { stack with live := rest, spent := value :: stack.spent })

/-- Overwrite the slot `n` below the top. -/
def set (stack : OperandStack) (n : Nat) (value : Value) : Except Fault OperandStack := do
  stack.require (n + 1)
  return stack.overwrite n value

def setTop (stack : OperandStack) (value : Value) : Except Fault OperandStack :=
  stack.set 0 value

def discard (stack : OperandStack) (n : Nat) : Except Fault OperandStack := do
  stack.require n
  return stack.lower n

/-- Discard values from below the top: the top takes the place of the one `n` below it. -/
def discardUnder (stack : OperandStack) (n : Nat) : Except Fault OperandStack := do
  let top ← stack.top
  let stack ← stack.set n top
  stack.discard n

/-- Pop `n` values and give them in the order in which they were pushed. -/
def popSlice (stack : OperandStack) (n : Nat) : Except Fault (List Value × OperandStack) := do
  stack.require n
  return (stack.slots n, stack.lower n)

/-- Put the top at `depth`, up or down, keeping the contents of all slots. -/
def resetTo (stack : OperandStack) (depth : Nat) : Except Fault OperandStack :=
  if stack.limit < depth then .error (.stackOverflow stack.limit) else .ok (stack.atDepth depth)

end OperandStack

end LispMachine
