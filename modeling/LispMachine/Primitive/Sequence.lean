import LispMachine.Heap.Equality
import LispMachine.Primitive.Argument

/-!
The primitives on lists, vectors and strings as sequences. Lists can be circular: a chain that has
more conses than the heap has objects runs in a circle, and the primitives that walk a whole list
say so.
-/

set_option autoImplicit false

namespace LispMachine

namespace Heap

/-- Replace the first part of a cons. -/
def setCar (heap : Heap) (cell value : Value) : Heap :=
  match heap.cons? cell with
  | some (_, cdr) => heap.set cell (.cons value cdr)
  | none => heap

/-- Replace the second part of a cons. -/
def setCdr (heap : Heap) (cell value : Value) : Heap :=
  match heap.cons? cell with
  | some (car, _) => heap.set cell (.cons car value)
  | none => heap

/-- How a search along a chain of conses ends. -/
inductive SearchEnd where
  /-- At a tail whose first item is wanted. -/
  | found (tail : Value)
  /-- After the last item. -/
  | proper
  | improper
  | endless

/-- The first tail of a chain of at most `bound` conses whose first item is wanted. -/
def findTailWithin (heap : Heap) (wanted : Value → Bool) : Nat → Value → SearchEnd
  | bound, tail =>
    match heap.cons? tail with
    | none => if tail.isNil then .proper else .improper
    | some (car, cdr) =>
      if wanted car then .found tail
      else
        match bound with
        | 0 => .endless
        | bound + 1 => findTailWithin heap wanted bound cdr

/-- The last cons of a chain that has at most `bound` more conses, if it ends. -/
def lastConsWithin (heap : Heap) : Nat → Value → Option Value
  | bound, cell =>
    if heap.isCons (heap.cdrSafe cell) then
      match bound with
      | 0 => none
      | bound + 1 => lastConsWithin heap bound (heap.cdrSafe cell)
    else some cell

end Heap

namespace Storage

def carSafe (value : Value) : Storage Value := do return (← get).heap.carSafe value

def cdrSafe (value : Value) : Storage Value := do return (← get).heap.cdrSafe value

/-- Replace the first part of a cons, and give the new part. -/
def setCar (cell value : Value) : Storage Value := do
  if (← get).heap.isCons cell then
    modifyHeap fun heap => heap.setCar cell value
    return value
  else wrongType Symbols.consp cell

/-- Replace the second part of a cons, and give the new part. -/
def setCdr (cell value : Value) : Storage Value := do
  if (← get).heap.isCons cell then
    modifyHeap fun heap => heap.setCdr cell value
    return value
  else wrongType Symbols.consp cell

def vector (items : List Value) : Storage Value := makeVector items.toArray

/-- The number of items of a proper list. -/
def listLength (list : Value) : Storage Nat := do
  match (← get).heap.chain list with
  | (items, .proper) => return items.length
  | (_, .improper) => wrongType Symbols.listp list
  | (_, .endless) => error Symbols.circularList [list]

/-- The number of items of a sequence. -/
def length (sequence : Value) : Storage Value := do
  match ← object? sequence with
  | some (.string text) => return .ofNat text.length
  | some (.vector items) => return .ofNat items.size
  | some (.cons _ _) => return .ofNat (← listLength sequence)
  | _ => if sequence.isNil then return .fixnum 0 else wrongType Symbols.sequencep sequence

/-- The tail of a list after its first `count` items. -/
def tailAfter : Nat → Value → Storage Value
  | 0, tail => return tail
  | count + 1, tail => do if tail.isNil then return tail else tailAfter count (← cdr tail)

def nthcdr (count list : Value) : Storage Value := do
  let n ← fixnumArgument count
  tailAfter n.toNat list

def nth (count list : Value) : Storage Value := do
  car (← nthcdr count list)

/-- The item of a vector or string at an index. -/
def aref (array index : Value) : Storage Value := do
  let i ← fixnumArgument index
  let item ←
    match ← object? array with
    | some (.vector items) => pure (if 0 ≤ i then items[i.toNat]? else none)
    | some (.string text) =>
      pure (if 0 ≤ i then text.toList[i.toNat]?.map Value.ofChar else none)
    | _ => wrongType Symbols.arrayp array
  match item with
  | some item => return item
  | none => argsOutOfRange array index

/-- The item of a list, vector or string at an index. -/
def elt (sequence index : Value) : Storage Value := do
  if (← get).heap.isList sequence then nth index sequence else aref sequence index

/-- Replace the item of a vector or string at an index. -/
def aset (array index value : Value) : Storage Value := do
  let i ← fixnumArgument index
  match ← object? array with
  | some (.string text) =>
    let c ← characterArgument value
    if 0 ≤ i ∧ i.toNat < text.length then
      modifyHeap fun heap =>
        heap.set array (.string (String.ofList (text.toList.set i.toNat c)))
      return value
    else argsOutOfRange array index
  | some (.vector items) =>
    if 0 ≤ i ∧ i.toNat < items.size then
      modifyHeap fun heap => heap.set array (.vector (items.setIfInBounds i.toNat value))
      return value
    else argsOutOfRange array index
  | _ => wrongType Symbols.arrayp array

/-- The first tail of a list whose first item is wanted, nil if there is none. -/
def findTail (list : Value) (wanted : Heap → Value → Bool) : Storage Value := do
  let heap := (← get).heap
  match heap.findTailWithin (wanted heap) heap.size list with
  | .found tail => return tail
  | .proper => return .nil
  | .improper => wrongType Symbols.listp list
  | .endless => error Symbols.circularList [list]

def memq (item list : Value) : Storage Value := findTail list fun _ other => other == item

def member (item list : Value) : Storage Value :=
  findTail list fun heap other => heap.equal other item

/-- The first item of a list that is a cons with the given first part. -/
def assq (key list : Value) : Storage Value := do
  let tail ← findTail list fun heap item =>
    match heap.cons? item with
    | some (car, _) => car == key
    | none => false
  carSafe tail

/-- Turn the conses of a list around, in front of those already turned. -/
def reverseOnto (turned : Value) : Nat → Value → Storage Value
  | 0, _ => return turned
  | count + 1, tail => do
    let next ← cdr tail
    let _ ← setCdr tail turned
    reverseOnto tail count next

/-- Reverse a sequence in place. -/
def nreverse (sequence : Value) : Storage Value := do
  match ← object? sequence with
  | some (.vector items) =>
    modifyHeap fun heap => heap.set sequence (.vector items.reverse)
    return sequence
  | some (.string text) =>
    modifyHeap fun heap => heap.set sequence (.string (String.ofList text.toList.reverse))
    return sequence
  | _ => reverseOnto .nil (← listLength sequence) sequence

/-- Chain lists behind the cons `last`. Nil is passed over; the last list may end in anything. -/
def chainLists (last : Option Value) (result : Value) : List Value → Storage Value
  | [] => return result
  | list :: lists => do
    if list.isNil then chainLists last result lists
    else
      let result ←
        match last with
        | some cell =>
          let _ ← setCdr cell list
          pure result
        | none => pure list
      if lists.isEmpty then return result
      let heap := (← get).heap
      if !heap.isCons list then wrongType Symbols.consp list
      match heap.lastConsWithin heap.size list with
      | some cell => chainLists (some cell) result lists
      | none => error Symbols.circularList [list]

/-- Chain lists into one by changing the end of each. -/
def nconc (lists : List Value) : Storage Value := chainLists none .nil lists

end Storage

end LispMachine
