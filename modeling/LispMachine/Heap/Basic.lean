import LispMachine.Double
import LispMachine.Value

/-!
The heap. Objects are added and changed, never moved or removed. The heap counts allocations; at
certain points of a run it is offered the opportunity for a collection, which is due when enough
has been allocated since the last one.
-/

set_option autoImplicit false

namespace LispMachine

/-- A place in a buffer that moves with the text. A marker in no buffer has position 0. -/
structure Marker where
  buffer : Option Nat
  position : Nat
  deriving DecidableEq

/-- A heap object. Functions, primitives and buffers are kept elsewhere, and the object holds
their index; functions and primitives also have their name at hand. -/
inductive Object where
  | cons (car cdr : Value)
  | float (x : Double)
  | string (text : String)
  | vector (items : Array Value)
  | function (id : Nat) (name : String)
  | primitive (index : Nat) (name : String)
  | buffer (index : Nat)
  | marker (marker : Marker)

/-- The objects, and what paces collections. -/
structure Heap where
  objects : Array Object := #[]
  threshold : Nat
  /-- Allocations since the last collection. -/
  allocated : Nat := 0
  opportunities : Nat := 0
  collections : Nat := 0

namespace Heap

/-- A heap whose collections are due after `threshold` allocations, at least one. -/
def empty (threshold : Nat) : Heap := { threshold := max threshold 1 }

/-- Add an object. -/
def allocate (heap : Heap) (object : Object) : Value × Heap :=
  (.object heap.objects.size,
    { heap with objects := heap.objects.push object, allocated := heap.allocated + 1 })

/-- The object that a value refers to. -/
def get? (heap : Heap) : Value → Option Object
  | .object address => heap.objects[address]?
  | _ => none

/-- Replace the object that a value refers to. -/
def set (heap : Heap) (value : Value) (object : Object) : Heap :=
  match value with
  | .object address => { heap with objects := heap.objects.setIfInBounds address object }
  | _ => heap

def size (heap : Heap) : Nat := heap.objects.size

/-- Offer the opportunity for a collection. -/
def offerCollection (heap : Heap) : Heap :=
  if heap.threshold ≤ heap.allocated then
    { heap with
      allocated := 0
      opportunities := heap.opportunities + 1
      collections := heap.collections + 1 }
  else { heap with opportunities := heap.opportunities + 1 }

/-! ### Reading objects of one kind -/

def cons? (heap : Heap) (value : Value) : Option (Value × Value) :=
  match heap.get? value with
  | some (.cons car cdr) => some (car, cdr)
  | _ => none

def isCons (heap : Heap) (value : Value) : Bool := (heap.cons? value).isSome

def isList (heap : Heap) (value : Value) : Bool := value.isNil || heap.isCons value

def string? (heap : Heap) (value : Value) : Option String :=
  match heap.get? value with
  | some (.string text) => some text
  | _ => none

def float? (heap : Heap) (value : Value) : Option Double :=
  match heap.get? value with
  | some (.float x) => some x
  | _ => none

def vector? (heap : Heap) (value : Value) : Option (Array Value) :=
  match heap.get? value with
  | some (.vector items) => some items
  | _ => none

def marker? (heap : Heap) (value : Value) : Option Marker :=
  match heap.get? value with
  | some (.marker marker) => some marker
  | _ => none

def isNumber (heap : Heap) (value : Value) : Bool :=
  value.isFixnum || (heap.float? value).isSome

/-- The first part of a cons, nil of anything else. -/
def carSafe (heap : Heap) (value : Value) : Value := ((heap.cons? value).map Prod.fst).getD .nil

/-- The second part of a cons, nil of anything else. -/
def cdrSafe (heap : Heap) (value : Value) : Value := ((heap.cons? value).map Prod.snd).getD .nil

/-! ### Lists -/

/-- A list of the items that ends in `tail`; the last cell is allocated first. -/
def listWithTail (heap : Heap) (items : List Value) (tail : Value) : Value × Heap :=
  items.foldr (fun item (list, heap) => heap.allocate (.cons item list)) (tail, heap)

/-- A fresh list of the items. -/
def list (heap : Heap) (items : List Value) : Value × Heap := heap.listWithTail items .nil

/-- How a chain of conses ends. -/
inductive ChainEnd where
  /-- In nil: the chain is a proper list. -/
  | proper
  /-- In something that is neither nil nor a cons. -/
  | improper
  /-- Not at all. -/
  | endless
  deriving DecidableEq

/-- The items of a chain of at most `bound` conses, and how it ends. -/
def chainWithin (heap : Heap) : Nat → Value → List Value × ChainEnd
  | bound, value =>
    match heap.cons? value with
    | none => ([], if value.isNil then .proper else .improper)
    | some (car, cdr) =>
      match bound with
      | 0 => ([], .endless)
      | bound + 1 =>
        let (items, ending) := chainWithin heap bound cdr
        (car :: items, ending)

/-- The items of a chain of conses, and how it ends. A chain with more conses than the heap has
objects runs in a circle. -/
def chain (heap : Heap) (value : Value) : List Value × ChainEnd :=
  heap.chainWithin heap.size value

end Heap

end LispMachine
