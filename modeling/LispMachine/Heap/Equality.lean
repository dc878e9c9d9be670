import LispMachine.Heap.Basic

/-!
Equality of values. Values are `eql` when they are the same or floats of the same bits, and
`equal` when they are built alike of conses, strings, vectors and markers over `eql` parts. The
comparison goes `maxEqualDepth` levels down, every cdr counting as one, and values that differ
only deeper than that are not equal.
-/

set_option autoImplicit false

namespace LispMachine

/-- How many levels below the two values `equal` looks into their parts. -/
def maxEqualDepth : Nat := 10000

namespace Heap

/-- Whether two values are the same, or floats of the same bits. -/
def eql (heap : Heap) (a b : Value) : Bool :=
  a == b ||
    match heap.float? a, heap.float? b with
    | some x, some y => x.bits == y.bits
    | _, _ => false

/-- Whether two values are built alike, as far as `levels` levels of parts can tell. -/
def equalWithin (heap : Heap) : Nat → Value → Value → Bool
  | 0, a, b => heap.eql a b
  | levels + 1, a, b =>
    heap.eql a b ||
      match heap.get? a, heap.get? b with
      | some (.cons carA cdrA), some (.cons carB cdrB) =>
        equalWithin heap levels carA carB && equalWithin heap levels cdrA cdrB
      | some (.string textA), some (.string textB) => textA == textB
      | some (.vector itemsA), some (.vector itemsB) =>
        itemsA.size == itemsB.size &&
          (itemsA.zip itemsB).all fun (itemA, itemB) => equalWithin heap levels itemA itemB
      | some (.marker markerA), some (.marker markerB) => markerA == markerB
      | _, _ => false

/-- Whether two values are built alike. -/
def equal (heap : Heap) (a b : Value) : Bool := heap.equalWithin (maxEqualDepth + 1) a b

end Heap

end LispMachine
