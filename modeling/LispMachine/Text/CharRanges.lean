/-!
Sets of characters given by ranges of code points, the form in which character properties are
tabulated. A set is written canonically: its ranges ascend, and between each two of them there is
a code point that belongs to neither. The operations keep sets canonical, so that sets with the
same ranges can be compared.
-/

set_option autoImplicit false

namespace LispMachine

/-- A set of characters: the code points from the first to the second number of some range. -/
structure CharRanges where
  ranges : List (Nat × Nat)
  deriving DecidableEq

namespace CharRanges

/-- Whether a code point is in one of some ascending ranges. -/
def codeIn (code : Nat) : List (Nat × Nat) → Bool
  | [] => false
  | (low, high) :: rest => low ≤ code && (code ≤ high || codeIn code rest)

def containsCode (set : CharRanges) (code : Nat) : Bool := codeIn code set.ranges

def contains (set : CharRanges) (c : Char) : Bool := set.containsCode c.toNat

def isEmpty (set : CharRanges) : Bool := set.ranges.isEmpty

def empty : CharRanges := ⟨[]⟩

/-- The characters from one to another. -/
def range (low high : Char) : CharRanges := ⟨[(low.toNat, high.toNat)]⟩

/-- The set of one character. -/
def single (c : Char) : CharRanges := range c c

/-- The character of a set that has only one. -/
def only? (set : CharRanges) : Option Char :=
  match set.ranges with
  | [(low, high)] => if low = high then some (Char.ofNat low) else none
  | _ => none

/-- A range and those after it, in ascending order, with ranges joined that overlap or touch. -/
def joinFrom (low high : Nat) : List (Nat × Nat) → List (Nat × Nat)
  | [] => [(low, high)]
  | (nextLow, nextHigh) :: rest =>
    if nextLow ≤ high + 1 then joinFrom low (max high nextHigh) rest
    else (low, high) :: joinFrom nextLow nextHigh rest

/-- The canonical form of some ranges. -/
def ofRanges (ranges : List (Nat × Nat)) : CharRanges :=
  match ranges.mergeSort fun x y => x.1 < y.1 || (x.1 == y.1 && x.2 ≤ y.2) with
  | [] => ⟨[]⟩
  | (low, high) :: rest => ⟨joinFrom low high rest⟩

def union (a b : CharRanges) : CharRanges := ofRanges (a.ranges ++ b.ranges)

/-- The common part of two lists of ranges. -/
def commonRanges : List (Nat × Nat) → List (Nat × Nat) → List (Nat × Nat)
  | [], _ => []
  | _ :: _, [] => []
  | (aLow, aHigh) :: a, (bLow, bHigh) :: b =>
    let low := max aLow bLow
    let high := min aHigh bHigh
    let rest :=
      if aHigh < bHigh then commonRanges a ((bLow, bHigh) :: b)
      else commonRanges ((aLow, aHigh) :: a) b
    if low ≤ high then (low, high) :: rest else rest
termination_by a b => a.length + b.length

def intersection (a b : CharRanges) : CharRanges := ⟨commonRanges a.ranges b.ranges⟩

/-- The greatest code point. -/
def maxCode : Nat := 0x10ffff

/-- The character after a code point; surrogates are no characters. -/
def next (code : Nat) : Nat := if code = 0xd7ff then 0xe000 else code + 1

/-- The character before a code point. -/
def previous (code : Nat) : Nat := if code = 0xe000 then 0xd7ff else code - 1

/-- The ranges between and after some ascending ranges, from a code point on. -/
def gaps (start : Nat) : List (Nat × Nat) → List (Nat × Nat)
  | [] => if start ≤ maxCode then [(start, maxCode)] else []
  | (low, high) :: rest =>
    if start < low then (start, previous low) :: gaps (next high) rest
    else gaps (next high) rest

def complement (set : CharRanges) : CharRanges := ⟨gaps 0 set.ranges⟩

def difference (a b : CharRanges) : CharRanges := a.intersection b.complement

def symmetricDifference (a b : CharRanges) : CharRanges :=
  (a.union b).difference (a.intersection b)

/-- The set or, if `negated`, its complement. -/
def negateIf (negated : Bool) (set : CharRanges) : CharRanges :=
  if negated then set.complement else set

end CharRanges

end LispMachine
