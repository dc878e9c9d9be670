import LispMachine.Regexp.Basic

/-!
Expressions in normal form. Nested sequences and nested choices are flattened, characters in a row
become one literal, and a choice between single characters becomes a set. A choice whose
alternatives are sequences that start alike has the common part before it instead. That part is
then matched once for all alternatives, so which of them is preferred may be decided later than
it is written.
-/

set_option autoImplicit false

namespace LispMachine

namespace Regexp

namespace Node

/-- One character of a set. A set of one character is a literal. -/
def ofSet (set : CharRanges) : Node :=
  match set.only? with
  | some c => .literal [c]
  | none => .chars set

/-- A repetition in its simplest form: an expression that matches nothing but the empty text is
repeated at most once, and a single repetition is the expression itself. -/
def repeated (body : Node) (least : Nat) (most : Option Nat) (greedy : Bool) : Node :=
  let (least, most) :=
    if body.isEmptyOnly then (min least 1, some (min (most.getD 1) 1)) else (least, most)
  if most = some 0 then .empty
  else if least = 1 ∧ most = some 1 then body
  else .repetition body least most greedy

/-! ### Sequences -/

/-- The parts of a sequence. -/
def items : Node → List Node
  | .empty => []
  | .append first second => first :: second.items
  | node => [node]

/-- Put an item before others; a literal joins one that follows it. -/
def before (item : Node) (rest : List Node) : List Node :=
  match item, rest with
  | .literal text, .literal more :: others => .literal (text ++ more) :: others
  | item, rest => item :: rest

/-- The sequence of items that are in normal form. -/
def ofItems : List Node → Node
  | [] => .empty
  | [item] => item
  | item :: rest => .append item (ofItems rest)

/-- Expressions one after the other. -/
def sequence (nodes : List Node) : Node := ofItems ((nodes.flatMap items).foldr before [])

/-! ### Choices -/

/-- The alternatives of a choice. -/
def alternatives : Node → List Node
  | .either first second => first :: second.alternatives
  | node => [node]

/-- The choice between alternatives that are in normal form. -/
def ofAlternatives : List Node → Node
  | [] => .chars .empty
  | [alternative] => alternative
  | alternative :: rest => .either alternative (ofAlternatives rest)

/-- The character of a literal that has only one. -/
def singleChar? : Node → Option Char
  | .literal [c] => some c
  | _ => none

def charSet? : Node → Option CharRanges
  | .chars set => some set
  | _ => none

/-- The items of a sequence that has at least two. -/
def severalItems? : Node → Option (List Node)
  | .append first second => some (first :: second.items)
  | _ => none

/-- The front that two lists have in common. -/
def commonFront : List Node → List Node → List Node
  | x :: xs, y :: ys => if x = y then x :: commonFront xs ys else []
  | _, _ => []

/-- The items with which all alternatives start; none unless all are sequences. -/
def sharedItems (alternatives : List Node) : List Node :=
  match alternatives.mapM severalItems? with
  | some (first :: rest) => rest.foldl commonFront first
  | _ => []

/-- The choice between expressions. Taking out what alternatives share leaves smaller ones, and
that happens at most `rounds` times. -/
def choiceWithin : Nat → List Node → Node
  | 0, nodes => ofAlternatives (nodes.flatMap alternatives)
  | rounds + 1, nodes =>
    let listed := nodes.flatMap alternatives
    match listed with
    | [alternative] => alternative
    | _ =>
      match listed.mapM singleChar?, listed.mapM charSet? with
      | some singles, _ => ofSet (.ofRanges (singles.map fun c => (c.toNat, c.toNat)))
      | none, some sets => ofSet (.ofRanges (sets.flatMap CharRanges.ranges))
      | none, none =>
        match sharedItems listed with
        | [] => ofAlternatives listed
        | shared =>
          let rests := listed.map fun node => sequence (node.items.drop shared.length)
          sequence (shared ++ [choiceWithin rounds rests])

/-- The choice between expressions. -/
def choice (nodes : List Node) : Node :=
  choiceWithin (nodes.foldl (fun total node => total + node.size) 0) nodes

end Node

end Regexp

end LispMachine
