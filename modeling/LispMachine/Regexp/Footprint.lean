import LispMachine.Regexp.Basic
import LispMachine.Text.ByteSequence
import Std.Data.HashMap

/-!
How much room an expression takes. Expressions are measured by two automata over the bytes of
UTF-8, one that reads text forwards and remembers groups, and one that reads it backwards and does
not. An automaton is a list of states; a state takes a fixed number of bytes and more for each
transition or alternative that it lists. Only the sizes are worked out here, but they depend on
the numbers of the states, through which sets of characters share states.

An expression is accepted if neither automaton takes more than `maxBytes`. Since measuring is slow
for large sets, `bound` gives a figure that is quick to find and never too small.
-/

set_option autoImplicit false

namespace LispMachine

namespace Regexp

/-- Which way an automaton reads text. -/
inductive Direction where
  | forward
  | backward
  deriving DecidableEq

/-- The size of an automaton: the number of its states, and the bytes that they take beyond their
fixed size. -/
structure Footprint where
  states : Nat := 0
  listed : Nat := 0

/-- How much room an automaton may take. -/
def maxBytes : Nat := 10485760

/-- The bytes of a state. -/
def stateBytes : Nat := 32

/-- The bytes of a transition that a state lists. -/
def transitionBytes : Nat := 8

/-- The bytes of an alternative that a state lists. -/
def alternativeBytes : Nat := 4

/-- What a part does to the size of an automaton, if there is room for it. -/
abbrev Growth := Footprint → Option Footprint

namespace Footprint

/-- The size itself, if it is within bounds. -/
def within (footprint : Footprint) : Option Footprint :=
  if stateBytes * footprint.states + footprint.listed ≤ maxBytes then some footprint else none

/-- Add plain states. -/
def addStates (count : Nat) : Growth := fun footprint =>
  { footprint with states := footprint.states + count }.within

/-- Add alternatives to states that choose. -/
def addAlternatives (count : Nat) : Growth := fun footprint =>
  { footprint with listed := footprint.listed + count * alternativeBytes }.within

/-- Add a state with so many transitions. -/
def addBranching (transitions : Nat) : Growth := fun footprint =>
  { states := footprint.states + 1
    listed := footprint.listed + transitions * transitionBytes : Footprint }.within

/-- Grow so many times in the same way. -/
def times (growth : Growth) : Nat → Growth
  | 0, footprint => some footprint
  | count + 1, footprint =>
    match growth footprint with
    | some footprint => times growth count footprint
    | none => none

end Footprint

/-! ### Sets of characters -/

/-- Mix numbers into a hash. -/
def mixed (numbers : List Nat) : UInt64 :=
  numbers.foldl (fun hash n => (hash ^^^ UInt64.ofNat n) * 1099511628211) 14695981039346656037

/-- States by what they list, in so many slots; a new state takes the place of the one that was in
its slot before. -/
structure SharedStates where
  slots : Nat
  entries : Std.HashMap Nat (List Nat × Nat) := {}

namespace SharedStates

/-- The slot of what a state lists. -/
def slotOf (shared : SharedStates) (key : List Nat) : Nat := (mixed key).toNat % shared.slots

/-- The state that lists the same, if it is still known. -/
def find? (shared : SharedStates) (key : List Nat) : Option Nat :=
  match shared.entries[shared.slotOf key]? with
  | some (known, state) => if known = key then some state else none
  | none => none

def insert (shared : SharedStates) (key : List Nat) (state : Nat) : SharedStates :=
  { shared with entries := shared.entries.insert (shared.slotOf key) (key, state) }

end SharedStates

/-- A state of a set's forward automaton that is not complete: its transitions, each as the ends
of a byte range and the state that it leads to, and the byte range of the last one, which leads to
a state that is not complete either. -/
structure OpenState where
  transitions : List Nat := []
  last : Option (Nat × Nat) := none

/-- The state after its last transition has been given its target. -/
def OpenState.settle (state : OpenState) (target : Nat) : OpenState :=
  match state.last with
  | some (low, high) => ⟨state.transitions ++ [low, high, target], none⟩
  | none => state

/-- A forward automaton of a set under construction. -/
structure SetDraft where
  footprint : Footprint
  shared : SharedStates

namespace SetDraft

/-- The number of the state with given transitions, which is added if it is not known. -/
def complete (draft : SetDraft) (transitions : List Nat) : Option (Nat × SetDraft) :=
  match draft.shared.find? transitions with
  | some state => some (state, draft)
  | none => do
    let state := draft.footprint.states
    let footprint ← draft.footprint.addBranching (transitions.length / 3)
    return (state, ⟨footprint, draft.shared.insert transitions state⟩)

/-- Complete the states after the first `kept`, the last of which leads to `target`, and settle
the one before them. -/
def completeFrom (draft : SetDraft) (target kept : Nat) (row : List OpenState) :
    Option (List OpenState × SetDraft) := do
  let (next, draft) ← (row.drop kept).foldrM
    (fun state (next, draft) => draft.complete (state.settle next).transitions) (target, draft)
  let before := row.take kept
  return (before.dropLast ++ (before.getLast?.map (·.settle next)).toList, draft)

/-- How many states at the front of a row have the ranges of a sequence as their last. -/
def sharedLength : List OpenState → ByteSequence → Nat
  | state :: row, range :: sequence =>
    if state.last = some range then sharedLength row sequence + 1 else 0
  | _, _ => 0

/-- Add a sequence of byte ranges to the row of open states. -/
def addSequence (target : Nat) (row : List OpenState) (draft : SetDraft)
    (sequence : ByteSequence) : Option (List OpenState × SetDraft) := do
  let shared := sharedLength row sequence
  let (row, draft) ← draft.completeFrom target (shared + 1) row
  match sequence.drop shared with
  | range :: rest =>
    let extended := row.getLast?.map fun state => { state with last := some range }
    return (row.dropLast ++ extended.toList ++ rest.map (fun range => ⟨[], some range⟩), draft)
  | [] => return (row, draft)

end SetDraft

namespace Footprint

/-- The forward automaton of a set with characters beyond ASCII. -/
def addSetForward (sequences : List ByteSequence) : Growth := fun footprint => do
  let target := footprint.states
  let footprint ← footprint.addStates 1
  let start : List OpenState × SetDraft := ([⟨[], none⟩], ⟨footprint, { slots := 10000 }⟩)
  let (row, draft) ← sequences.foldlM
    (fun (row, draft) sequence => draft.addSequence target row sequence) start
  let (row, draft) ← draft.completeFrom target 1 row
  let (_, draft) ← draft.complete (row.flatMap OpenState.transitions)
  return draft.footprint

/-- Add the states of a sequence to a backward automaton, from the one that `next` stands for. -/
def addSequenceBackward (next : Nat) :
    ByteSequence → Footprint × SharedStates → Option (Footprint × SharedStates)
  | [], (footprint, shared) => do return (← footprint.addAlternatives 1, shared)
  | (low, high) :: rest, (footprint, shared) =>
    match shared.find? [next, low, high] with
    | some state => addSequenceBackward state rest (footprint, shared)
    | none =>
      match footprint.addStates 1 with
      | some larger =>
        addSequenceBackward footprint.states rest
          (larger, shared.insert [next, low, high] footprint.states)
      | none => none

/-- The backward automaton of a set with characters beyond ASCII. -/
def addSetBackward (sequences : List ByteSequence) : Growth := fun footprint => do
  let finish := footprint.states + 1
  let footprint ← footprint.addStates 2
  let shared : SharedStates := { slots := 1000 }
  let (footprint, _) ← sequences.foldlM
    (fun reached sequence => addSequenceBackward finish sequence reached) (footprint, shared)
  return footprint

/-- The automaton of a set. -/
def addSet (direction : Direction) (set : CharRanges) : Growth := fun footprint =>
  if set.ranges.all fun range => range.2 < 0x80 then do
    (← footprint.addStates 1).addBranching set.ranges.length
  else
    let sequences := set.ranges.flatMap fun range => ByteSequence.ofRange range.1 range.2
    match direction with
    | .forward => footprint.addSetForward sequences
    | .backward => footprint.addSetBackward sequences

end Footprint

/-! ### Choices between literals -/

/-- The bytes of a literal, in the order in which they are read. -/
def literalBytes (direction : Direction) (text : List Char) : List Nat :=
  let bytes := text.flatMap fun c => ByteSequence.bytesOf c.toNat
  if direction = .forward then bytes else bytes.reverse

/-- The rests of literals after their first byte, gathered by that byte in the order of its first
occurrence. -/
def gatherByFirst (groups : List (Nat × List (List Nat))) (byte : Nat) (rest : List Nat) :
    List (Nat × List (List Nat)) :=
  if groups.any fun group => group.1 == byte then
    groups.map fun group => if group.1 == byte then (byte, group.2 ++ [rest]) else group
  else groups ++ [(byte, [rest])]

/-- The chunks of a node of a literal tree: literals that end here divide those that go on. An
end that comes before all others counts once. -/
def chunks : List (List Nat) → List (List (Nat × List (List Nat))) →
    List (Nat × List (List Nat)) → List (List (Nat × List (List Nat)))
  | [], before, chunk => (chunk :: before).reverse
  | [] :: rest, before, chunk =>
    if chunk.isEmpty && !before.isEmpty && before.all List.isEmpty then chunks rest before chunk
    else chunks rest (chunk :: before) []
  | (byte :: literal) :: rest, before, chunk =>
    chunks rest before (gatherByFirst chunk byte literal)

namespace Footprint

/-- A tree of literals no longer than `height`. Literals that end where they start need no state
of their own. -/
def addTree : Nat → List (List Nat) → Growth
  | 0, _, footprint => some footprint
  | height + 1, literals, footprint =>
    if literals.all List.isEmpty then some footprint
    else do
      let listed := chunks literals [] []
      let footprint ← listed.foldlM
        (fun footprint chunk => chunk.foldlM
          (fun footprint group => addTree height group.2 footprint) footprint) footprint
      let footprint ← listed.foldlM
        (fun footprint chunk =>
          match chunk.length with
          | 0 => some footprint
          | 1 => footprint.addStates 1
          | transitions => footprint.addBranching transitions) footprint
      let footprint ← footprint.addStates 1
      let entered := (listed.filter fun chunk => !chunk.isEmpty).length
      footprint.addAlternatives (entered + listed.length - 1)

end Footprint

/-! ### Expressions -/

namespace Node

/-- Whether the automaton of an expression ends in a state that chooses, to which what follows is
another alternative. -/
def endsInChoice (direction : Direction) : Node → Bool
  | .empty | .literal _ | .chars _ | .anchor _ | .either _ _ => false
  | .append first second =>
    if direction = .forward then second.endsInChoice direction else first.endsInChoice direction
  | .repetition body least none _ => 0 < least || body.consumes
  | .repetition body least (some most) _ => least == most && body.endsInChoice direction
  | .group _ body => direction == .backward && body.endsInChoice direction

/-- The bytes of an expression that is a literal. -/
def literal? : Node → Option (List Char)
  | .literal text => some text
  | _ => none

/-- All alternatives of a choice, if they are literals. -/
def literals? : Node → Option (List (List Char))
  | .either first second => do return (← first.literal?) :: (← second.literals?)
  | node => do return [← node.literal?]

end Node

namespace Footprint

/-- Go on after a part: an alternative more if it ends in a state that chooses. -/
def link (part : Bool) : Growth := addAlternatives part.toNat

/-- What a choice needs for the alternative number `index` once it is there: it is listed, and the
second one is followed by the states around all. -/
def addAlternative (index : Nat) (endsInChoice : Bool) : Growth := fun footprint => do
  let footprint ← footprint.addStates (if index = 1 then 2 else 0)
  (← footprint.addAlternatives 1).link endsInChoice

/-- So many copies of a part in a row. -/
def copies (part : Growth) (endsInChoice : Bool) : Nat → Growth
  | 0, footprint => footprint.addStates 1
  | count + 1, footprint => do
    times (fun footprint => do part (← footprint.link endsInChoice)) count (← part footprint)

/-- A part repeated without end. -/
def addLoop (part : Growth) (consumes endsInChoice : Bool) (least : Nat) : Growth :=
  fun footprint => do
    match least with
    | 0 =>
      if consumes then
        (← (← part (← footprint.addStates 1)).addAlternatives 1).link endsInChoice
      else
        (← (← (← part footprint).addStates 3).addAlternatives 4).link endsInChoice
    | 1 => (← (← (← part footprint).addStates 1).addAlternatives 1).link endsInChoice
    | more + 1 =>
      let footprint ← copies part endsInChoice more footprint
      let footprint ← (← part (← footprint.link endsInChoice)).addStates 1
      (← footprint.addAlternatives 1).link endsInChoice

/-- A part repeated at least and at most so many times. -/
def addBounded (part : Growth) (endsInChoice : Bool) (least most : Nat) : Growth :=
  fun footprint => do
    if least = most then copies part endsInChoice least footprint
    else if least = 0 ∧ most = 1 then
      let footprint ← (← part (← footprint.addStates 1)).addStates 1
      (← footprint.addAlternatives 2).link endsInChoice
    else
      let footprint ← (← copies part endsInChoice least footprint).addStates 1
      let footprint ← footprint.link (0 < least && endsInChoice)
      times
        (fun footprint => do
          let footprint ← part (← footprint.addStates 1)
          (← footprint.addAlternatives 2).link endsInChoice)
        (most - least) footprint

end Footprint

namespace Node

/-- The automaton of an expression; of a choice, from the alternative number `index` on. -/
def footprint (direction : Direction) : Node → Nat → Growth
  | .empty, _, footprint | .anchor _, _, footprint => footprint.addStates 1
  | .literal text, _, footprint =>
    footprint.addStates (literalBytes direction text).length
  | .chars set, _, footprint => footprint.addSet direction set
  | .append first second, _, footprint => do
    match direction with
    | .forward =>
      let footprint ← first.footprint direction 0 footprint
      second.footprint direction 0 (← footprint.link (first.endsInChoice direction))
    | .backward =>
      let footprint ← second.footprint direction 0 footprint
      first.footprint direction 0 (← footprint.link (second.endsInChoice direction))
  | .either first second, index, footprint => do
    match index, (Node.either first second).literals? with
    | 0, some literals =>
      let spelled := literals.map (literalBytes direction)
      let height := spelled.foldl (fun height literal => max height literal.length) 0
      (← footprint.addStates 1).addTree (height + 1) spelled
    | _, _ =>
      let footprint ← first.footprint direction 0 footprint
      let footprint ← footprint.addAlternative index (first.endsInChoice direction)
      match second with
      | .either _ _ => second.footprint direction (index + 1) footprint
      | _ =>
        let footprint ← second.footprint direction 0 footprint
        footprint.addAlternative (index + 1) (second.endsInChoice direction)
  | .repetition body least none _, _, footprint =>
    footprint.addLoop (body.footprint direction 0) body.consumes (body.endsInChoice direction)
      least
  | .repetition body least (some most) _, _, footprint =>
    footprint.addBounded (body.footprint direction 0) (body.endsInChoice direction) least most
  | .group _ body, _, footprint => do
    match direction with
    | .forward =>
      let footprint ← body.footprint direction 0 (← footprint.addStates 1)
      (← footprint.addStates 1).link (body.endsInChoice direction)
    | .backward => body.footprint direction 0 footprint

/-- The whole automaton of an expression, which may start anywhere unless the expression is
anchored, and in which the whole match is a group. -/
def wholeFootprint (node : Node) (direction : Direction) : Option Footprint := do
  let whole := Node.group 0 node
  let anchored :=
    if direction = .forward then node.isAnchoredAtStart else node.isAnchoredAtEnd
  let start : Footprint := {}
  let start ← if anchored then start.addStates 1
    else (← (← start.addStates 2).addBranching 1).addAlternatives 2
  let footprint ← whole.footprint direction 0 start
  (← footprint.addStates 1).link (whole.endsInChoice direction)

/-! ### A quick bound -/

/-- More sequences than the spellings of a range can need. -/
def sequencesBound (low high : Nat) : Nat :=
  if low / 0x40 = high / 0x40 then 1
  else if high < 0x800 then 4
  else if high < 0x10000 then 14
  else 24

/-- At least as many bytes as the automaton of an expression takes in either direction. -/
def bound : Node → Nat
  | .empty | .anchor _ => 40
  | .literal text => 320 * text.length + 80
  | .chars set =>
    set.ranges.foldl (fun sum range => sum + 164 * sequencesBound range.1 range.2) 120
  | .append first second => first.bound + second.bound + 8
  | .either first second => first.bound + second.bound + 80
  | .repetition body least most _ => (body.bound + 60) * (most.getD least + 2)
  | .group _ body => body.bound + 80

/-- Whether an expression takes no more room than allowed. -/
def fits (node : Node) : Bool :=
  node.bound + 400 ≤ maxBytes ||
    ((node.wholeFootprint .forward).isSome && (node.wholeFootprint .backward).isSome)

end Node

end Regexp

end LispMachine
