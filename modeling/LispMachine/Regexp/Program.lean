import LispMachine.Regexp.Basic

/-!
Matching programs. An expression becomes a list of states, each of which looks at one place of the
text and names the states to go on with; where there are two, the first is preferred. States are
made from the end of the expression to its start, so that each knows what follows it. A loop is
entered through a state that is reserved before its body is made.
-/

set_option autoImplicit false

namespace LispMachine

namespace Regexp

/-- One state of a matching program. -/
inductive State where
  /-- Take a character of the set. -/
  | consume (set : CharRanges) (next : Nat)
  /-- Go on if the place satisfies the anchor. -/
  | check (anchor : Anchor) (next : Nat)
  /-- Go on with the first state or, failing that, with the second. -/
  | fork (first second : Nat)
  /-- Remember the place. -/
  | save (slot next : Nat)
  | accept
  /-- Go on nowhere. -/
  | fail

/-- States under construction. -/
abbrev Builder := StateM (Array State)

namespace Builder

/-- Add a state. -/
def add (state : State) : Builder Nat :=
  modifyGet fun states => (states.size, states.push state)

/-- Replace a state that was reserved. -/
def fill (index : Nat) (state : State) : Builder Unit :=
  modify fun states => states.setIfInBounds index state

/-- The state that prefers the body of a loop, or the way past it. -/
def choice (greedy : Bool) (body next : Nat) : State :=
  if greedy then .fork body next else .fork next body

/-- `count` copies of a part in a row, made from the last to the first. -/
def copies (part : Nat → Builder Nat) : Nat → Nat → Builder Nat
  | 0, next => return next
  | count + 1, next => do
    let first ← part next
    copies part count first

/-- At most `count` copies of a part in a row, before those that start with `first`; each can be
left out with all that follow it. -/
def optionalCopies (part : Nat → Builder Nat) (greedy : Bool) (next : Nat) :
    Nat → Nat → Builder Nat
  | 0, first => return first
  | count + 1, first => do
    let body ← part first
    let first ← add (choice greedy body next)
    optionalCopies part greedy next count first

/-- A part once or more. Gives the start of the part and the state after it. -/
def loop (part : Nat → Builder Nat) (greedy : Bool) (next : Nat) : Builder (Nat × Nat) := do
  let back ← add .fail
  let body ← part back
  fill back (choice greedy body next)
  return (body, back)

/-- A part at least `least` times. A part that can match the empty text is never tried through the
state after it first, so that the preference of its alternatives is kept. -/
def atLeast (part : Nat → Builder Nat) (consumes greedy : Bool) (least next : Nat) :
    Builder Nat := do
  let (body, back) ← loop part greedy next
  match least with
  | 0 => if consumes then return back else add (choice greedy body next)
  | more + 1 => copies part more body

end Builder

/-- The states of an expression before the state `next`. -/
def Node.states : Node → Nat → Builder Nat
  | .empty, next => return next
  | .literal text, next =>
    text.reverse.foldlM (fun next c => Builder.add (.consume (.single c) next)) next
  | .chars set, next => Builder.add (.consume set next)
  | .anchor condition, next => Builder.add (.check condition next)
  | .append first second, next => do first.states (← second.states next)
  | .either first second, next => do
    let second ← second.states next
    let first ← first.states next
    Builder.add (.fork first second)
  | .repetition body least none greedy, next =>
    Builder.atLeast body.states body.consumes greedy least next
  | .repetition body least (some most) greedy, next => do
    Builder.copies body.states least
      (← Builder.optionalCopies body.states greedy next (most - least) next)
  | .group index body, next => do
    let finish ← Builder.add (.save (2 * index + 1) next)
    Builder.add (.save (2 * index) (← body.states finish))

/-- A matching program. -/
structure Program where
  states : Array State
  start : Nat
  /-- How many groups it remembers, the whole match included. -/
  groups : Nat

/-- The program of an expression, whose whole match is group zero. -/
def Node.program (node : Node) : Program :=
  let build : Builder Nat := do
    let accept ← Builder.add .accept
    (Node.group 0 node).states accept
  let (start, states) := build.run #[]
  ⟨states, start, node.groupCount⟩

end Regexp

end LispMachine
