import LispMachine.Primitive.Text
import LispMachine.Regexp.Matching

/-!
The primitives that match regular expressions. A successful match leaves its bounds, and those of
its groups, in the machine, where `match-beginning` and `match-end` find them; a failed one leaves
what was there.
-/

set_option autoImplicit false

namespace LispMachine

namespace Storage

/-- The matching program of a regular expression. -/
def compileRegexp (pattern : String) (anchored : Bool) : Storage Regexp.Program := do
  match Regexp.compile pattern anchored with
  | .ok program => return program
  | .error reason => errorMessage s!"Invalid regexp: {reason.message}"

/-- Match a text from a place on, and keep the bounds, counted from `origin`. Gives the start of
the match. -/
def recordMatch (program : Regexp.Program) (text : List Char) (start origin : Nat) :
    Storage (Option Nat) := do
  match program.match? text.toArray start with
  | none => return none
  | some slots =>
    let bounds := slots.toList.map fun place => place.map (· + origin)
    modify fun store => { store with matchData := bounds }
    return bounds.head?.join

/-- The first match in a string, from an optional index on. -/
def stringMatch (pattern text start : Value) : Storage Value := do
  let program ← compileRegexp (← stringArgument pattern) false
  let chars := (← stringArgument text).toList
  let place ←
    match start.given? with
    | none => pure 0
    | some start =>
      match resolveIndex? (← fixnumArgument start) chars.length with
      | some place => pure place
      | none => argsOutOfRange text start
  match ← recordMatch program chars place 0 with
  | some position => return .ofNat position
  | none => return .nil

/-- Whether the text after the point of the current buffer starts with a match. -/
def lookingAt (pattern : Value) : Storage Value := do
  let program ← compileRegexp (← stringArgument pattern) true
  let buffer ← currentBuffer
  let text := buffer.slice buffer.point buffer.finish
  return .ofBool (← recordMatch program text 0 buffer.point).isSome

/-- One of the bounds of a group of the last match; nil for a group that did not match. -/
def matchBound (group : Value) (place : Nat) : Storage Value := do
  let n ← fixnumArgument group
  if n < 0 then argsOutOfRange group (.fixnum 0)
  match ((← get).matchData[2 * n.toNat + place]?).join with
  | some position => return .ofNat position
  | none => return .nil

def matchBeginning (group : Value) : Storage Value := matchBound group 0

def matchEnd (group : Value) : Storage Value := matchBound group 1

end Storage

end LispMachine
