import LispMachine.Regexp.Dialect
import LispMachine.Regexp.Footprint
import LispMachine.Regexp.Parser
import LispMachine.Regexp.Program

/-!
Running matching programs. All ways to match go through the text side by side, one character at a
time, the preferred ones first. Whether a state leads to a match from a place does not depend on
how it was reached, so of the ways that meet in a state only the first goes on.
-/

set_option autoImplicit false

namespace LispMachine

namespace Regexp

/-- The places remembered so far: two slots for each group. -/
abbrev Slots := Array (Option Nat)

/-- Whether the character after a place belongs to a word. -/
def isWordAfter (text : Array Char) (place : Nat) : Bool :=
  match text[place]? with
  | some c => isWordCharacter c
  | none => false

/-- Whether the character before a place belongs to a word. -/
def isWordBefore (text : Array Char) (place : Nat) : Bool :=
  0 < place && isWordAfter text (place - 1)

/-- Whether a place of a text satisfies an anchor. -/
def Anchor.holds (anchor : Anchor) (text : Array Char) (place : Nat) : Bool :=
  match anchor with
  | .textStart => place == 0
  | .textEnd => place == text.size
  | .wordBoundary => isWordBefore text place != isWordAfter text place
  | .noWordBoundary => isWordBefore text place == isWordAfter text place
  | .wordStart => !isWordBefore text place && isWordAfter text place
  | .wordEnd => isWordBefore text place && !isWordAfter text place
  | .noWordBefore => !isWordBefore text place
  | .noWordAfter => !isWordAfter text place

/-- A way to match that has come as far as a state. -/
structure Thread where
  state : Nat
  slots : Slots

/-- The ways to match that have come as far as a place: those that wait for a character or have
matched, the least preferred first, and for each state the place where it was last reached, plus
one. -/
structure Front where
  threads : List Thread := []
  reached : Array Nat

namespace Program

/-- Follow threads to the states where they wait for a character. A state that has been reached at
this place is not entered again. Every round takes a thread off the list, and only one that enters
a state adds two at most, so twice the number of states and one are rounds enough for a single
thread. -/
def follow (program : Program) (text : Array Char) (place : Nat) :
    Nat → List Thread → Front → Front
  | 0, _, front => front
  | _ + 1, [], front => front
  | rounds + 1, thread :: waiting, front =>
    if front.reached.getD thread.state (place + 1) = place + 1 then
      program.follow text place rounds waiting front
    else
      let front :=
        { front with reached := front.reached.setIfInBounds thread.state (place + 1) }
      match program.states[thread.state]? with
      | none | some .fail => program.follow text place rounds waiting front
      | some .accept | some (.consume _ _) =>
        program.follow text place rounds waiting
          { front with threads := thread :: front.threads }
      | some (.check anchor next) =>
        if anchor.holds text place then
          program.follow text place rounds (⟨next, thread.slots⟩ :: waiting) front
        else program.follow text place rounds waiting front
      | some (.save slot next) =>
        program.follow text place rounds
          (⟨next, thread.slots.setIfInBounds slot (some place)⟩ :: waiting) front
      | some (.fork first second) =>
        program.follow text place rounds
          (⟨first, thread.slots⟩ :: ⟨second, thread.slots⟩ :: waiting) front

/-- Let a thread enter a place behind those that are there. -/
def enter (program : Program) (text : Array Char) (place : Nat) (front : Front)
    (thread : Thread) : Front :=
  program.follow text place (2 * program.states.size + 1) [thread] front

/-- Move threads, the most preferred first, over the character at a place. The first one that has
matched gives the match, and those after it are given up. -/
def advance (program : Program) (text : Array Char) (place : Nat) :
    List Thread → Front → Option Slots → Front × Option Slots
  | [], front, found => (front, found)
  | thread :: rest, front, found =>
    match program.states[thread.state]? with
    | some .accept => (front, some thread.slots)
    | some (.consume set next) =>
      match text[place]? with
      | some c =>
        if set.contains c then
          program.advance text place rest
            (program.enter text (place + 1) front ⟨next, thread.slots⟩) found
        else program.advance text place rest front found
      | none => program.advance text place rest front found
    | _ => program.advance text place rest front found

/-- Go through the next places. As long as there is no match, another way starts at each place,
behind all others. -/
def run (program : Program) (text : Array Char) :
    Nat → Nat → Front → Option Slots → Option Slots
  | 0, _, _, found => found
  | more + 1, place, front, found =>
    if front.threads.isEmpty && found.isSome then found
    else
      let front :=
        if found.isSome then front
        else
          program.enter text place front
            ⟨program.start, Array.replicate (2 * program.groups) none⟩
      let (front, found) :=
        program.advance text place front.threads.reverse { front with threads := [] } found
      program.run text more (place + 1) front found

/-- The leftmost match at a place or later: the bounds of the match and of its groups, in
pairs. -/
def match? (program : Program) (text : Array Char) (start : Nat) : Option Slots :=
  program.run text (text.size + 1 - start) start
    { reached := Array.replicate program.states.size 0 } none

end Program

/-- An expression of the bare dialect that matches only at the start of the text. -/
def anchoredSpelling (bare : List Char) : List Char := "\\A(?:".toList ++ bare ++ [')']

/-- The program of an expression in the backslashed dialect; if `anchored`, it matches only at the
start of the text. -/
def compile (pattern : String) (anchored : Bool) : Except RegexpError Program := do
  let bare ← bareDialect pattern.toList
  let node ← parse (if anchored then anchoredSpelling bare else bare)
  if node.fits then return node.program else throw .tooLarge

end Regexp

end LispMachine
