import LispMachine.Text.CharRanges

/-!
Regular expressions. An expression is matched from left to right; of two ways to match, the one
that an earlier alternative or the preference of a repetition puts first is taken.
-/

set_option autoImplicit false

namespace LispMachine

namespace Regexp

/-- A condition on a place in the text. -/
inductive Anchor where
  | textStart
  | textEnd
  | wordBoundary
  | noWordBoundary
  /-- Between no word before and a word after. -/
  | wordStart
  /-- Between a word before and no word after. -/
  | wordEnd
  /-- After no word. -/
  | noWordBefore
  /-- Before no word. -/
  | noWordAfter
  deriving DecidableEq

/-- The boundary of words that a name in braces means. -/
def Anchor.named? : String → Option Anchor
  | "start" => some .wordStart
  | "end" => some .wordEnd
  | "start-half" => some .noWordBefore
  | "end-half" => some .noWordAfter
  | _ => none

/-- A regular expression. -/
inductive Node where
  | empty
  /-- Characters in a row, at least one. -/
  | literal (text : List Char)
  /-- One character of a set. The empty set never matches. -/
  | chars (set : CharRanges)
  | anchor (anchor : Anchor)
  /-- The first, then the second. -/
  | append (first second : Node)
  /-- The first or, failing that, the second. -/
  | either (first second : Node)
  /-- At least `least` and, if `most` is given, at most so many in a row; a greedy repetition
  prefers more, another one fewer. -/
  | repetition (body : Node) (least : Nat) (most : Option Nat) (greedy : Bool)
  /-- What this matches is remembered as the group `index`. -/
  | group (index : Nat) (body : Node)
  deriving DecidableEq

namespace Node

/-- The length of the shortest match, as far as it is known: not where a set is empty. -/
def shortest? : Node → Option Nat
  | .empty | .anchor _ => some 0
  | .literal text => some text.length
  | .chars set => if set.isEmpty then none else some 1
  | .append first second => do return (← first.shortest?) + (← second.shortest?)
  | .either first second => do return min (← first.shortest?) (← second.shortest?)
  | .repetition body least _ _ => do return (← body.shortest?) * least
  | .group _ body => body.shortest?

/-- Whether every match has at least one character. -/
def consumes (node : Node) : Bool := node.shortest?.any (0 < ·)

/-- Whether every match is empty. -/
def isEmptyOnly : Node → Bool
  | .empty | .anchor _ => true
  | .literal _ | .chars _ => false
  | .append first second | .either first second => first.isEmptyOnly && second.isEmptyOnly
  | .repetition body _ most _ => most.isSome && body.isEmptyOnly
  | .group _ body => body.isEmptyOnly

/-- Whether every match starts at the start of the text. -/
def isAnchoredAtStart : Node → Bool
  | .anchor condition => condition == .textStart
  | .empty | .literal _ | .chars _ => false
  | .append first second =>
    first.isAnchoredAtStart || (first.isEmptyOnly && second.isAnchoredAtStart)
  | .either first second => first.isAnchoredAtStart && second.isAnchoredAtStart
  | .repetition body least _ _ => 0 < least && body.isAnchoredAtStart
  | .group _ body => body.isAnchoredAtStart

/-- Whether every match ends at the end of the text. -/
def isAnchoredAtEnd : Node → Bool
  | .anchor condition => condition == .textEnd
  | .empty | .literal _ | .chars _ => false
  | .append first second =>
    second.isAnchoredAtEnd || (second.isEmptyOnly && first.isAnchoredAtEnd)
  | .either first second => first.isAnchoredAtEnd && second.isAnchoredAtEnd
  | .repetition body least _ _ => 0 < least && body.isAnchoredAtEnd
  | .group _ body => body.isAnchoredAtEnd

/-- How many nodes there are. -/
def size : Node → Nat
  | .empty | .anchor _ | .literal _ | .chars _ => 1
  | .append first second | .either first second => first.size + second.size + 1
  | .repetition body _ _ _ | .group _ body => body.size + 1

/-- One more than the largest group index. -/
def groupCount : Node → Nat
  | .empty | .anchor _ | .literal _ | .chars _ => 1
  | .append first second | .either first second => max first.groupCount second.groupCount
  | .repetition body _ _ _ => body.groupCount
  | .group index body => max (index + 1) body.groupCount

end Node

end Regexp

/-- Why a regular expression is refused. -/
inductive RegexpError where
  | trailingBackslash
  | unsupportedGroup
  | unsupportedSyntaxClass
  | backReference
  | unmatchedBracket
  | unopenedGroup
  | unclosedGroup
  | missingOperand
  | malformedCount
  | unclosedClass
  | malformedRange
  | malformedEscape
  /-- Groups, repetitions and sets nest too deep. -/
  | tooDeep
  /-- The expression would take too much room. -/
  | tooLarge
  deriving DecidableEq

/-- The refusal in words. -/
def RegexpError.message : RegexpError → String
  | .trailingBackslash => "trailing backslash"
  | .unsupportedGroup => "unsupported group syntax"
  | .unsupportedSyntaxClass => "unsupported syntax class"
  | .backReference => "back references are not supported"
  | .unmatchedBracket => "unmatched ["
  | .unopenedGroup => "unopened group"
  | .unclosedGroup => "unclosed group"
  | .missingOperand => "repetition operator missing expression"
  | .malformedCount => "invalid repetition count"
  | .unclosedClass => "unclosed character class"
  | .malformedRange => "invalid character class range"
  | .malformedEscape => "unrecognized escape sequence"
  | .tooDeep => "expression nests too deep"
  | .tooLarge => "expression is too large"

end LispMachine
