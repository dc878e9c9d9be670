import LispMachine.Json.Parser
import LispMachine.Regexp.Normal
import LispMachine.Text.Blank
import LispMachine.Text.DecimalDigit
import LispMachine.Text.WordCharacter

/-!
Reading sets of characters in regular expressions of the bare dialect. The reader goes through the
text once, with a stack of the sets and set operations that are open. Every round takes at least
one character, so the length of the text bounds the rounds.
-/

set_option autoImplicit false

namespace LispMachine

namespace Regexp

/-- Something read, with the height to which its brackets, rows, choices and repetitions nest. -/
structure Measured (α : Type) where
  content : α
  height : Nat

/-- How high an expression may nest. -/
def maxHeight : Nat := 250

/-! ### Classes and escapes -/

/-- The named classes of ASCII characters. -/
def namedRanges? : String → Option (List (Nat × Nat))
  | "alnum" => some [(0x30, 0x39), (0x41, 0x5a), (0x61, 0x7a)]
  | "alpha" => some [(0x41, 0x5a), (0x61, 0x7a)]
  | "ascii" => some [(0x0, 0x7f)]
  | "blank" => some [(0x9, 0x9), (0x20, 0x20)]
  | "cntrl" => some [(0x0, 0x1f), (0x7f, 0x7f)]
  | "digit" => some [(0x30, 0x39)]
  | "graph" => some [(0x21, 0x7e)]
  | "lower" => some [(0x61, 0x7a)]
  | "print" => some [(0x20, 0x7e)]
  | "punct" => some [(0x21, 0x2f), (0x3a, 0x40), (0x5b, 0x60), (0x7b, 0x7e)]
  | "space" => some [(0x9, 0xd), (0x20, 0x20)]
  | "upper" => some [(0x41, 0x5a)]
  | "word" => some [(0x30, 0x39), (0x41, 0x5a), (0x5f, 0x5f), (0x61, 0x7a)]
  | "xdigit" => some [(0x30, 0x39), (0x41, 0x46), (0x61, 0x66)]
  | _ => none

/-- What a point stands for: every character but the end of a line. -/
def anyButNewline : CharRanges := (CharRanges.single '\n').complement

/-- What a backslash and a character stand for. -/
inductive Escape where
  | literal (c : Char)
  | chars (chars : CharRanges)
  | anchor (anchor : Anchor)

/-- The meaning of an escaped character. Letters and digits have one only if it is listed. -/
def escape? (c : Char) : Option Escape :=
  match c with
  | 'w' => some (.chars wordCharacters)
  | 'W' => some (.chars wordCharacters.complement)
  | 's' => some (.chars blanks)
  | 'S' => some (.chars blanks.complement)
  | 'd' => some (.chars decimalDigits)
  | 'D' => some (.chars decimalDigits.complement)
  | 'A' => some (.anchor .textStart)
  | 'z' => some (.anchor .textEnd)
  | 'b' => some (.anchor .wordBoundary)
  | 'B' => some (.anchor .noWordBoundary)
  | 'a' => some (.literal '\x07')
  | 'f' => some (.literal '\x0c')
  | 't' => some (.literal '\t')
  | 'n' => some (.literal '\n')
  | 'r' => some (.literal '\r')
  | 'v' => some (.literal '\x0b')
  | c =>
    if c.toNat < 0x80 && !c.isAlphanum && c != '<' && c != '>' then some (.literal c) else none

/-- How many hexadecimal digits a letter announces. -/
def hexLength? : Char → Option Nat
  | 'x' => some 2
  | 'u' => some 4
  | 'U' => some 8
  | _ => none

/-- The character that hexadecimal digits name. -/
def hexChar? (digits : List Char) : Option Char := do
  let values ← digits.mapM Json.hexValue?
  let code := values.foldl (fun n digit => n * 16 + digit) 0
  if !values.isEmpty && code.isValidChar then return Char.ofNat code else none

/-- The character of a code point, after the letter that announces `count` digits, and what
follows. In braces there can be any number of digits. -/
def hexEscape? (count : Nat) (text : List Char) : Option (Char × List Char) :=
  match text with
  | '\x7b' :: rest =>
    match rest.dropWhile (· != '\x7d') with
    | _ :: after => (hexChar? (rest.takeWhile (· != '\x7d'))).map fun c => (c, after)
    | [] => none
  | text =>
    if text.length < count then none
    else (hexChar? (text.take count)).map fun c => (c, text.drop count)

/-! ### Items -/

/-- One item of a set, and what follows it. -/
def setItem : List Char → Except RegexpError (Escape × List Char)
  | [] => .error .unclosedClass
  | '\\' :: c :: rest =>
    match hexLength? c with
    | some count =>
      match hexEscape? count rest with
      | some (c, rest) => .ok (.literal c, rest)
      | none => .error .malformedEscape
    | none =>
      match escape? c with
      | some escape => .ok (escape, rest)
      | none => .error .malformedEscape
  | ['\\'] => .error .malformedEscape
  | c :: rest => .ok (.literal c, rest)

/-- The ranges that one item stands for. -/
def Escape.toRanges : Escape → Except RegexpError (List (Nat × Nat))
  | .literal c => .ok (CharRanges.single c).ranges
  | .chars listed => .ok listed.ranges
  | .anchor _ => .error .malformedEscape

/-- An item, or the range that starts with it, and what follows. A hyphen before a bracket or
another hyphen makes no range. -/
def setRange (text : List Char) : Except RegexpError (List (Nat × Nat) × List Char) := do
  let (first, rest) ← setItem text
  match rest with
  | [] => throw .unclosedClass
  | '-' :: ']' :: _ | '-' :: '-' :: _ => return (← first.toRanges, rest)
  | '-' :: rest =>
    let (last, rest) ← setItem rest
    match first, last with
    | .literal low, .literal high =>
      if low ≤ high then return ((CharRanges.range low high).ranges, rest)
      else throw .malformedRange
    | _, _ => throw .malformedRange
  | _ => return (← first.toRanges, rest)

/-- A named class of characters after its opening bracket and colon, and what follows. -/
def namedClass? (text : List Char) : Option (CharRanges × List Char) :=
  let (negated, text) :=
    match text with
    | '^' :: rest => (true, rest)
    | text => (false, text)
  match text.dropWhile (· != ':') with
  | ':' :: ']' :: rest =>
    (namedRanges? (String.ofList (text.takeWhile (· != ':')))).map fun ranges =>
      (CharRanges.negateIf negated ⟨ranges⟩, rest)
  | _ => none

/-! ### Sets -/

/-- The items of an open set or operand: their ranges, their number and the height of the
highest. -/
structure SetItems where
  ranges : List (Nat × Nat) := []
  count : Nat := 0
  height : Nat := 0

namespace SetItems

def add (items : SetItems) (ranges : List (Nat × Nat)) (height : Nat) : SetItems :=
  ⟨ranges ++ items.ranges, items.count + 1, max items.height height⟩

/-- The set of all items. Two items or more are a row of their own. -/
def set (items : SetItems) : Measured CharRanges :=
  ⟨.ofRanges items.ranges, if items.count < 2 then items.height else items.height + 1⟩

end SetItems

/-- The operations on sets, written as a doubled character. -/
inductive SetOperation where
  | intersection
  | difference
  | symmetricDifference

def SetOperation.apply : SetOperation → CharRanges → CharRanges → CharRanges
  | .intersection, a, b => a.intersection b
  | .difference, a, b => a.difference b
  | .symmetricDifference, a, b => a.symmetricDifference b

/-- What is open while a set is read. -/
inductive SetFrame where
  /-- A bracket, with the items around it met so far. -/
  | bracket (outer : SetItems) (negated : Bool)
  /-- An operation, with its left side. -/
  | operation (operation : SetOperation) (left : Measured CharRanges)

/-- A set after the operation that it is the right side of, if it is one. -/
def applyPending (set : Measured CharRanges) :
    List SetFrame → Measured CharRanges × List SetFrame
  | .operation operation left :: frames =>
    (⟨operation.apply left.content set.content, max left.height set.height + 1⟩, frames)
  | frames => (set, frames)

/-- The start of a set after its bracket: whether it is negated, and the hyphens or the bracket
that stand for themselves because they come first. -/
def setOpening (text : List Char) : Bool × SetItems × List Char :=
  let (negated, text) :=
    match text with
    | '^' :: rest => (true, rest)
    | text => (false, text)
  match text with
  | '-' :: rest =>
    (negated, ⟨[(0x2d, 0x2d)], 1 + (rest.takeWhile (· == '-')).length, 0⟩,
      rest.dropWhile (· == '-'))
  | ']' :: rest => (negated, ⟨[(0x5d, 0x5d)], 1, 0⟩, rest)
  | text => (negated, {}, text)

/-- Read the rest of a set: `items` are those of the innermost open part. -/
def readSet :
    Nat → List SetFrame → SetItems → List Char →
      Except RegexpError (Measured CharRanges × List Char)
  | 0, _, _, _ => .error .unclosedClass
  | rounds + 1, frames, items, text =>
    match text with
    | [] => .error .unclosedClass
    | ']' :: rest =>
      match applyPending items.set frames with
      | (set, .bracket outer negated :: frames) =>
        let closed : Measured CharRanges := ⟨set.content.negateIf negated, set.height + 1⟩
        if frames.isEmpty then .ok (closed, rest)
        else readSet rounds frames (outer.add closed.content.ranges closed.height) rest
      | (set, _) => .ok (set, rest)
    | '&' :: '&' :: rest => operation rounds .intersection frames items rest
    | '-' :: '-' :: rest => operation rounds .difference frames items rest
    | '~' :: '~' :: rest => operation rounds .symmetricDifference frames items rest
    | '[' :: ':' :: rest =>
      match namedClass? rest with
      | some (set, rest) => readSet rounds frames (items.add set.ranges 0) rest
      | none => nested rounds frames items (':' :: rest)
    | '[' :: rest => nested rounds frames items rest
    | text => do
      let (ranges, rest) ← setRange text
      readSet rounds frames (items.add ranges 0) rest
where
  /-- Go on with the right side of an operation. -/
  operation (rounds : Nat) (operation : SetOperation) (frames : List SetFrame)
      (items : SetItems) (rest : List Char) :
      Except RegexpError (Measured CharRanges × List Char) :=
    let (left, frames) := applyPending items.set frames
    readSet rounds (.operation operation left :: frames) {} rest
  /-- Go on with a set inside the set. -/
  nested (rounds : Nat) (frames : List SetFrame) (items : SetItems) (rest : List Char) :
      Except RegexpError (Measured CharRanges × List Char) :=
    let (negated, first, rest) := setOpening rest
    readSet rounds (.bracket items negated :: frames) first rest

/-- The set after an opening bracket, and what follows it. -/
def parseSet (text : List Char) : Except RegexpError (Measured CharRanges × List Char) :=
  let (negated, first, rest) := setOpening text
  readSet (text.length + 1) [.bracket {} negated] first rest

end Regexp

end LispMachine
