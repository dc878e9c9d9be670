import LispMachine.Decimal.Numeral
import LispMachine.Regexp.SetParser

/-!
Reading regular expressions of the bare dialect. The reader goes through the text once, with a
stack of the groups that are open. Every round takes at least one character, so the length of the
text bounds the rounds. Expressions that nest too high are refused.
-/

set_option autoImplicit false

namespace LispMachine

namespace Regexp

/-! ### Counts -/

/-- A number between blanks, and what follows. -/
def count? (text : List Char) : Option (Nat × List Char) :=
  let text := text.dropWhile isBlank
  let digits := text.takeWhile Char.isDigit
  let n := digitsValue digits
  if digits.isEmpty || 0x100000000 ≤ n then none
  else some (n, (text.dropWhile Char.isDigit).dropWhile isBlank)

/-- The bounds of a repetition after their opening brace, and what follows. -/
def parseCounts (text : List Char) : Except RegexpError ((Nat × Option Nat) × List Char) := do
  let some (least, rest) := count? text | throw .malformedCount
  match rest with
  | '\x7d' :: rest => return ((least, some least), rest)
  | ',' :: '\x7d' :: rest => return ((least, none), rest)
  | ',' :: rest =>
    let some (most, rest) := count? rest | throw .malformedCount
    match rest with
    | '\x7d' :: rest =>
      if least ≤ most then return ((least, some most), rest) else throw .malformedCount
    | _ => throw .malformedCount
  | _ => throw .malformedCount

/-- Whether a repetition is greedy: unless a question mark follows it. -/
def parsePreference : List Char → Bool × List Char
  | '?' :: rest => (false, rest)
  | rest => (true, rest)

/-! ### Expressions -/

/-- A part that is itself one level of nesting around another. -/
def Measured.around (part : Measured Node) (wrap : Node → Node) : Measured Node :=
  ⟨wrap part.content, part.height + 1⟩

/-- One part as it is, or several joined at one more level of nesting. -/
def Measured.join (combine : List Node → Node) : List (Measured Node) → Measured Node
  | [part] => part
  | [] => ⟨.empty, 0⟩
  | parts =>
    ⟨combine (parts.map Measured.content),
      parts.foldl (fun height part => max height part.height) 0 + 1⟩

/-- A part of an expression under construction: the complete alternatives and the items of the
present one, both newest first. -/
structure Level where
  alternatives : List (Measured Node) := []
  items : List (Measured Node) := []

namespace Level

/-- The items in a row. -/
def row (level : Level) : Measured Node := .join Node.sequence level.items.reverse

/-- The whole part. -/
def whole (level : Level) : Measured Node :=
  .join Node.choice (level.row :: level.alternatives).reverse

def add (level : Level) (item : Measured Node) : Level :=
  { level with items := item :: level.items }

/-- The next alternative. -/
def next (level : Level) : Level := ⟨level.row :: level.alternatives, []⟩

/-- Repeat the newest item. -/
def repeatLast (level : Level) (least : Nat) (most : Option Nat) (greedy : Bool) :
    Except RegexpError Level :=
  match level.items with
  | [] => .error .missingOperand
  | item :: items =>
    if maxHeight ≤ item.height then .error .tooDeep
    else
      .ok { level with
        items := item.around (fun body => .repeated body least most greedy) :: items }

end Level

/-- An expression under construction: the innermost part, the open groups around it with their
index, and the index of the next group. -/
structure Draft where
  level : Level := {}
  outer : List (Option Nat × Level) := []
  nextGroup : Nat := 1

namespace Draft

def add (draft : Draft) (item : Node) : Draft :=
  { draft with level := draft.level.add ⟨item, 0⟩ }

/-- Open a group that is not remembered. -/
def openPlain (draft : Draft) : Draft :=
  { draft with level := {}, outer := (none, draft.level) :: draft.outer }

/-- Open a group that is remembered. -/
def openGroup (draft : Draft) : Draft :=
  { level := {}
    outer := (some draft.nextGroup, draft.level) :: draft.outer
    nextGroup := draft.nextGroup + 1 }

/-- Close the innermost group. -/
def close (draft : Draft) : Except RegexpError Draft :=
  match draft.outer with
  | [] => .error .unopenedGroup
  | (index, around) :: outer =>
    let body := draft.level.whole
    if maxHeight ≤ body.height then .error .tooDeep
    else
      let group := body.around fun node =>
        match index with
        | some index => .group index node
        | none => node
      .ok { draft with level := around.add group, outer := outer }

/-- Repeat the newest item, as a following question mark prefers. -/
def repeatLast (draft : Draft) (least : Nat) (most : Option Nat) (rest : List Char) :
    Except RegexpError (Draft × List Char) := do
  let (greedy, rest) := parsePreference rest
  return ({ draft with level := ← draft.level.repeatLast least most greedy }, rest)

/-- The whole expression. -/
def finish (draft : Draft) : Except RegexpError Node :=
  if !draft.outer.isEmpty then .error .unclosedGroup
  else
    let whole := draft.level.whole
    if maxHeight < whole.height then .error .tooDeep else .ok whole.content

end Draft

/-- A boundary of words and what follows it, after the backslash and the letter. A name in braces
tells the kind of the boundary; braces without a name are left for a count. -/
def parseBoundary (text : List Char) : Except RegexpError (Anchor × List Char) :=
  match text with
  | '\x7b' :: rest =>
    let isNamePart (c : Char) : Bool := c.isAlpha || c == '-'
    if (rest.takeWhile isNamePart).isEmpty then .ok (.wordBoundary, text)
    else
      match Anchor.named? (String.ofList (rest.takeWhile isNamePart)),
        rest.dropWhile isNamePart with
      | some kind, '\x7d' :: rest => .ok (kind, rest)
      | _, _ => .error .malformedEscape
  | text => .ok (.wordBoundary, text)

/-- The draft after the construct that starts with `c`, and what follows. -/
def parseConstruct (draft : Draft) (c : Char) (rest : List Char) :
    Except RegexpError (Draft × List Char) :=
  match c with
  | '(' =>
    if maxHeight ≤ draft.outer.length then .error .tooDeep
    else
      match rest with
      | '?' :: ':' :: rest => .ok (draft.openPlain, rest)
      | '?' :: _ => .error .unsupportedGroup
      | rest => .ok (draft.openGroup, rest)
  | ')' => return (← draft.close, rest)
  | '|' => .ok ({ draft with level := draft.level.next }, rest)
  | '[' => do
    let (set, rest) ← parseSet rest
    let item : Measured Node := ⟨.ofSet set.content, set.height⟩
    return ({ draft with level := draft.level.add item }, rest)
  | '*' => draft.repeatLast 0 none rest
  | '+' => draft.repeatLast 1 none rest
  | '?' => draft.repeatLast 0 (some 1) rest
  | '\x7b' =>
    if draft.level.items.isEmpty then .error .missingOperand
    else do
      let ((least, most), rest) ← parseCounts rest
      draft.repeatLast least most rest
  | '\\' =>
    match rest with
    | [] => .error .malformedEscape
    | 'b' :: rest => do
      let (boundary, rest) ← parseBoundary rest
      return (draft.add (.anchor boundary), rest)
    | c :: rest =>
      match escape? c with
      | some (.literal c) => .ok (draft.add (.literal [c]), rest)
      | some (.chars set) => .ok (draft.add (.ofSet set), rest)
      | some (.anchor anchor) => .ok (draft.add (.anchor anchor), rest)
      | none => .error .malformedEscape
  | '.' => .ok (draft.add (.chars anyButNewline), rest)
  | '^' => .ok (draft.add (.anchor .textStart), rest)
  | '$' => .ok (draft.add (.anchor .textEnd), rest)
  | c => .ok (draft.add (.literal [c]), rest)

/-- Read the rest of an expression. -/
def readExpression : Nat → Draft → List Char → Except RegexpError Node
  | _, draft, [] => draft.finish
  | 0, _, _ :: _ => .error .unclosedGroup
  | rounds + 1, draft, c :: rest => do
    let (draft, rest) ← parseConstruct draft c rest
    readExpression rounds draft rest

/-- The expression that a text of the bare dialect spells. -/
def parse (text : List Char) : Except RegexpError Node := readExpression text.length {} text

end Regexp

end LispMachine
