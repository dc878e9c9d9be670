/-!
Reading text piece by piece. A reader takes characters off the front of a text and gives what they
mean, or fails; of two readers tried one after the other, the second starts where the first did.
-/

set_option autoImplicit false

namespace LispMachine.Toml

/-- What can be read off the front of a text. -/
abbrev Reader := StateT (List Char) Option

namespace Reader

variable {α : Type}

/-- The next character, which is left where it is. -/
def peek? : Reader (Option Char) := fun chars => some (chars.head?, chars)

/-- One character that satisfies a condition. -/
def one (accepts : Char → Bool) : Reader Char
  | c :: rest => if accepts c then some (c, rest) else none
  | [] => none

/-- A given character. -/
def char (c : Char) : Reader Unit := do
  let _ ← one (· == c)

/-- Given characters in a row. -/
def word (text : String) : Reader Unit := text.toList.forM char

/-- The longest run of characters that satisfy a condition. -/
def run (accepts : Char → Bool) : Reader (List Char) := fun chars => some (chars.span accepts)

/-- A run that is not empty. -/
def runSome (accepts : Char → Bool) : Reader (List Char) := do
  let chars ← run accepts
  if chars.isEmpty then failure
  return chars

/-- So many characters that satisfy a condition. -/
def exactly (count : Nat) (accepts : Char → Bool) : Reader (List Char) :=
  (List.replicate count accepts).mapM one

/-- Something that may be missing. -/
def optional? (part : Reader α) : Reader (Option α) := some <$> part <|> pure none

/-- Read parts, at most `rounds`, in front of which those of `read` stand, newest first. -/
def parts (part : Reader α) : Nat → List α → Reader (List α)
  | 0, read, chars => some (read.reverse, chars)
  | rounds + 1, read, chars =>
    match part chars with
    | some (x, rest) => parts part rounds (x :: read) rest
    | none => some (read.reverse, chars)

/-- As many parts as there are. Each takes a character at least, so the length of the text bounds
their number. -/
def many (part : Reader α) : Reader (List α) := fun chars => parts part chars.length [] chars

/-- One part or more, with a separator between each two. -/
def separated (part : Reader α) (separator : Reader Unit) : Reader (List α) := do
  let first ← part
  let others ← many (do separator; part)
  return first :: others

/-- The end of the text. -/
def finish : Reader Unit
  | [] => some ((), [])
  | _ :: _ => none

end Reader

/-! ### Blanks, lines and comments -/

def isBlankChar (c : Char) : Bool := c == ' ' || c == '\t'

/-- Whether a character may stand unescaped in a comment or a string. -/
def isPlain (c : Char) : Bool := c == '\t' || (0x20 ≤ c.toNat && c.toNat != 0x7f)

/-- Blanks on one line. -/
def blanks : Reader Unit := do
  let _ ← Reader.run isBlankChar

/-- The end of a line. -/
def newline : Reader Unit := Reader.char '\n' <|> Reader.word "\r\n"

def comment : Reader Unit := do
  Reader.char '#'
  let _ ← Reader.run isPlain

/-- The end of a line, before which blanks and a comment may stand. The last line may go without
it. -/
def endOfLine : Reader Unit := do
  blanks
  let _ ← Reader.optional? comment
  newline <|> Reader.finish

/-- Blanks, comments and the ends of lines. -/
def space : Reader Unit := do
  let _ ← Reader.many (do
    blanks
    let _ ← Reader.optional? comment
    newline)
  blanks

end LispMachine.Toml
