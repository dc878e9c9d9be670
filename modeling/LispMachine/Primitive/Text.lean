import LispMachine.Decimal.Numeral
import LispMachine.Primitive.Argument
import LispMachine.Printing
import LispMachine.Text.Blank
import LispMachine.Text.LetterCase

/-!
The primitives on strings: joining and cutting them, letter case, comparison, and the numerals
that they hold.
-/

set_option autoImplicit false

namespace LispMachine

/-- The place that an index means in a sequence of a length; a negative index counts from the
end. -/
def resolveIndex? (index : Int) (length : Nat) : Option Nat :=
  let resolved := if index < 0 then length + index else index
  if 0 ≤ resolved ∧ resolved ≤ length then some resolved.toNat else none

/-- The places between which a part of a sequence is cut out. -/
def resolveCut? (start : Int) (finish : Option Int) (length : Nat) : Option (Nat × Nat) :=
  match resolveIndex? start length,
    (match finish with
      | some index => resolveIndex? index length
      | none => some length) with
  | some low, some high => if low ≤ high then some (low, high) else none
  | _, _ => none

/-- The characters at the start of a text that can belong to a numeral: digits, points, and a sign
in the first place. -/
def leadingNumeral : List Char → List Char
  | [] => []
  | first :: rest =>
    let continues (c : Char) : Bool := c.isDigit || c == '.'
    if continues first || first == '-' || first == '+' then first :: rest.takeWhile continues
    else []

namespace Storage

/-- The characters of the values in a list. -/
def characters : List Value → Storage (List Char)
  | [] => return []
  | value :: values => do
    let c ← characterArgument value
    return c :: (← characters values)

/-- The characters that one argument of `concat` stands for: a string, or a list or vector of
characters. -/
def concatPart (value : Value) : Storage (List Char) := do
  match ← object? value with
  | some (.string text) => return text.toList
  | some (.vector items) => characters items.toList
  | some (.cons _ _) => characters (← elements value)
  | _ => if value.isNil then return [] else wrongType Symbols.sequencep value

/-- The characters of all arguments of `concat`. -/
def concatParts : List Value → Storage (List Char)
  | [] => return []
  | value :: values => do
    let part ← concatPart value
    return part ++ (← concatParts values)

/-- Join sequences of characters into a string. -/
def concat (arguments : List Value) : Storage Value := do
  makeString (String.ofList (← concatParts arguments))

/-- An optional index. -/
def indexArgument? (value : Value) : Storage (Option Int) := do
  match value.given? with
  | some value => return some (← fixnumArgument value)
  | none => return none

/-- The part of a string or vector between two indices. -/
def substring (sequence start finish : Value) : Storage Value := do
  let low := (← indexArgument? start).getD 0
  let high ← indexArgument? finish
  match ← object? sequence with
  | some (.vector items) =>
    match resolveCut? low high items.size with
    | some (low, high) => makeVector (items.extract low high)
    | none => error Symbols.argsOutOfRange [sequence, start, finish]
  | some (.string text) =>
    match resolveCut? low high text.length with
    | some (low, high) => makeString (String.ofList ((text.toList.drop low).take (high - low)))
    | none => error Symbols.argsOutOfRange [sequence, start, finish]
  | _ => wrongType Symbols.arrayp sequence

/-- Change the letter case of a string or character. A character whose other case is not one
character stays as it is. -/
def convertCase (convert : Char → List Char) (convertText : String → String) (value : Value) :
    Storage Value := do
  match ← object? value, value with
  | some (.string text), _ => makeString (convertText text)
  | _, .fixnum _ =>
    let c ← characterArgument value
    match convert c with
    | [single] => return .ofChar single
    | _ => return value
  | _, _ => wrongType Symbols.charOrStringP value

def upcase : Value → Storage Value := convertCase upperCase upperCaseText

def downcase : Value → Storage Value := convertCase lowerCase lowerCaseText

/-- The text of a string or the name of a symbol. -/
def textOf (value : Value) : Storage String := do
  match value with
  | .symbol index => return ((← symbols).get index).name
  | _ => stringArgument value

def stringEqual (a b : Value) : Storage Value := do
  let textA ← textOf a
  let textB ← textOf b
  return .ofBool (textA == textB)

/-- Whether a text comes before another by its characters' codes. -/
def stringLess (a b : Value) : Storage Value := do
  let textA ← textOf a
  let textB ← textOf b
  return .ofBool (textA < textB)

def numberToString (value : Value) : Storage Value := do
  if !(← get).heap.isNumber value then wrongType Symbols.numberp value
  makeString (← print .readable value)

/-- The number at the start of a string, after blanks; zero if there is none. -/
def stringToNumber (value : Value) : Storage Value := do
  let text ← stringArgument value
  let numeral := leadingNumeral (text.toList.dropWhile isBlank)
  match (parseInteger? numeral).bind Value.ofInt? with
  | some integer => return integer
  | none =>
    match parseDecimal? numeral with
    | some x => makeFloat (.ofFloat x)
    | none => return .fixnum 0

def charToString (value : Value) : Storage Value := do
  makeString (String.singleton (← characterArgument value))

/-- A string of one character repeated. -/
def repeatCharacter (count character : Value) : Storage Value := do
  let n ← naturalArgument count
  let c ← characterArgument character
  makeString (String.ofList (List.replicate n c))

end Storage

end LispMachine
