import LispMachine.Json.Number

/-!
Reading JSON text. `Json.parse?` accepts exactly one value with blanks around it. A text that is
no JSON gives `none`; a text whose numbers or characters cannot be represented is accepted, with
`Json.unreadable` in their place.
-/

set_option autoImplicit false

namespace LispMachine.Json

/-- What may stand between the parts of a value. -/
def isSpace (c : Char) : Bool := c == ' ' || c == '\n' || c == '\r' || c == '\t'

def skipSpace (chars : List Char) : List Char := chars.dropWhile isSpace

def digitValue (c : Char) : Nat := c.toNat - '0'.toNat

/-- The value of a hexadecimal digit. -/
def hexValue? (c : Char) : Option Nat :=
  if '0' ≤ c ∧ c ≤ '9' then some (c.toNat - '0'.toNat)
  else if 'a' ≤ c ∧ c ≤ 'f' then some (c.toNat - 'a'.toNat + 10)
  else if 'A' ≤ c ∧ c ≤ 'F' then some (c.toNat - 'A'.toNat + 10)
  else none

/-- Four hexadecimal digits. -/
def hexQuad? : List Char → Option (Nat × List Char)
  | a :: b :: c :: d :: rest => do
    let a ← hexValue? a
    let b ← hexValue? b
    let c ← hexValue? c
    let d ← hexValue? d
    return (((a * 16 + b) * 16 + c) * 16 + d, rest)
  | _ => none

def isLeadSurrogate (unit : Nat) : Bool := 0xd800 ≤ unit && unit ≤ 0xdbff

def isTrailSurrogate (unit : Nat) : Bool := 0xdc00 ≤ unit && unit ≤ 0xdfff

/-- The character of an escape that starts with the code unit `unit`: a surrogate needs its
partner, which is then read too. -/
def unicodeEscape (unit : Nat) (rest : List Char) : Option Char × List Char :=
  if isTrailSurrogate unit then (none, rest)
  else if isLeadSurrogate unit then
    match rest with
    | '\\' :: 'u' :: more =>
      match hexQuad? more with
      | some (partner, after) =>
        if isTrailSurrogate partner then
          (some (Char.ofNat (0x10000 + (unit - 0xd800) * 0x400 + (partner - 0xdc00))), after)
        else (none, rest)
      | none => (none, rest)
    | _ => (none, rest)
  else (some (Char.ofNat unit), rest)

/-- The single-letter escapes. -/
def letterEscape? : Char → Option Char
  | '"' => some '"'
  | '\\' => some '\\'
  | '/' => some '/'
  | 'b' => some '\x08'
  | 'f' => some '\x0c'
  | 'n' => some '\n'
  | 'r' => some '\r'
  | 't' => some '\t'
  | _ => none

/-- The rest of a string after its opening quote. `text` holds what was read so far, in reverse
order, `none` once it cannot be represented. Every round reads a character, so the length of the
input is fuel enough. -/
def stringBody : Nat → Option (List Char) → List Char → Option (Option String × List Char)
  | 0, _, _ => none
  | _ + 1, _, [] => none
  | fuel + 1, text, c :: rest =>
    if c = '"' then some (text.map fun chars => String.ofList chars.reverse, rest)
    else if c = '\\' then
      match rest with
      | 'u' :: digits =>
        match hexQuad? digits with
        | some (unit, after) =>
          let (escaped, after) := unicodeEscape unit after
          stringBody fuel (do return (← escaped) :: (← text)) after
        | none => none
      | letter :: after =>
        match letterEscape? letter with
        | some escaped => stringBody fuel (text.map (escaped :: ·)) after
        | none => none
      | [] => none
    else if c.toNat < 0x20 then none
    else stringBody fuel (text.map (c :: ·)) rest

/-- The digits at the start, with what follows them. -/
def digits (chars : List Char) : List Nat × List Char :=
  ((chars.takeWhile Char.isDigit).map digitValue, chars.dropWhile Char.isDigit)

/-- The digits before the point: no leading zero unless it stands alone. -/
def wholePart? (chars : List Char) : Option (List Nat × List Char) :=
  match digits chars with
  | ([], _) => none
  | (0 :: _ :: _, _) => none
  | read => some read

/-- The point and the digits after it, if there is a point. -/
def fractionPart? : List Char → Option (Option (List Nat) × List Char)
  | '.' :: rest =>
    match digits rest with
    | ([], _) => none
    | (read, after) => some (some read, after)
  | chars => some (none, chars)

/-- The exponent, if there is one. -/
def exponentPart? (chars : List Char) : Option (Option (Bool × List Nat) × List Char) :=
  match chars with
  | [] => some (none, chars)
  | mark :: rest =>
    if mark = 'e' ∨ mark = 'E' then
      let (minus, rest) :=
        match rest with
        | '+' :: more => (false, more)
        | '-' :: more => (true, more)
        | _ => (false, rest)
      match digits rest with
      | ([], _) => none
      | (read, after) => some (some (minus, read), after)
    else some (none, chars)

/-- A number. -/
def number? (chars : List Char) : Option (Json × List Char) := do
  let (negative, chars) :=
    match chars with
    | '-' :: rest => (true, rest)
    | _ => (false, chars)
  let (whole, chars) ← wholePart? chars
  let (fraction, chars) ← fractionPart? chars
  let (exponent, chars) ← exponentPart? chars
  return (ofSpelling ⟨negative, whole, fraction, exponent⟩, chars)

/-- A field name and the colon after it. -/
def fieldName? (chars : List Char) : Option (Option String × List Char) :=
  match skipSpace chars with
  | '"' :: rest => do
    let (name, rest) ← stringBody (rest.length + 1) (some []) rest
    match skipSpace rest with
    | ':' :: rest => return (name, rest)
    | _ => none
  | _ => none

mutual

/-- A value, after any blanks. Every second step reads a character, so twice the length of the
input is fuel enough. -/
def value? : Nat → List Char → Option (Json × List Char)
  | 0, _ => none
  | fuel + 1, chars =>
    match skipSpace chars with
    | 'n' :: 'u' :: 'l' :: 'l' :: rest => some (.null, rest)
    | 't' :: 'r' :: 'u' :: 'e' :: rest => some (.bool true, rest)
    | 'f' :: 'a' :: 'l' :: 's' :: 'e' :: rest => some (.bool false, rest)
    | '"' :: rest =>
      match stringBody (rest.length + 1) (some []) rest with
      | some (some text, after) => some (.string text, after)
      | some (none, after) => some (.unreadable, after)
      | none => none
    | '[' :: rest =>
      match skipSpace rest with
      | ']' :: after => some (.array [], after)
      | _ => items? fuel [] rest
    | '\x7b' :: rest =>
      match skipSpace rest with
      | '\x7d' :: after => some (.object [], after)
      | _ => fields? fuel (some []) rest
    | rest => number? rest

/-- The items of an array, after those of `read` (in reverse order). -/
def items? : Nat → List Json → List Char → Option (Json × List Char)
  | 0, _, _ => none
  | fuel + 1, read, chars =>
    match value? fuel chars with
    | none => none
    | some (item, rest) =>
      match skipSpace rest with
      | ',' :: more => items? fuel (item :: read) more
      | ']' :: after => some (.array (item :: read).reverse, after)
      | _ => none

/-- The fields of an object, after those of `read` (in reverse order), which is `none` once a
name cannot be represented. -/
def fields? : Nat → Option (List (String × Json)) → List Char → Option (Json × List Char)
  | 0, _, _ => none
  | fuel + 1, read, chars =>
    match fieldName? chars with
    | none => none
    | some (name, rest) =>
      match value? fuel rest with
      | none => none
      | some (item, rest) =>
        let read := do return ((← name), item) :: (← read)
        match skipSpace rest with
        | ',' :: more => fields? fuel read more
        | '\x7d' :: after =>
          some ((read.map fun fields => object fields.reverse).getD .unreadable, after)
        | _ => none

end

/-- The value that a text spells, if it spells one. -/
def parse? (text : String) : Option Json :=
  let chars := text.toList
  match value? (2 * chars.length + 2) chars with
  | some (value, rest) => if (skipSpace rest).isEmpty then some value else none
  | none => none

end LispMachine.Json
