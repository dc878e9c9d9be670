import LispMachine.Toml.Scalar
import LispMachine.Toml.Table
import LispMachine.Toml.Text

/-!
Documents of TOML: lines that give a key a value or name the table to which the following lines
belong. Keys can be bare, quoted and dotted.
-/

set_option autoImplicit false

namespace LispMachine.Toml

/-- How deep arrays and tables in braces may nest. -/
def maxNesting : Nat := 79

/-- How many parts a key may have. -/
def maxKeyParts : Nat := 79

/-- Whether a character may stand in a bare key. -/
def isBareKeyChar (c : Char) : Bool := c.isAlphanum || c == '_' || c == '-'

/-- One part of a key, with blanks around it. -/
def keyPart : Reader String := do
  blanks
  let part ← basicString <|> literalString <|> String.ofList <$> Reader.runSome isBareKeyChar
  blanks
  return part

/-- A key: parts divided by points. -/
def key : Reader (List String) := do
  let parts ← Reader.separated keyPart (Reader.char '.')
  if maxKeyParts < parts.length then failure
  return parts

/-- A key and its value. -/
def keyAndValue (value : Reader Value) : Reader (List String × Value) := do
  let key ← key
  Reader.char '='
  blanks
  return (key, ← value)

/-- The items of an array after its opening bracket. They may stand on several lines, with a comma
after the last one. -/
def items (value : Reader Value) : Reader (List Value) := do
  let item : Reader Value := do
    space
    let item ← value
    space
    return item
  let items ← Reader.optional? do
    let items ← Reader.separated item (Reader.char ',')
    let _ ← Reader.optional? (Reader.char ',')
    return items
  space
  Reader.char ']'
  return items.getD []

/-- The fields of a table in braces after its opening brace. They stand on one line. -/
def inlineFields (value : Reader Value) : Reader Fields := do
  let field : Reader (List String × Value) := do
    let field ← keyAndValue value
    blanks
    return field
  let fields ← Reader.optional? (Reader.separated field (Reader.char ','))
  blanks
  Reader.char '\x7d'
  (fields.getD []).foldlM (fun fields (key, value) => fields.addAt .header key value) []

/-- A value that holds no others. -/
def scalar : Reader Value :=
  .string <$> string <|> (do dateTime; return .unkept) <|> (do float; return .unkept) <|>
    .int <$> integer <|> (do Reader.word "true"; return .bool true) <|>
    (do Reader.word "false"; return .bool false)

/-- A value in which arrays and tables may nest so deep. -/
def value : Nat → Reader Value
  | 0 => scalar
  | deeper + 1 => do
    match ← Reader.peek? with
    | some '[' =>
      Reader.char '['
      .array <$> items (value deeper)
    | some '\x7b' =>
      Reader.char '\x7b'
      .inline <$> inlineFields (value deeper)
    | _ => scalar

/-- A document under construction: all its fields, and the table that lines belong to. -/
structure Draft where
  fields : Fields := []
  table : List String := []

/-- A line of a document. -/
inductive Line where
  | empty
  | field (key : List String) (value : Value)
  | header (table : List String)
  | headerOfNext (table : List String)

/-- One line, with its end. -/
def line : Reader Line := do
  blanks
  (do
    Reader.word "[["
    let table ← key
    Reader.word "]]"
    endOfLine
    return .headerOfNext table) <|> (do
    Reader.char '['
    let table ← key
    Reader.char ']'
    endOfLine
    return .header table) <|> (do
    let (key, value) ← keyAndValue (value maxNesting)
    endOfLine
    return .field key value) <|> (do
    let _ ← Reader.optional? comment
    newline
    return .empty)

namespace Draft

/-- The document with another line. -/
def add (draft : Draft) (line : Line) : Option Draft :=
  match line with
  | .empty => some draft
  | .field key value => do
    let fields ← draft.fields.changeAt .implied
      (fun origin fields => fields.addAt origin key value) draft.table .header
    return { draft with fields := fields }
  | .header table => do
    let last ← table.getLast?
    let fields ← draft.fields.changeAt .implied (fun _ fields => fields.define last)
      table.dropLast .header
    return ⟨fields, table⟩
  | .headerOfNext table => do
    let last ← table.getLast?
    let fields ← draft.fields.changeAt .implied (fun _ fields => fields.defineNext last)
      table.dropLast .header
    return ⟨fields, table⟩

end Draft

/-- A whole document, which may start with a byte order mark. -/
def document : Reader Fields := do
  let _ ← Reader.optional? (Reader.char '\ufeff')
  let lines ← Reader.many line
  blanks
  let _ ← Reader.optional? comment
  Reader.finish
  let draft ← lines.foldlM (fun (draft : Draft) line => draft.add line) {}
  return draft.fields

/-- The fields of the document that a text spells. -/
def parse? (text : String) : Option Fields := (document text.toList).map Prod.fst

end LispMachine.Toml
