import LispMachine.Json.Parser
import LispMachine.Toml.Reader

/-!
Strings of TOML. They stand on one line, or between tripled quotes on several. Between double
quotes a backslash starts an escape; between single quotes every character stands for itself.
-/

set_option autoImplicit false

namespace LispMachine.Toml

/-- The character of a code point with so many hexadecimal digits. -/
def codePoint (count : Nat) : Reader Char := do
  let digits ← Reader.exactly count fun c => (Json.hexValue? c).isSome
  let code := digits.foldl (fun n c => n * 16 + (Json.hexValue? c).getD 0) 0
  if code.isValidChar then return Char.ofNat code else failure

/-- The character that a backslash and what follows it stand for. -/
def escape : Reader Char := do
  Reader.char '\\'
  match ← Reader.one fun _ => true with
  | 'b' => return '\x08'
  | 't' => return '\t'
  | 'n' => return '\n'
  | 'f' => return '\x0c'
  | 'r' => return '\r'
  | '"' => return '"'
  | '\\' => return '\\'
  | 'u' => codePoint 4
  | 'U' => codePoint 8
  | _ => failure

/-- A string in double quotes on one line. -/
def basicString : Reader String := do
  Reader.char '"'
  let parts ← Reader.many
    (Reader.runSome (fun c => isPlain c && c != '"' && c != '\\') <|> (do return [← escape]))
  Reader.char '"'
  return String.ofList parts.flatten

/-- A string in single quotes on one line. -/
def literalString : Reader String := do
  Reader.char '\''
  let chars ← Reader.run fun c => isPlain c && c != '\''
  Reader.char '\''
  return String.ofList chars

/-- A backslash at the end of a line, with the blank lines and blanks that follow it. -/
def continuation : Reader Unit := do
  Reader.char '\\'
  blanks
  newline
  let _ ← Reader.many (newline <|> do let _ ← Reader.runSome isBlankChar)

/-- One or two quotes inside a string over several lines. -/
def innerQuotes (quote : Char) : Reader (List Char) := do
  let quotes ← Reader.runSome (· == quote)
  if 2 < quotes.length then failure
  return quotes

/-- A part of a string over several lines. -/
def longPart (quote : Char) (escapes : Bool) : Reader (List Char) := do
  Reader.runSome (fun c => isPlain c && c != quote && !(escapes && c == '\\')) <|>
    (do
      if !escapes then failure
      (do continuation; return []) <|> (do return [← escape])) <|>
    (do newline; return ['\n']) <|> innerQuotes quote

/-- The end of a string over several lines: three quotes, before which two more may stand that
belong to the string. -/
def longEnd (quote : Char) : Reader (List Char) := do
  let _ ← Reader.exactly 3 (· == quote)
  let more ← Reader.optional? (Reader.char quote)
  let last ← if more.isSome then Reader.optional? (Reader.char quote) else pure none
  return List.replicate (more.toList.length + last.toList.length) quote

/-- A string over several lines after its opening quotes. The end of a line right after them is no
part of it. -/
def longString (quote : Char) (escapes : Bool) : Reader String := do
  let _ ← Reader.exactly 3 (· == quote)
  let _ ← Reader.optional? newline
  let parts ← Reader.many (longPart quote escapes)
  let last ← longEnd quote
  return String.ofList (parts.flatten ++ last)

/-- A string of any kind. -/
def string : Reader String :=
  longString '"' true <|> basicString <|> longString '\'' false <|> literalString

end LispMachine.Toml
