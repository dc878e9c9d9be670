import LispMachine.Fault
import LispMachine.Json.Basic
import LispMachine.Template
import LispMachine.Text.Blank
import LispMachine.Text.Quoted

/-!
Programs as they are written in files: a function with its helpers, whose code, constants and
parameters are still spelled out.
-/

set_option autoImplicit false

namespace LispMachine

/-- How the code of a program is spelled. -/
inductive CodeSpelling where
  | bytes (bytes : Array UInt8)
  /-- Pairs of hexadecimal digits, with blanks anywhere. -/
  | hexadecimal (digits : String)

/-- How the parameters of a program are spelled. -/
inductive ParameterSpelling where
  | template (mandatory positional : Nat) (rest : Bool)
  /-- A template packed into an integer. -/
  | packed (packed : Int)
  /-- The names of dynamic parameters. -/
  | names (names : List String)

/-- A program file. -/
inductive ProgramFile where
  | mk (name : Option String) (code : CodeSpelling) (constants : List Json)
    (maxDepth : Option Nat) (parameters : Option ParameterSpelling)
    (functions : List ProgramFile)

/-- The name of the function that a program file describes. -/
def ProgramFile.name : ProgramFile → Option String
  | .mk name _ _ _ _ _ => name

/-- Why a program or a literal is refused. -/
inductive LoadError where
  /-- The text is no JSON, or the JSON has not the form of a program. -/
  | malformed
  | helperWithoutName
  | oddHexadecimal
  | notHexadecimal (pair : String)
  | template (reason : TemplateError)
  | unknownDepth (fault : Fault)
  | severalTags
  | notOneCharacter (text : String)
  | unknownTag (tag : String)
  deriving DecidableEq

/-- The refusal in words; that of malformed text is left to the reader of the text. -/
def LoadError.message : LoadError → String
  | .malformed => "malformed program file"
  | .helperWithoutName => "helper functions need a name"
  | .oddHexadecimal => "hex code has an odd number of digits"
  | .notHexadecimal pair => s!"bad hex byte {quoted pair}"
  | .template reason => reason.message
  | .unknownDepth fault => s!"cannot size the operand stack: {fault.message}"
  | .severalTags => "tagged literal must have exactly one key"
  | .notOneCharacter text => s!"char literal {quoted text} is not one character"
  | .unknownTag tag => s!"unknown literal tag {quoted tag}"

/-- The value of a hexadecimal digit. -/
def hexDigitValue? (c : Char) : Option Nat :=
  if '0' ≤ c && c ≤ '9' then some (c.toNat - '0'.toNat)
  else if 'a' ≤ c && c ≤ 'f' then some (c.toNat - 'a'.toNat + 10)
  else if 'A' ≤ c && c ≤ 'F' then some (c.toNat - 'A'.toNat + 10)
  else none

/-- The byte that a pair spells: two hexadecimal digits, or a plus sign and one. -/
def hexPairValue? (first second : Char) : Option Nat := do
  let low ← hexDigitValue? second
  if first = '+' then return low
  return 16 * (← hexDigitValue? first) + low

/-- The bytes that pairs of hexadecimal digits spell. -/
def hexBytes : List Char → Except LoadError (List UInt8)
  | [] => .ok []
  | [_] => .error .oddHexadecimal
  | first :: second :: rest => do
    match hexPairValue? first second with
    | some byte => return UInt8.ofNat byte :: (← hexBytes rest)
    | none => throw (.notHexadecimal (String.ofList [first, second]))

/-- The bytes of a code spelling. -/
def CodeSpelling.toCode : CodeSpelling → Except LoadError (Array UInt8)
  | .bytes code => .ok code
  | .hexadecimal digits => do
    let digits := digits.toList.filter fun c => !isBlank c
    if digits.length % 2 ≠ 0 then throw .oddHexadecimal
    return (← hexBytes digits).toArray

end LispMachine
