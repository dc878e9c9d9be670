import LispMachine.Json.Parser
import LispMachine.Program.Basic

/-!
Reading program files from JSON. A program is an object with named fields, or an array with the
same fields in a fixed order. Fields that are no part of a program are passed over unread. In a
text no field may be given twice and containers nest at most `maxNesting` deep; in a value that
was read before, the last of several fields of one name has already won.
-/

set_option autoImplicit false

namespace LispMachine

namespace ProgramFile

/-- How deep containers may nest in a text. -/
def maxNesting : Nat := 127

/-- Where the JSON of a program comes from. -/
inductive Origin where
  | text
  | value
  deriving DecidableEq

/-- A field of a program file: absent, given once, or given more often than allowed. -/
def fieldOf (origin : Origin) (fields : List (String × Json)) (name : String) :
    Option (Option Json) :=
  match fields.filter fun field => field.1 == name with
  | [] => some none
  | [field] => some (some field.2)
  | several => if origin = .text then none else some (several.getLast?.map Prod.snd)

/-- The natural number of 64 bits in a JSON value. -/
def natural? : Json → Option Nat
  | .int n => if 0 ≤ n ∧ n < 0x10000000000000000 then some n.toNat else none
  | _ => none

def bool? : Json → Option Bool
  | .bool b => some b
  | _ => none

def string? : Json → Option String
  | .string text => some text
  | _ => none

/-- The byte in a JSON value. -/
def byte? (value : Json) : Option UInt8 :=
  (natural? value).bind fun n => if n < 256 then some (UInt8.ofNat n) else none

/-- The spelling of code. -/
def codeSpelling? : Json → Option CodeSpelling
  | .array items => (items.mapM byte?).map fun bytes => .bytes bytes.toArray
  | .string digits => some (.hexadecimal digits)
  | _ => none

/-- The spelling of parameters: the fields of a template, of which the rest flag may be absent, a
packed template, or names. -/
def parameterSpelling? (origin : Origin) : Json → Option ParameterSpelling
  | .object fields => do
    let mandatory ← natural? (← (← fieldOf origin fields "mandatory"))
    let positional ← natural? (← (← fieldOf origin fields "nonrest"))
    let rest ← match ← fieldOf origin fields "rest" with
      | some value => bool? value
      | none => some false
    return .template mandatory positional rest
  | .int n => if -0x8000000000000000 ≤ n ∧ n < 0x8000000000000000 then some (.packed n) else none
  | .array items => (items.mapM string?).map .names
  | _ => none

/-- An optional field: null counts as absent. -/
def optionalField? {α : Type} (read : Json → Option α) : Option Json → Option (Option α)
  | none | some .null => some none
  | some value => (read value).map some

/-- A field with a list, which is empty if it is absent. -/
def listField? {α : Type} (read : Json → Option α) : Option Json → Option (List α)
  | none => some []
  | some (.array items) => items.mapM read
  | some _ => none

/-- The six fields of a program file, in the order of an array. -/
def fieldNames : List String :=
  ["name", "code", "constants", "maxdepth", "arglist", "functions"]

/-- The fields of a program file that is an object or an array. -/
def fields? (origin : Origin) : Json → Option (List (Option Json))
  | .object fields => fieldNames.mapM (fieldOf origin fields)
  | .array items =>
    if items.length ≤ fieldNames.length then
      some (items.map some ++ List.replicate (fieldNames.length - items.length) none)
    else none
  | _ => none

/-- The program file in a JSON value whose containers may nest so deep. -/
def ofJson? (origin : Origin) : Nat → Json → Option ProgramFile
  | 0, _ => none
  | nesting + 1, value => do
    match ← fields? origin value with
    | [name, some code, constants, maxDepth, parameters, functions] =>
      let name ← optionalField? string? name
      if !code.isReadable nesting then failure
      let code ← codeSpelling? code
      if !(constants.all fun value => value.isReadable nesting) then failure
      let constants ← listField? some constants
      let maxDepth ← optionalField? natural? maxDepth
      if !(parameters.all fun value => value.isReadable nesting) then failure
      let parameters ← optionalField? (parameterSpelling? origin) parameters
      let functions ← match nesting, functions with
        | _, none => some []
        | deeper + 1, some (.array items) => items.mapM (ofJson? origin deeper)
        | _, _ => none
      return .mk name code constants maxDepth parameters functions
    | _ => none

/-- The program file in a text. -/
def ofText? (text : String) : Option ProgramFile := do
  ofJson? .text maxNesting (← Json.parse? text)

/-- The program file in a value that was read before. -/
def ofValue? (value : Json) : Option ProgramFile := ofJson? .value maxNesting value

end ProgramFile

end LispMachine
