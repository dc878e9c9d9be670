/-!
JSON values as the machine reads them. Whole numbers and other numbers are kept apart, because a
literal spelled with a point or an exponent is a float whatever its value. The fields of an
object keep the order and the repetitions of the text. A value can be *unreadable*: well formed,
but with a number or a character that cannot be represented; such a value does no harm where it
is passed over.
-/

set_option autoImplicit false

namespace LispMachine

/-- A JSON value. -/
inductive Json where
  | null
  | bool (b : Bool)
  | int (n : Int)
  | float (x : Float)
  | string (text : String)
  | array (items : List Json)
  | object (fields : List (String × Json))
  | unreadable

namespace Json

instance : Inhabited Json := ⟨null⟩

mutual

/-- Whether nothing in the value is unreadable and containers nest at most `limit` deep. -/
def isReadable : Nat → Json → Bool
  | _, .unreadable => false
  | 0, .array _ => false
  | 0, .object _ => false
  | limit + 1, .array items => areReadable limit items
  | limit + 1, .object fields => fieldsReadable limit fields
  | _, _ => true

def areReadable : Nat → List Json → Bool
  | _, [] => true
  | limit, item :: items => isReadable limit item && areReadable limit items

def fieldsReadable : Nat → List (String × Json) → Bool
  | _, [] => true
  | limit, (_, item) :: fields => isReadable limit item && fieldsReadable limit fields

end

/-- The fields with repeated names reduced to the last of them. -/
def lastFields : List (String × Json) → List (String × Json)
  | [] => []
  | (name, value) :: rest =>
    if rest.any fun field => field.1 == name then lastFields rest
    else (name, value) :: lastFields rest

/-- The last field of an object with a given name. -/
def field? (value : Json) (name : String) : Option Json :=
  match value with
  | .object fields => (fields.reverse.find? fun field => field.1 == name).map Prod.snd
  | _ => none

end Json

end LispMachine
