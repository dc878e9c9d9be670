/-!
Values of TOML and the tables that hold them. A table is defined once: by a header, by braces, or
by the dotted keys under which its fields are given. A header may still define a table that other
headers have only passed through.
-/

set_option autoImplicit false

namespace LispMachine.Toml

/-- How a table of a document came to be. -/
inductive TableOrigin where
  /-- A header names it. -/
  | header
  /-- It lies above a table that a header names. -/
  | implied
  /-- It lies above a key with points. -/
  | dotted
  deriving DecidableEq

/-- A value. Floats, dates and times are not kept. -/
inductive Value where
  | bool (b : Bool)
  | int (n : Int)
  | string (text : String)
  | unkept
  | array (items : List Value)
  /-- A table in braces, which cannot be extended. -/
  | inline (fields : List (String × Value))
  | table (origin : TableOrigin) (fields : List (String × Value))
  /-- Tables that a header with doubled brackets names, one for each time. -/
  | tables (elements : List (List (String × Value)))

/-- The fields of a table. -/
abbrev Fields := List (String × Value)

namespace Fields

/-- Give a field another value. -/
def replace (fields : Fields) (key : String) (value : Value) : Fields :=
  fields.map fun field => if field.1 == key then (key, value) else field

/-- Change the table at the end of a path. Tables that are missing on the way are made, as `made`
tells; a key with points must not pass through a table that a header has defined. Of several
tables under one header the last is meant. -/
def changeAt (made : TableOrigin) (change : TableOrigin → Fields → Option Fields) :
    List String → TableOrigin → Fields → Option Fields
  | [], origin, fields => change origin fields
  | key :: path, _, fields =>
    match fields.lookup key with
    | none => do
      let inner ← changeAt made change path made []
      return fields ++ [(key, .table made inner)]
    | some (.table origin inner) => do
      if made = .dotted ∧ origin = .header then failure
      let inner ← changeAt made change path origin inner
      return fields.replace key (.table origin inner)
    | some (.tables elements) => do
      let last ← changeAt made change path .header (← elements.getLast?)
      return fields.replace key (.tables (elements.dropLast ++ [last]))
    | some _ => none

/-- Add a field with a key that is not there yet. -/
def add (fields : Fields) (key : String) (value : Value) : Option Fields :=
  if (fields.lookup key).isSome then none else some (fields ++ [(key, value)])

/-- Add a field whose key has points: all parts but the last name tables. Those tables must be
ones that dotted keys have made. -/
def addAt (fields : Fields) (origin : TableOrigin) (key : List String) (value : Value) :
    Option Fields := do
  let last ← key.getLast?
  let above := key.dropLast
  changeAt .dotted
    (fun origin fields =>
      if !above.isEmpty && origin != .dotted then none else fields.add last value)
    above origin fields

/-- Define a table that is new or has only been passed through. -/
def define (fields : Fields) (key : String) : Option Fields :=
  match fields.lookup key with
  | none => some (fields ++ [(key, .table .header [])])
  | some (.table .implied inner) => some (fields.replace key (.table .header inner))
  | some _ => none

/-- Start the next of several tables with one name. -/
def defineNext (fields : Fields) (key : String) : Option Fields :=
  match fields.lookup key with
  | none => some (fields ++ [(key, .tables [[]])])
  | some (.tables elements) => some (fields.replace key (.tables (elements ++ [[]])))
  | some _ => none

end Fields

end LispMachine.Toml
