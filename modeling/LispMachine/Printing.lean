import LispMachine.Decimal.FloatText
import LispMachine.Store

/-!
The printed form of values and the description of signals. A value prints either so that it can
be read back, with strings in quotes, or plainly. Parts nested more than `maxPrintDepth` levels
deep, and the items of a list after the first `maxPrintLength`, print as an ellipsis, so circular
structures have a printed form as well.
-/

set_option autoImplicit false

namespace LispMachine

/-- How many levels of nested parts are printed. -/
def maxPrintDepth : Nat := 200

/-- How many items of a list are printed. -/
def maxPrintLength : Nat := 10000

/-- What stands for the parts that are left out. -/
def ellipsis : String := "..."

/-- Floats print with the fewest digits that read back; a power of ten from 10^16 on or below
10^-4 has its exponent written. -/
def printedFloat : FloatFormat :=
  ⟨-4, 16, "0.0", "-0.0", "1.0e+INF", "-1.0e+INF", "0.0e+NaN", "-0.0e+NaN"⟩

/-- Whether strings print with quotes. -/
inductive PrintStyle where
  | readable
  | plain
  deriving DecidableEq

/-- A string between quotes, with a backslash before each quote and backslash. -/
def quotedString (text : String) : String :=
  let escaped := text.toList.flatMap fun c => if c = '"' || c = '\\' then ['\\', c] else [c]
  String.ofList ('"' :: (escaped ++ ['"']))

namespace Store

/-- The items of a list and its tail as they print after the opening parenthesis, where
`printItem` prints one item and `room` more items may be printed. -/
def printTail (heap : Heap) (printItem : Value → String) : Nat → Value → List String
  | room, tail =>
    match heap.cons? tail with
    | none => if tail.isNil then [] else [".", printItem tail]
    | some (car, cdr) =>
      match room with
      | 0 => [ellipsis]
      | room + 1 => printItem car :: printTail heap printItem room cdr

/-- The printed form of a value, of which `levels` levels are shown. -/
def printWithin (store : Store) (style : PrintStyle) : Nat → Value → String
  | 0, _ => ellipsis
  | levels + 1, value =>
    match value with
    | .fixnum n => toString n
    | .symbol index => (store.symbols.get index).name
    | .object address =>
      match store.heap.objects[address]? with
      | none => ""
      | some (.cons _ _) =>
        let parts := printTail store.heap (printWithin store style levels) maxPrintLength value
        "(" ++ String.intercalate " " parts ++ ")"
      | some (.float x) => printedFloat.text x
      | some (.string text) => if style = .readable then quotedString text else text
      | some (.vector items) =>
        "[" ++ String.intercalate " " (items.toList.map (printWithin store style levels)) ++ "]"
      | some (.function _ name) => s!"#<bytecode {name}>"
      | some (.primitive _ name) => s!"#<subr {name}>"
      | some (.buffer index) => s!"#<buffer {(store.buffers.get index).name}>"
      | some (.marker ⟨some buffer, position⟩) =>
        s!"#<marker at {position} in {(store.buffers.get buffer).name}>"
      | some (.marker ⟨none, _⟩) => "#<marker in no buffer>"

/-- The printed form of a value. -/
def print (store : Store) (style : PrintStyle) (value : Value) : String :=
  store.printWithin style (maxPrintDepth + 1) value

/-- The printed form that reads back. -/
def printed (store : Store) (value : Value) : String := store.print .readable value

/-- The message that belongs to an error symbol, if it has one. -/
def errorMessage? (store : Store) : Value → Option String
  | .symbol index =>
    (store.symbols.property? index Symbols.errorMessage).bind store.heap.string?
  | _ => none

/-- A signal in one line. -/
def describe (store : Store) : Signal → String
  | .error symbol data =>
    let name := store.printed symbol
    match store.errorMessage? symbol with
    | some message =>
      if data.isNil then s!"{message} ({name})"
      else s!"{message} ({name}): {store.printed data}"
    | none => s!"{name}: {store.printed data}"
  | .thrown tag value => s!"uncaught throw to {store.printed tag} with {store.printed value}"
  | .fatal fault => s!"fatal: {fault.message}"

/-- What kind of exit an uncaught signal is. -/
def heading : Signal → String
  | .fatal _ => "Fatal Error"
  | .thrown _ _ => "Uncaught Throw"
  | .error _ _ => "Lisp Error"

/-- The report of an uncaught signal, with the place where it was met if one is given. -/
def report (store : Store) (signal : Signal) (context : Option String) : String :=
  let first := s!"{heading signal}: {store.describe signal}\n"
  match context with
  | some place => first ++ s!"  --> {place}\n"
  | none => first

end Store

namespace Storage

/-- The printed form of a value as the store is now. -/
def print (style : PrintStyle) (value : Value) : Storage String := do
  return (← get).print style value

end Storage

end LispMachine
