import LispMachine.Evaluation
import LispMachine.Primitive.Argument
import LispMachine.Printing

/-!
The primitives that control a run: raising signals, applying functions, evaluating and printing;
and the operations that put entries on the binding log or run a body under a handler.
-/

set_option autoImplicit false

namespace LispMachine

namespace Storage

open LispMachine.Action

/-! ### Raising signals -/

/-- Raise an error. The symbol nil with a cons as data raises again what a handler received. -/
def raise (symbol data : Value) : Storage Value := do
  if symbol.isNil && (← get).heap.isCons data then
    let raised ← car data
    let rest ← cdr data
    signal ⟨raised, rest⟩
  signal ⟨symbol, data⟩

/-- The text of a format with the directives `%s`, `%S`, `%d` and `%%`, of which the first three
print the next argument. -/
def formatText : List Char → List Value → Storage (List Char)
  | [], _ => return []
  | '%' :: '%' :: rest, arguments => return '%' :: (← formatText rest arguments)
  | '%' :: directive :: rest, arguments => do
    if directive = 's' || directive = 'S' || directive = 'd' then
      match arguments with
      | [] => errorMessage "Not enough arguments for format string"
      | value :: arguments =>
        if directive = 'd' && !(← get).heap.isNumber value then wrongType Symbols.numberp value
        let text ← print (if directive = 'S' then .readable else .plain) value
        return text.toList ++ (← formatText rest arguments)
    else errorMessage s!"Invalid format operation %{directive}"
  | ['%'], _ => errorMessage "Invalid format operation %"
  | c :: rest, arguments => return c :: (← formatText rest arguments)

/-- The text of a format string with its arguments. -/
def formatArguments (arguments : List Value) : Storage String := do
  let control ← stringArgument (argument arguments 0)
  return String.ofList (← formatText control.toList (arguments.drop 1))

def format (arguments : List Value) : Storage Value := do
  makeString (← formatArguments arguments)

/-- Raise an error with a formatted message. -/
def raiseFormatted (arguments : List Value) : Storage Value := do
  errorMessage (← formatArguments arguments)

/-! ### Printing -/

def printToString (value plain : Value) : Storage Value := do
  makeString (← print (if plain.isNil then .readable else .plain) value)

/-- Where printed text goes: to the given destination or the value of `standard-output`. -/
def outputDestination (destination : Value) : Storage Value := do
  match destination.given? with
  | some value => return value
  | none =>
    match ← attempt (symbolValue Symbols.standardOutput) with
    | .ok value => return value
    | .error _ => return .t

/-! ### Handler clauses -/

/-- The conditions that the heads of handler clauses name. -/
def clauseConditions : List Value → Storage (List Value)
  | [] => return []
  | clause :: clauses => do
    let head ← car clause
    let named ←
      match head with
      | .symbol _ => pure [head]
      | _ => elements head
    return named ++ (← clauseConditions clauses)

/-- The first clause whose head covers an error with the given conditions, nil if none does. -/
def coveringClause (conditions : List Value) : List Value → Storage Value
  | [] => return .nil
  | clause :: clauses => do
    if ← coversConditions conditions ((← get).heap.carSafe clause) then return clause
    else coveringClause conditions clauses

end Storage

namespace Engine

open LispMachine.Action Storage

/-! ### Applying and evaluating -/

def funcallArguments (caller : Caller) (arguments : List Value) : Engine Value :=
  caller.apply (argument arguments 0) (arguments.drop 1)

/-- Apply a function to arguments of which the last is a list of further ones. -/
def applySpread (caller : Caller) (arguments : List Value) : Engine Value := do
  match arguments.getLast? with
  | none => return .nil
  | some last =>
    match arguments.dropLast ++ (← elements last) with
    | [] => error Symbols.wrongNumberOfArguments [Symbols.many, .fixnum 0]
    | function :: rest => caller.apply function rest

/-! ### Printing through functions -/

/-- Give the characters of a text to a function, one after the other. -/
def printThrough (caller : Caller) (function : Value) : List Char → Engine Unit
  | [] => return ()
  | c :: rest => do
    let _ ← caller.apply function [.ofChar c]
    printThrough caller function rest

/-- Print a text: into a buffer, through a function, or to the output of the machine. -/
def writeText (caller : Caller) (destination : Value) (text : String) : Engine Unit := do
  let destination ← outputDestination destination
  match ← object? destination with
  | some (.buffer index) => withBuffer index (insertText text)
  | _ =>
    if (← store).isFunction destination then printThrough caller destination text.toList
    else writeOutput text

/-- Print a value and give it back. -/
def printTo (caller : Caller) (style : PrintStyle) (value destination : Value) :
    Engine Value := do
  writeText caller destination (← print style value)
  return value

/-! ### Entries of the binding log -/

def saveCurrentBuffer : Engine Value := do
  logBinding (.currentBuffer (← currentBufferIndex))
  return .nil

def saveExcursion : Engine Value := do
  let index ← currentBufferIndex
  let point ← makeMarker index (← currentBuffer).point
  logBinding (.excursion index point)
  return .nil

def saveRestriction : Engine Value := do
  let index ← currentBufferIndex
  let buffer ← currentBuffer
  if buffer.isNarrowed then
    let low ← makeMarker index buffer.start
    let high ← makeMarker index buffer.finish
    logBinding (.restriction index (some (low, high)))
  else logBinding (.restriction index none)
  return .nil

/-- Note a function to call, or forms to evaluate, when the log is unwound. -/
def unwindProtect (handler : Value) : Engine Value := do
  logBinding (.unwindProtect handler)
  return .nil

/-- Empty a buffer and bind `standard-output` to it. -/
def openOutputBuffer (name : Value) : Engine Value := do
  let buffer ← bufferNamed (← stringArgument name)
  let index ← bufferIndex buffer
  withBuffer index eraseBuffer
  bindVariable Symbols.standardOutput buffer
  return buffer

/-- Undo the newest entry of the log and give the result of the body. -/
def closeOutputBuffer (caller : Caller) (result : Value) : Engine Value := do
  unbind caller 1
  return result

/-! ### Bodies under handlers -/

def catchForm (caller : Caller) (tag body : Value) : Engine Value :=
  catchIn caller tag (caller.eval body)

/-- Evaluate a body; an error that some clause covers is bound to the variable while the body of
the first such clause is evaluated. -/
def conditionCase (caller : Caller) (variableName body handlers : Value) : Engine Value := do
  let clauses ← elements handlers
  let conditions ← list (← clauseConditions clauses)
  match ← conditionCaseIn caller conditions (caller.eval body) with
  | .returned value => return value
  | .caught payload =>
    let symbol ← car payload
    let raised ← errorConditions symbol
    let clause ← coveringClause raised clauses
    let clauseBody := (← heap).cdrSafe clause
    withBindings caller
      (if variableName.isNil then return () else bindVariable variableName payload) clauseBody

end Engine

end LispMachine
