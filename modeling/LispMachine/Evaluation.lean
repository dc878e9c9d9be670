import LispMachine.Checkpoint
import LispMachine.Dispatch

/-!
Evaluation of forms. A symbol evaluates to its value, a list whose head names a special form is
evaluated as that form says, any other list is a call whose arguments are evaluated from left to
right, and everything else evaluates to itself. The forms inside a form are evaluated by calling
`eval`, so a redefinition of `eval` takes effect.
-/

set_option autoImplicit false

namespace LispMachine

/-- The forms that do not evaluate all their arguments first, other than `quote`, `function` and
`progn`. -/
inductive SpecialForm where
  | ifForm
  | progOne
  | andForm
  | orForm
  | cond
  | whileForm
  | setq
  | letForm
  | letSequential

/-- The special form with a name. -/
def SpecialForm.ofName? : String → Option SpecialForm
  | "if" => some .ifForm
  | "prog1" => some .progOne
  | "and" => some .andForm
  | "or" => some .orForm
  | "cond" => some .cond
  | "while" => some .whileForm
  | "setq" => some .setq
  | "let" => some .letForm
  | "let*" => some .letSequential
  | _ => none

namespace Storage

/-- The variable and the form for its value in an item of a `let`. -/
def bindingParts (item : Value) : Storage (Value × Value) := do
  match item with
  | .symbol _ => return (item, .nil)
  | _ =>
    let symbol ← car item
    let rest ← cdr item
    return (symbol, ← car rest)

/-- The special form that the head of a list names. -/
def specialForm? (head : Value) : Storage (Option SpecialForm) := do
  match head with
  | .symbol index => return SpecialForm.ofName? ((← symbols).get index).name
  | _ => return none

end Storage

namespace Engine

open LispMachine.Action Storage

/-- Evaluate forms in order and give the value of the last one, or `last` if there is none. -/
def evaluateEach (caller : Caller) (last : Value) : List Value → Engine Value
  | [] => return last
  | form :: forms => do evaluateEach caller (← caller.eval form) forms

/-- Evaluate the forms of a list in order. -/
def progn (caller : Caller) (body : Value) : Engine Value := do
  evaluateEach caller .nil (← elements body)

/-- Make some bindings, evaluate a body, and undo them on every way out. -/
def withBindings (caller : Caller) (bindings : Engine Unit) (body : Value) : Engine Value := do
  let mark ← bindingMark
  unwindingTo caller mark do
    bindings
    progn caller body

/-- Evaluate forms until one is nil. -/
def evaluateAnd (caller : Caller) (last : Value) : List Value → Engine Value
  | [] => return last
  | form :: forms => do
    let value ← caller.eval form
    if value.isNil then return value else evaluateAnd caller value forms

/-- Evaluate forms until one is not nil. -/
def evaluateOr (caller : Caller) : List Value → Engine Value
  | [] => return .nil
  | form :: forms => do
    let value ← caller.eval form
    if value.isNil then evaluateOr caller forms else return value

/-- Evaluate the body of the first clause whose test is not nil. -/
def evaluateCond (caller : Caller) : List Value → Engine Value
  | [] => return .nil
  | clause :: clauses => do
    let value ← caller.eval (← car clause)
    if value.isNil then evaluateCond caller clauses
    else
      let body ← cdr clause
      if body.isNil then return value else progn caller body

/-- Evaluate the body as long as the test is not nil. -/
def evaluateWhile (caller : Caller) (test body : Value) : Nat → Engine Value
  | 0 => exhausted
  | rounds + 1 => do
    if (← caller.eval test).isNil then return .nil
    let _ ← progn caller body
    checkpoint true
    evaluateWhile caller test body rounds

/-- Assign to the variables of a list in which variables and forms alternate. A last variable
without a form becomes nil. -/
def evaluateSetq (caller : Caller) (last : Value) : List Value → Engine Value
  | [] => return last
  | [symbol] => do
    let value ← caller.eval .nil
    assign symbol value
    return value
  | symbol :: form :: rest => do
    let value ← caller.eval form
    assign symbol value
    evaluateSetq caller value rest

/-- The variables of a `let` with their values, all evaluated before any is bound. -/
def evaluateBindings (caller : Caller) : List Value → Engine (List (Value × Value))
  | [] => return []
  | item :: items => do
    let (symbol, form) ← bindingParts item
    let value ← caller.eval form
    return (symbol, value) :: (← evaluateBindings caller items)

/-- Bind the variables of a `let*`, each before the next value is evaluated. -/
def bindInOrder (caller : Caller) : List Value → Engine Unit
  | [] => return ()
  | item :: items => do
    let (symbol, form) ← bindingParts item
    let value ← caller.eval form
    bindVariable symbol value
    bindInOrder caller items

/-- The values of argument forms, evaluated from left to right. -/
def evaluateArguments (caller : Caller) : List Value → Engine (List Value)
  | [] => return []
  | form :: forms => do
    let value ← caller.eval form
    return value :: (← evaluateArguments caller forms)

/-- Evaluate a special form with its arguments. -/
def evaluateSpecial (caller : Caller) (form : SpecialForm) (arguments : Value) :
    Engine Value := do
  match form with
  | .ifForm =>
    let test ← car arguments
    let branches ← cdr arguments
    if (← caller.eval test).isNil then progn caller (← cdr branches)
    else caller.eval (← car branches)
  | .progOne =>
    let value ← caller.eval (← car arguments)
    let _ ← progn caller (← cdr arguments)
    return value
  | .andForm => evaluateAnd caller .t (← elements arguments)
  | .orForm => evaluateOr caller (← elements arguments)
  | .cond => evaluateCond caller (← elements arguments)
  | .whileForm =>
    let test ← car arguments
    let body ← cdr arguments
    evaluateWhile caller test body caller.rounds
  | .setq => evaluateSetq caller .nil (← elements arguments)
  | .letForm =>
    let items ← car arguments
    let body ← cdr arguments
    let bindings ← evaluateBindings caller (← elements items)
    withBindings caller
      (bindings.forM fun (symbol, value) => bindVariable symbol value) body
  | .letSequential =>
    let items ← car arguments
    let body ← cdr arguments
    let items ← elements items
    withBindings caller (bindInOrder caller items) body

/-- Evaluate a form. -/
def evaluate (caller : Caller) (form : Value) : Engine Value := do
  match form with
  | .symbol _ => if form = .nil ∨ form = .t then return form else variableValue form
  | _ =>
    match (← heap).cons? form with
    | none => return form
    | some (head, tail) =>
      if head = Symbols.quote ∨ head = Symbols.function then car tail
      else if head = Symbols.progn then progn caller tail
      else
        match ← specialForm? head with
        | some special => evaluateSpecial caller special tail
        | none =>
          let arguments ← evaluateArguments caller (← elements tail)
          caller.apply head arguments

end Engine

end LispMachine
