import LispMachine.Application

/-!
How the actions of a run are put together. Evaluation, the primitives and the one-byte operations
are all composed of a few kinds of parts: actions on the store, checkpoints, faults, applications by
the caller, entries of the binding log, and brackets that undo those entries or catch signals.
`Composed` says so of an action as a function of its caller, and also how the action leaves the
binding log (`LogUse`). What holds of every part, and of everything put together from
parts for which it holds, holds of all these actions.

The main statements are `Composed.evaluate`, `Composed.receiveArguments`, `Composed.perform` and
`Composed.primitive`. Running the code of a function is not among the parts:
the primitive `byte-code`, which does that, is the one exception.
-/

set_option autoImplicit false

namespace LispMachine

open LispMachine.Action Storage Engine

/-- What an action may do to the length of the binding log. -/
inductive LogUse where
  /-- The length is the same after a result, and not greater after a signal. -/
  | balanced
  /-- The length is not less after a result. -/
  | growing
  /-- Nothing is said. -/
  | free

/-- The action, as a function of its caller, is put together from the parts that a run has. -/
inductive Composed : {α : Type} → LogUse → (Caller → Engine α) → Prop where
  | pure {α : Type} (result : α) : Composed .balanced fun _ ↦ Pure.pure result
  | stored {α : Type} (action : Storage α) : Composed .balanced fun _ ↦ liftM action
  | exhausted {α : Type} : Composed .balanced fun _ ↦ (Action.exhausted : Engine α)
  | fault {α : Type} (reason : Fault) : Composed .balanced fun _ ↦ (Action.fault reason : Engine α)
  | bind {α β : Type} {use : LogUse} {first : Caller → Engine α} {next : α → Caller → Engine β}
      (hfirst : Composed use first) (hnext : ∀ result, Composed use (next result)) :
      Composed use fun caller ↦ first caller >>= fun result ↦ next result caller
  | growing {α : Type} {action : Caller → Engine α} (haction : Composed .balanced action) :
      Composed .growing action
  | freely {α : Type} {use : LogUse} {action : Caller → Engine α} (haction : Composed use action) :
      Composed .free action
  /-- A part that takes as many rounds as the caller allows. -/
  | rounds {α : Type} {use : LogUse} {action : Nat → Caller → Engine α}
      (haction : ∀ rounds, Composed use (action rounds)) :
      Composed use fun caller ↦ action caller.rounds caller
  | apply (function : Value) (arguments : List Value) :
      Composed .balanced fun caller ↦ caller.apply function arguments
  | checkpoint (backward : Bool) : Composed .balanced fun _ ↦ Engine.checkpoint backward
  | throwing {α : Type} (tag value : Value) :
      Composed .balanced fun _ ↦ (throwTo tag value : Engine α)
  | logging (entry : BindingEntry) : Composed .growing fun _ ↦ logBinding entry
  | unbinding (count : Nat) : Composed .free fun caller ↦ unbind caller count
  /-- What an action leaves in the log is undone. -/
  | bracketed {α : Type} {action : Caller → Engine α} (haction : Composed .growing action) :
      Composed .balanced fun caller ↦ do
        let mark ← bindingMark
        unwindingTo caller mark (action caller)
  /-- A handler may catch what an action stops with. -/
  | caught {action : Caller → Engine Value} (kind : HandlerKind) (tag : Value)
      (haction : Composed .balanced action) :
      Composed .free fun caller ↦ withHandler caller kind tag (action caller)

namespace Composed

theorem ite {α : Type} {use : LogUse} {condition : Prop} [Decidable condition]
    {first second : Caller → Engine α} (hfirst : Composed use first)
    (hsecond : Composed use second) :
    Composed use fun caller ↦ if condition then first caller else second caller := by
  by_cases hcondition : condition
  · simpa only [hcondition, if_true] using hfirst
  · simpa only [hcondition, if_false] using hsecond

/-! ### Bindings -/

theorem bindVariable (symbol value : Value) :
    Composed .growing fun _ ↦ Engine.bindVariable symbol value := by
  unfold Engine.bindVariable
  refine bind (growing (stored _)) fun target ↦ bind (growing (stored _)) fun table ↦ ?_
  exact bind (logging _) fun _ ↦ growing (stored _)

theorem forM_bindVariable (bindings : List (Value × Value)) :
    Composed .growing fun _ ↦ bindings.forM fun (symbol, value) ↦
      Engine.bindVariable symbol value := by
  induction bindings with
  | nil => exact growing (pure ())
  | cons binding rest ih =>
    exact bind (bindVariable binding.1 binding.2) fun _ ↦ ih

/-! ### Evaluation -/

theorem eval (form : Value) : Composed .balanced fun caller ↦ caller.eval form :=
  apply Symbols.eval [form]

theorem evaluateEach (last : Value) (forms : List Value) :
    Composed .balanced fun caller ↦ Engine.evaluateEach caller last forms := by
  induction forms generalizing last with
  | nil => exact pure last
  | cons form forms ih => exact bind (eval form) fun value ↦ ih value

theorem progn (body : Value) : Composed .balanced fun caller ↦ Engine.progn caller body :=
  bind (stored _) fun forms ↦ evaluateEach .nil forms

theorem withBindings {bindings : Caller → Engine Unit} (hbindings : Composed .growing bindings)
    (body : Value) :
    Composed .balanced fun caller ↦ Engine.withBindings caller (bindings caller) body :=
  bracketed (bind hbindings fun _ ↦ growing (progn body))

theorem evaluateAnd (last : Value) (forms : List Value) :
    Composed .balanced fun caller ↦ Engine.evaluateAnd caller last forms := by
  induction forms generalizing last with
  | nil => exact pure last
  | cons form forms ih => exact bind (eval form) fun value ↦ ite (pure value) (ih value)

theorem evaluateOr (forms : List Value) :
    Composed .balanced fun caller ↦ Engine.evaluateOr caller forms := by
  induction forms with
  | nil => exact pure _
  | cons form forms ih => exact bind (eval form) fun value ↦ ite ih (pure value)

theorem evaluateCond (clauses : List Value) :
    Composed .balanced fun caller ↦ Engine.evaluateCond caller clauses := by
  induction clauses with
  | nil => exact pure _
  | cons clause clauses ih =>
    refine bind (stored _) fun test ↦ bind (eval test) fun value ↦ ite ih ?_
    exact bind (stored _) fun body ↦ ite (pure value) (progn body)

theorem evaluateWhile (test body : Value) (rounds : Nat) :
    Composed .balanced fun caller ↦ Engine.evaluateWhile caller test body rounds := by
  induction rounds with
  | zero => exact exhausted
  | succ rounds ih =>
    refine bind (eval test) fun value ↦ ite (pure _) ?_
    exact bind (progn body) fun _ ↦ bind (checkpoint true) fun _ ↦ ih

theorem evaluateSetq (last : Value) (items : List Value) :
    Composed .balanced fun caller ↦ Engine.evaluateSetq caller last items := by
  match items with
  | [] => exact pure last
  | [symbol] => exact bind (eval .nil) fun value ↦ bind (stored _) fun _ ↦ pure value
  | symbol :: form :: rest =>
    exact bind (eval form) fun value ↦ bind (stored _) fun _ ↦ evaluateSetq value rest

theorem evaluateBindings (items : List Value) :
    Composed .balanced fun caller ↦ Engine.evaluateBindings caller items := by
  induction items with
  | nil => exact pure _
  | cons item items ih =>
    refine bind (stored _) fun parts ↦ bind (eval parts.2) fun value ↦ ?_
    exact bind ih fun bindings ↦ pure _

theorem bindInOrder (items : List Value) :
    Composed .growing fun caller ↦ Engine.bindInOrder caller items := by
  induction items with
  | nil => exact growing (pure ())
  | cons item items ih =>
    refine bind (growing (stored _)) fun parts ↦ bind (growing (eval parts.2)) fun value ↦ ?_
    exact bind (bindVariable parts.1 value) fun _ ↦ ih

theorem evaluateArguments (forms : List Value) :
    Composed .balanced fun caller ↦ Engine.evaluateArguments caller forms := by
  induction forms with
  | nil => exact pure _
  | cons form forms ih => exact bind (eval form) fun value ↦ bind ih fun values ↦ pure _

theorem evaluateSpecial (form : SpecialForm) (arguments : Value) :
    Composed .balanced fun caller ↦ Engine.evaluateSpecial caller form arguments := by
  cases form with
  | ifForm =>
    refine bind (stored _) fun test ↦ bind (stored _) fun branches ↦ bind (eval test) fun value ↦ ?_
    refine ite ?_ ?_
    · exact bind (stored _) fun body ↦ progn body
    · exact bind (stored _) fun branch ↦ eval branch
  | progOne =>
    refine bind (stored _) fun first ↦ bind (eval first) fun value ↦ ?_
    exact bind (stored _) fun rest ↦ bind (progn rest) fun _ ↦ pure value
  | andForm => exact bind (stored _) fun forms ↦ evaluateAnd .t forms
  | orForm => exact bind (stored _) fun forms ↦ evaluateOr forms
  | cond => exact bind (stored _) fun clauses ↦ evaluateCond clauses
  | whileForm =>
    refine bind (stored _) fun test ↦ bind (stored _) fun body ↦ ?_
    exact rounds (evaluateWhile test body)
  | setq => exact bind (stored _) fun items ↦ evaluateSetq .nil items
  | letForm =>
    refine bind (stored _) fun items ↦ bind (stored _) fun body ↦ bind (stored _) fun items ↦ ?_
    exact bind (evaluateBindings items) fun bindings ↦
      withBindings (forM_bindVariable bindings) body
  | letSequential =>
    refine bind (stored _) fun items ↦ bind (stored _) fun body ↦ bind (stored _) fun items ↦ ?_
    exact withBindings (bindInOrder items) body

theorem evaluate (form : Value) :
    Composed .balanced fun caller ↦ Engine.evaluate caller form := by
  cases form with
  | symbol index => exact ite (pure _) (stored _)
  | fixnum | object =>
    refine bind (stored _) fun heap ↦ ?_
    cases heap.cons? _ with
    | none => exact pure _
    | some parts =>
      refine ite (stored _) (ite (progn parts.2) (bind (stored _) fun special ↦ ?_))
      cases special with
      | some special => exact evaluateSpecial special parts.2
      | none =>
        exact bind (stored _) fun forms ↦ bind (evaluateArguments forms) fun arguments ↦
          apply parts.1 arguments

/-! ### Operations -/

theorem printThrough (function : Value) (text : List Char) :
    Composed .balanced fun caller ↦ Engine.printThrough caller function text := by
  induction text with
  | nil => exact pure ()
  | cons c rest ih => exact bind (apply function [.ofChar c]) fun _ ↦ ih

theorem writeText (destination : Value) (text : String) :
    Composed .balanced fun caller ↦ Engine.writeText caller destination text := by
  have helsewhere (place : Value) : Composed .balanced fun caller ↦
      (liftM store : Engine Store) >>= fun store ↦
        if store.isFunction place then Engine.printThrough caller place text.toList
        else liftM (writeOutput text) :=
    bind (stored _) fun store ↦ ite (printThrough place text.toList) (stored _)
  refine bind (stored _) fun place ↦ bind (stored _) fun object ↦ ?_
  cases object with
  | none => exact helsewhere place
  | some object =>
    cases object with
    | buffer index => exact stored _
    | _ => exact helsewhere place

theorem printTo (style : PrintStyle) (value destination : Value) :
    Composed .balanced fun caller ↦ Engine.printTo caller style value destination :=
  bind (stored _) fun text ↦ bind (writeText destination text) fun _ ↦ pure value

theorem applySpread (arguments : List Value) :
    Composed .balanced fun caller ↦ Engine.applySpread caller arguments := by
  unfold Engine.applySpread
  cases arguments.getLast? with
  | none => exact pure _
  | some last =>
    refine bind (stored _) fun spread ↦ ?_
    cases arguments.dropLast ++ spread with
    | nil => exact stored _
    | cons function rest => exact apply function rest

theorem saveRestriction : Composed .growing fun _ ↦ Engine.saveRestriction := by
  refine bind (growing (stored _)) fun index ↦ bind (growing (stored _)) fun buffer ↦ ?_
  refine ite ?_ (bind (logging _) fun _ ↦ growing (pure _))
  refine bind (growing (stored _)) fun low ↦ bind (growing (stored _)) fun high ↦ ?_
  exact bind (logging _) fun _ ↦ growing (pure _)

theorem saveExcursion : Composed .growing fun _ ↦ Engine.saveExcursion := by
  refine bind (growing (stored _)) fun index ↦ bind (growing (stored _)) fun buffer ↦ ?_
  refine bind (growing (stored _)) fun point ↦ bind (logging _) fun _ ↦ growing (pure _)

theorem openOutputBuffer (name : Value) :
    Composed .growing fun _ ↦ Engine.openOutputBuffer name := by
  refine bind (growing (stored _)) fun text ↦ bind (growing (stored _)) fun buffer ↦ ?_
  refine bind (growing (stored _)) fun index ↦ bind (growing (stored _)) fun _ ↦ ?_
  exact bind (bindVariable _ _) fun _ ↦ growing (pure buffer)

theorem catchForm (tag body : Value) :
    Composed .free fun caller ↦ Engine.catchForm caller tag body := by
  refine bind (caught .catching tag (eval body)) fun outcome ↦ ?_
  cases outcome <;> exact freely (pure _)

theorem conditionCase (variableName body handlers : Value) :
    Composed .free fun caller ↦ Engine.conditionCase caller variableName body handlers := by
  refine bind (freely (stored _)) fun clauses ↦ bind (freely (stored _)) fun named ↦ ?_
  refine bind (freely (stored _)) fun conditions ↦ ?_
  refine bind (caught .conditionCase conditions (eval body)) fun outcome ↦ ?_
  cases outcome with
  | returned value => exact freely (pure value)
  | caught payload =>
    refine bind (freely (stored _)) fun symbol ↦ bind (freely (stored _)) fun raised ↦ ?_
    refine bind (freely (stored _)) fun clause ↦ bind (freely (stored _)) fun heap ↦ ?_
    exact freely (withBindings (ite (growing (pure ())) (bindVariable _ _)) _)

/-- The one-byte operations are put together from parts. -/
theorem operation (op : Operation) (operands : List Value) :
    Composed .free fun caller ↦ op.action.run caller operands := by
  cases op
  case interactiveP => exact freely (apply Symbols.interactiveP [])
  case saveCurrentBuffer | saveCurrentBufferAgain =>
    exact freely (bind (growing (stored _)) fun _ ↦ bind (logging _) fun _ ↦ growing (pure _))
  case saveExcursion => exact freely saveExcursion
  case saveRestriction => exact freely saveRestriction
  case saveWindowExcursion => exact freely (progn _)
  case catchForm => exact catchForm _ _
  case unwindProtect => exact freely (bind (logging _) fun _ ↦ growing (pure _))
  case conditionCase => exact conditionCase _ _ _
  case tempOutputBufferSetup => exact freely (openOutputBuffer _)
  case tempOutputBufferShow => exact bind (unbinding 1) fun _ ↦ freely (pure _)
  all_goals exact freely (stored _)

theorem perform (op : Operation) (operands : List Value) :
    Composed .free fun caller ↦ op.perform caller operands := by
  unfold Operation.perform
  cases op.shortcut? operands with
  | some value => exact freely (pure value)
  | none => exact operation op operands

theorem performInline (op : Operation) (operands : List Value) :
    Composed .free fun caller ↦ op.performInline caller operands := by
  unfold Operation.performInline
  cases op.inline? operands with
  | some value => exact freely (pure value)
  | none => exact perform op operands

/-! ### Arguments and primitives -/

theorem bindParameters (parameters arguments : List Value) :
    Composed .growing fun _ ↦ Engine.bindParameters parameters arguments := by
  induction parameters generalizing arguments with
  | nil => exact growing (pure ())
  | cons parameter parameters ih =>
    exact bind (bindVariable parameter _) fun _ ↦ ih (arguments.drop 1)

theorem bindRest (rest : Option Value) (place : Nat) (arguments : List Value) :
    Composed .growing fun _ ↦ Engine.bindRest rest place arguments := by
  cases rest with
  | none => exact growing (pure ())
  | some parameter =>
    exact bind (growing (stored _)) fun values ↦ bindVariable parameter values

/-- The primitives that need the whole machine are put together from parts, apart from the one that
runs code. -/
theorem control {primitive : Primitive} (hprimitive : primitive ∈ Primitive.control) :
    (∀ arguments, Composed .balanced fun caller ↦ primitive.action.run caller arguments) ∨
      primitive.action = .running fun caller ↦ ternary (executeString caller) := by
  simp only [Primitive.control, List.mem_cons, List.not_mem_nil, or_false] at hprimitive
  rcases hprimitive with rfl | rfl | rfl | rfl | rfl | rfl | rfl | rfl | rfl | rfl | rfl | rfl
  case inr.inr.inr.inr.inr.inr.inr.inl => exact .inr rfl
  all_goals refine .inl fun arguments ↦ ?_
  · exact throwing _ _
  · exact stored _
  · exact stored _
  · exact stored _
  · exact apply _ _
  · exact applySpread arguments
  · exact evaluate _
  · exact stored _
  · exact stored _
  · exact printTo .readable _ _
  · exact printTo .plain _ _

/-- Every primitive works on the store alone, or is one of those that need the whole machine. -/
theorem isStoring_or_mem_control {primitive : Primitive}
    (hprimitive : primitive ∈ Primitive.catalogue) :
    primitive.action.isStoring ∨ primitive ∈ Primitive.control := by
  have hstoring : ∀ part ∈ [Primitive.arithmetic, Primitive.data, Primitive.sequence,
      Primitive.text, Primitive.editing], part.all fun primitive ↦ primitive.action.isStoring := by
    decide
  simp only [Primitive.catalogue, List.mem_toArray, List.mem_append] at hprimitive
  simp only [List.mem_cons, List.not_mem_nil, or_false, List.all_eq_true] at hstoring
  rcases hprimitive with (((((hmem | hmem) | hmem) | hmem) | hmem) | hmem)
  · exact .inl (hstoring _ (by simp) primitive hmem)
  · exact .inl (hstoring _ (by simp) primitive hmem)
  · exact .inl (hstoring _ (by simp) primitive hmem)
  · exact .inl (hstoring _ (by simp) primitive hmem)
  · exact .inl (hstoring _ (by simp) primitive hmem)
  · exact .inr hmem

/-- The primitives are put together from parts, apart from the one that runs code. -/
theorem primitive {primitive : Primitive} (hprimitive : primitive ∈ Primitive.catalogue) :
    (∀ arguments, Composed .balanced fun caller ↦ primitive.action.run caller arguments) ∨
      primitive.action = .running fun caller ↦ ternary (executeString caller) := by
  obtain hstoring | hcontrol := isStoring_or_mem_control hprimitive
  · cases haction : primitive.action with
    | storing run => exact .inl fun arguments ↦ stored (run arguments)
    | running run =>
      rw [haction] at hstoring
      exact absurd hstoring (by simp [PrimitiveAction.isStoring])
  · exact control hcontrol

/-! ### Faults -/

theorem ofFaulty {α : Type} (result : Except Fault α) :
    Composed .balanced fun _ ↦ (Action.ofFaulty result : Engine α) := by
  cases result with
  | ok value => exact pure value
  | error reason => exact fault reason

/-! ### Native code -/

theorem nativeJump (place : Nat) (stack : OperandStack) (kind : BranchKind) (target : Nat)
    (backward : Bool) :
    Composed .balanced fun _ ↦ Engine.nativeJump place stack kind target backward := by
  refine ite (ite ?_ (pure _)) ?_
  · exact bind (checkpoint backward) fun _ ↦ pure _
  · exact bind (checkpoint backward) fun _ ↦ pure _

/-- Native code does what it does by parts of a run, apart from what is about the frame: its handlers
and its mark. -/
theorem nativeExecute (frame : Frame) (place : Nat) (stack : OperandStack)
    {operation : NativeOperation} (hall : operation ≠ .unbindAll) (hpop : operation ≠ .popHandler)
    (hpush : ∀ kind site, operation ≠ .pushHandler kind site) :
    Composed .free fun caller ↦ Engine.nativeExecute caller frame place stack operation := by
  cases operation with
  | trap reason => exact freely (fault reason)
  | copy | push | ret | drop | dropUnder | moveTo => exact freely (pure _)
  | readVariable symbol => exact freely (bind (stored _) fun value ↦ pure _)
  | writeVariable symbol => exact freely (bind (stored _) fun _ ↦ pure _)
  | bindVariable symbol => exact freely (bind (bindVariable _ _) fun _ ↦ growing (pure _))
  | call count => exact freely (bind (apply _ _) fun result ↦ pure _)
  | unbind count => exact bind (unbinding count) fun _ ↦ freely (pure _)
  | unbindAll => exact absurd rfl hall
  | popHandler => exact absurd rfl hpop
  | pushHandler kind site => exact absurd rfl (hpush kind site)
  | jump kind target backward => exact freely (nativeJump place stack kind target backward)
  | gather gathering count => exact freely (bind (stored _) fun result ↦ pure _)
  | operation op => exact bind (performInline op _) fun result ↦ freely (pure _)

end Composed

end LispMachine
