import LispMachine.Proofs.Run.Balance
import LispMachine.Proofs.Run.Delivery
import LispMachine.Proofs.Store.Lists

/-!
What becomes of an error that leaves the body of a condition-case. The handler that the primitive
sets up keeps one list of all that the heads of the clauses name, and whether the error is caught is
decided by this list. Which clause it goes to is decided later, by the heads themselves. The two
decisions treat a head alike unless it is the symbol nil: no error goes to such a clause, but nil is
put on the list, where it counts as a condition like any other. So an error that has nil among its
conditions can be caught and then find no clause, and nothing is evaluated for it.

The main statement is `conditionCase_delivers`; `conditionCase_swallows` is an error that is lost in
this way.
-/

set_option autoImplicit false

namespace LispMachine

open LispMachine.Action Storage Engine

/-! ### What clauses name -/

namespace Heap

variable {heap after : Heap} {clause : Value} {names : List Value}

/-- What a clause names: its head if that is a symbol, or else the items of its head. -/
inductive ClauseNames (heap : Heap) (clause : Value) : List Value → Prop where
  | symbol {index : Nat} (hlist : heap.isList clause = true)
      (hhead : heap.carSafe clause = .symbol index) : ClauseNames heap clause [.symbol index]
  | list {head tail : Value} {names : List Value} (hcons : heap.cons? clause = some (head, tail))
      (hsymbol : head.isSymbol = false) (hnames : heap.ListsFrom 0 head names) :
      ClauseNames heap clause names

theorem cons?_of_keptIn {value car cdr : Value} (hkept : heap.KeptIn after)
    (hcons : heap.cons? value = some (car, cdr)) : after.cons? value = some (car, cdr) := by
  cases value with
  | fixnum | symbol => cases hcons
  | object address => exact cons?_eq_some.mpr (hkept address _ (cons?_eq_some.mp hcons))

/-- A heap that keeps what was there reads a clause as before. -/
theorem ClauseNames.keptIn (hclause : heap.ClauseNames clause names) (hkept : heap.KeptIn after) :
    after.ClauseNames clause names ∧ after.carSafe clause = heap.carSafe clause := by
  cases hclause with
  | symbol hlist hhead =>
    cases hcons : heap.cons? clause with
    | some parts =>
      have hafter := cons?_of_keptIn hkept hcons
      have hsame : after.carSafe clause = heap.carSafe clause := by
        rw [carSafe, carSafe, hafter, hcons]
      refine ⟨.symbol ?_ (hsame.trans hhead), hsame⟩
      rw [isList, isCons, hafter, Option.isSome_some, Bool.or_true]
    | none =>
      obtain rfl : clause = .nil := by
        rw [isList, isCons, hcons, Option.isSome_none, Bool.or_false] at hlist
        exact eq_of_beq hlist
      exact ⟨.symbol rfl hhead, rfl⟩
  | list hcons hsymbol hnames =>
    have hafter := cons?_of_keptIn hkept hcons
    refine ⟨.list hafter hsymbol (hnames.keptIn hkept), ?_⟩
    rw [carSafe, carSafe, hafter, hcons]

theorem ClauseNames.isList (hclause : heap.ClauseNames clause names) :
    heap.isList clause = true := by
  cases hclause with
  | symbol hlist => exact hlist
  | list hcons => rw [Heap.isList, isCons, hcons, Option.isSome_some, Bool.or_true]

/-- A clause that has nil as its head, or is nil itself, names just nil. -/
theorem ClauseNames.eq_of_nil (hclause : heap.ClauseNames clause names)
    (hnil : heap.carSafe clause = .nil) : names = [.nil] := by
  cases hclause with
  | symbol hlist hhead =>
    rw [hnil] at hhead
    rw [hhead]
  | list hcons hsymbol =>
    rw [carSafe, hcons] at hnil
    cases hnil
    cases hsymbol

end Heap

namespace Storage

variable {store : Store} {clause value : Value} {names conditions clauses : List Value}

theorem car_of_isList (hlist : store.heap.isList value = true) :
    car value store = .ok (store.heap.carSafe value) store := by
  have hget : (get : Storage Store) store = .ok store store := rfl
  unfold car
  refine (bind_of_ok hget).trans ?_
  rw [Heap.isList, Heap.isCons] at hlist
  rw [Heap.carSafe]
  cases hcons : store.heap.cons? value with
  | some parts => rfl
  | none =>
    rw [hcons, Option.isSome_none, Bool.or_false] at hlist
    dsimp only
    rw [if_pos hlist]
    rfl

theorem elements_of_listsFrom {bound : Nat} (hlists : store.heap.ListsFrom bound value names) :
    elements value store = .ok names store := by
  have hget : (get : Storage Store) store = .ok store store := rfl
  unfold elements
  refine (bind_of_ok hget).trans ?_
  rw [hlists.chain_eq]
  rfl

theorem elements_of_head (hclause : store.heap.ClauseNames clause names) :
    (match store.heap.carSafe clause with
      | .symbol index => Pure.pure [.symbol index]
      | head => elements head : Storage (List Value)) store = .ok names store := by
  cases hclause with
  | symbol hlist hhead =>
    rw [hhead]
    rfl
  | @list head tail names hcons hsymbol hnames =>
    have hhead : store.heap.carSafe clause = head := by
      rw [Heap.carSafe, hcons]
      rfl
    rw [hhead]
    cases head with
    | symbol => cases hsymbol
    | fixnum | object => exact elements_of_listsFrom hnames

/-- Well-formed clauses name together what their heads name. -/
theorem clauseConditions_of_names {named : List (List Value)}
    (hnamed : List.Forall₂ store.heap.ClauseNames clauses named) :
    clauseConditions clauses store = .ok named.flatten store := by
  induction hnamed with
  | nil => rfl
  | cons hclause _ ih =>
    refine (bind_of_ok (car_of_isList hclause.isList)).trans ?_
    have hhead := elements_of_head hclause
    generalize store.heap.carSafe _ = head at hhead ⊢
    cases head with
    | fixnum | symbol | object => exact (bind_of_ok hhead).trans (bind_of_ok ih)

/-- A list covers an error when one of its items does. -/
theorem coversConditions_of_listsFrom {bound : Nat} (conditions : List Value)
    (hlists : store.heap.ListsFrom bound value names) :
    coversConditions conditions value store =
      .ok (names.any (namesCondition conditions)) store := by
  have hleading : leadingElements value store = .ok names store := by
    rw [leadingElements_apply, hlists.chain_eq]
    rfl
  cases hlists with
  | nil => rfl
  | cons => exact bind_of_ok hleading

/-- A head covers an error when it is not nil and one of the names does. -/
theorem coversConditions_of_names (conditions : List Value)
    (hclause : store.heap.ClauseNames clause names) :
    coversConditions conditions (store.heap.carSafe clause) store =
      .ok (!(store.heap.carSafe clause).isNil && names.any (namesCondition conditions)) store := by
  cases hclause with
  | symbol hlist hhead =>
    rw [hhead, List.any_cons, List.any_nil, Bool.or_false]
    rfl
  | @list head tail names hcons hsymbol hnames =>
    have hhead : store.heap.carSafe clause = head := by
      rw [Heap.carSafe, hcons]
      rfl
    have hnil : head.isNil = false := by
      cases head with
      | symbol => cases hsymbol
      | fixnum | object => rfl
    rw [hhead, hnil, Bool.not_false, Bool.true_and]
    exact coversConditions_of_listsFrom conditions hnames

end Storage

/-- The head of a clause covers the error that a symbol names: it is not nil, and it names t or a
condition of the error. -/
def Store.ClauseCovers (store : Store) (symbol clause : Value) : Prop :=
  store.heap.carSafe clause ≠ .nil ∧
    ∃ names, store.heap.ClauseNames clause names ∧ ∃ name ∈ names, store.Covers symbol name

section Covering

variable {store store' : Store} {symbol clause : Value} {names conditions clauses : List Value}
  {named : List (List Value)}

theorem Heap.ClauseNames.unique (hclause : store.heap.ClauseNames clause names)
    {names' : List Value} (hclause' : store.heap.ClauseNames clause names') : names' = names := by
  have hsame := (elements_of_head hclause').symm.trans (elements_of_head hclause)
  cases hsame
  rfl

variable (hconditions : ∀ condition, condition ∈ conditions ↔ store.IsCondition symbol condition)

include hconditions

/-- Whether the head of a clause covers an error is found out with the conditions of the error. -/
theorem covers_iff_clauseCovers (hclause : store.heap.ClauseNames clause names) :
    (!(store.heap.carSafe clause).isNil && names.any (namesCondition conditions)) = true ↔
      store.ClauseCovers symbol clause := by
  unfold Store.ClauseCovers
  simp only [Bool.and_eq_true, Bool.not_eq_true', List.any_eq_true, namesCondition_iff hconditions,
    Value.isNil, beq_eq_false_iff_ne]
  refine and_congr_right fun _ ↦ ⟨fun hcovers ↦ ⟨names, hclause, hcovers⟩, ?_⟩
  rintro ⟨names', hclause', hcovers⟩
  exact hclause.unique hclause' ▸ hcovers

/-- What a head names covers an error also where the head does not: if it is nil, and nil is one of
the conditions of the error. -/
theorem any_names_iff (hclause : store.heap.ClauseNames clause names) :
    names.any (namesCondition conditions) = true ↔ store.ClauseCovers symbol clause ∨
      store.heap.carSafe clause = .nil ∧ store.IsCondition symbol .nil := by
  rw [← covers_iff_clauseCovers hconditions hclause]
  by_cases hnil : store.heap.carSafe clause = .nil
  · have hcovers : store.Covers symbol .nil ↔ store.IsCondition symbol .nil :=
      or_iff_right (by decide)
    rw [hclause.eq_of_nil hnil, hnil, List.any_cons, List.any_nil, Bool.or_false,
      namesCondition_iff hconditions, hcovers]
    simp [Value.isNil]
  · simp [Value.isNil, hnil]

/-- The list of all that clauses name covers an error when the head of some clause does, and also
where some head is nil and nil is one of the conditions of the error. -/
theorem any_flatten_iff (hnamed : List.Forall₂ store.heap.ClauseNames clauses named) :
    named.flatten.any (namesCondition conditions) = true ↔
      (∃ clause ∈ clauses, store.ClauseCovers symbol clause) ∨
        (∃ clause ∈ clauses, store.heap.carSafe clause = .nil) ∧
          store.IsCondition symbol .nil := by
  induction hnamed with
  | nil => simp
  | cons hclause _ ih =>
    rw [List.flatten_cons, List.any_append, Bool.or_eq_true, ih, any_names_iff hconditions hclause]
    simp only [List.exists_mem_cons_iff]
    rw [or_and_right]
    exact or_or_or_comm

/-- The clause that is chosen is the first whose head covers the error, nil where there is none. -/
theorem coveringClause_of_names (hkept : store.heap.KeptIn store'.heap)
    (hnamed : List.Forall₂ store.heap.ClauseNames clauses named) :
    ∃ found, coveringClause conditions clauses store' = .ok found store' ∧
      ((∃ earlier later, clauses = earlier ++ found :: later ∧ store.ClauseCovers symbol found ∧
          ∀ other ∈ earlier, ¬ store.ClauseCovers symbol other) ∨
        found = .nil ∧ ∀ clause ∈ clauses, ¬ store.ClauseCovers symbol clause) := by
  induction hnamed with
  | nil => exact ⟨.nil, rfl, .inr ⟨rfl, nofun⟩⟩
  | @cons clause names clauses _ hclause _ ih =>
    obtain ⟨hlater, hhead⟩ := hclause.keptIn hkept
    have hrun := coversConditions_of_names conditions hlater
    rw [hhead] at hrun
    have hstep : coveringClause conditions (clause :: clauses) store' =
        (if !(store.heap.carSafe clause).isNil && names.any (namesCondition conditions) then
          Pure.pure clause
        else coveringClause conditions clauses : Storage Value) store' := by
      change (coversConditions conditions (store'.heap.carSafe clause) >>= _) store' = _
      rw [hhead]
      exact bind_of_ok hrun
    rw [hstep]
    by_cases hcovers : store.ClauseCovers symbol clause
    · rw [(covers_iff_clauseCovers hconditions hclause).mpr hcovers]
      exact ⟨clause, rfl, .inl ⟨[], clauses, rfl, hcovers, nofun⟩⟩
    · rw [Bool.eq_false_iff.mpr fun hboth ↦
        hcovers ((covers_iff_clauseCovers hconditions hclause).mp hboth)]
      obtain ⟨found, hfound, hchoice⟩ := ih
      refine ⟨found, hfound, hchoice.imp ?_ ?_⟩
      · rintro ⟨earlier, later, rfl, hfirst, hothers⟩
        exact ⟨clause :: earlier, later, rfl, hfirst, List.forall_mem_cons.mpr ⟨hcovers, hothers⟩⟩
      · rintro ⟨hnil, hothers⟩
        exact ⟨hnil, List.forall_mem_cons.mpr ⟨hcovers, hothers⟩⟩

end Covering

/-! ### The handler of a condition-case -/

/-- A log that is no longer than the mark is not undone. -/
theorem unbindTo_of_length_le (caller : Caller) {mark : BindingMark} {machine : Machine}
    (hlength : machine.bindings.length ≤ mark) : unbindTo caller mark machine = .ok () machine := by
  have htaken : takeBinding mark machine = .ok none machine := by
    rw [takeBinding_apply]
    cases hlog : machine.bindings with
    | nil => rfl
    | cons entry rest =>
      rw [hlog, List.length_cons] at hlength
      exact if_neg (Nat.not_le.mpr hlength)
  have hunwound (rounds : Nat) : unwindFrom caller mark (rounds + 1) none machine =
      .ok none machine := bind_of_ok htaken
  have hrounds : machine.bindings.length + 1 + caller.rounds =
      machine.bindings.length + caller.rounds + 1 := Nat.add_right_comm _ _ _
  change (unwindFrom caller mark (machine.bindings.length + 1 + caller.rounds) none >>= _)
    machine = _
  rw [hrounds]
  exact bind_of_ok (hunwound _)

/-- A run that stops with a signal leaves the handlers as they were, and a log that is not longer. -/
theorem Request.leaves_of_signal (request : Request) {steps : Nat} {machine after : Machine}
    {reason : Signal}
    (hrun : request.run (.bounded steps) machine = .error (.signal reason) after) :
    after.handlers = machine.handlers ∧ after.bindings.length ≤ machine.bindings.length := by
  have hcompanions : WatchedCompanions (.equal False) (.bounded steps) (.bounded steps) :=
    companions_equal (fun _ _ _ ↦ rfl) steps
  have htogether : Together (.equal False) machine.handlers machine.handlers machine.evalDepth
      machine machine := ⟨rfl, rfl, rfl, rfl, rfl, rfl, rfl, rfl, rfl, nofun⟩
  have hend := request.agree hcompanions _ _ _ _ (HandlerStack.Alike.refl machine.handlers) machine
    machine ⟨htogether, rfl⟩
  rw [hrun] at hend
  cases hend with
  | signal hdone => exact ⟨hdone.1.left_handlers, hdone.2⟩

section Handling

variable {steps : Nat} {machine after : Machine} {own : Value} {symbol data : Value}
  {names conditions : List Value} {low : HandlerStack}

/-- The innermost handler is found when its list covers the error. No other one is found above those
further out. -/
theorem findHandler_of_own {handler : Handler} (data : Value)
    (hkind : handler.kind = .conditionCase) (hhandlers : after.handlers = handler :: low)
    (hends : after.ListsEnd) (hlist : after.heap.ListsFrom 0 handler.tag names)
    (hrun : errorConditions symbol after.toStore = .ok conditions after.toStore)
    (hconditions : ∀ condition, condition ∈ conditions ↔ after.IsCondition symbol condition) :
    findHandler low.length (.error symbol data) after =
      .ok (if names.any (namesCondition conditions) then some (handler, low) else none) after := by
  have hcatches : catchesSignal (.error symbol data) conditions handler after.toStore =
      .ok (names.any (namesCondition conditions)) after.toStore := by
    unfold catchesSignal
    rw [hkind]
    exact coversConditions_of_listsFrom conditions hlist
  have hhas : (Signal.error symbol data).HasConditions after.toStore conditions := by
    rintro _ _ ⟨⟩
    exact hconditions
  have htags : ∀ other ∈ low, other.kind = .conditionCase → after.heap.Terminates other.tag :=
    fun other hmem ↦ hends.tags other (hhandlers ▸ List.mem_cons_of_mem _ hmem)
  obtain ⟨found, hfound, hinnermost⟩ := innermostMatch_apply hhas htags
  have hmatch : innermostMatch (.error symbol data) conditions after.handlers after.toStore =
      .ok (if names.any (namesCondition conditions) then some (handler, low) else found)
        after.toStore := by
    rw [hhandlers]
    refine (bind_of_ok hcatches).trans ?_
    cases names.any (namesCondition conditions)
    · exact hfound
    · rfl
  have hsignal : signalConditions (.error symbol data) after.toStore =
      .ok conditions after.toStore := hrun
  rw [findHandler_of_storage hsignal hmatch]
  cases names.any (namesCondition conditions) with
  | true => exact congrArg (EStateM.Result.ok · after) (if_pos (decide_eq_true (Nat.le_refl _)))
  | false =>
    rcases found with _ | ⟨other, outer⟩
    · rfl
    · obtain ⟨inner, rfl, -⟩ := hinnermost
      have hbelow : ¬ (inner ++ other :: outer).length ≤ outer.length := by
        rw [List.length_append, List.length_cons]
        omega
      exact congrArg (EStateM.Result.ok · after) (if_neg fun hbase ↦ hbelow (of_decide_eq_true hbase))

/-- The machine after an error has been caught: the symbol and the data are in a fresh cons, and the
handler is gone with all inside it. -/
def Machine.catching (after : Machine) (low : HandlerStack) (symbol data : Value) : Machine :=
  { after with heap := (after.heap.allocate (.cons symbol data)).2, handlers := low }

/-- The address of the fresh cons. -/
def Machine.payload (after : Machine) (symbol data : Value) : Value :=
  (after.heap.allocate (.cons symbol data)).1

/-- The innermost handler takes an error that its list covers. Another error goes to no handler that
was set up inside. -/
theorem dispatch_of_own {handler : Handler} (hkind : handler.kind = .conditionCase)
    (hhandlers : after.handlers = handler :: low)
    (hmark : after.bindings.length ≤ handler.mark) (hends : after.ListsEnd)
    (hlist : after.heap.ListsFrom 0 handler.tag names)
    (hrun : errorConditions symbol after.toStore = .ok conditions after.toStore)
    (hconditions : ∀ condition, condition ∈ conditions ↔ after.IsCondition symbol condition) :
    dispatch (.bounded steps) low.length (.error symbol data) after =
      if names.any (namesCondition conditions) then
        .ok (.resume handler (after.payload symbol data)) (after.catching low symbol data)
      else .ok (.propagate (.error symbol data)) after := by
  have hfound := findHandler_of_own data hkind hhandlers hends hlist hrun hconditions
  have hrounds : after.handlers.length + 1 + (Caller.bounded steps).rounds =
      after.handlers.length + (Caller.bounded steps).rounds + 1 := Nat.add_right_comm _ _ _
  change dispatchWithin (.bounded steps) low.length
    (after.handlers.length + 1 + (Caller.bounded steps).rounds) (.error symbol data) after = _
  rw [hrounds]
  cases hcovers : names.any (namesCondition conditions) with
  | true =>
    rw [hcovers, if_pos rfl] at hfound
    have hunbound : unbindTo (.bounded steps) handler.mark { after with handlers := low } =
        .ok () { after with handlers := low } := unbindTo_of_length_le _ hmark
    rw [dispatchWithin_of_some (fun _ _ ↦ rfl) hfound, hunbound]
    rfl
  | false =>
    rw [hcovers, if_neg Bool.false_ne_true] at hfound
    exact dispatchWithin_of_none hfound _

/-- An error that leaves a body goes to the handler if what its list names covers the error, and
propagates otherwise. -/
theorem conditionCaseIn_of_error {body : Engine Value} {own : Value}
    (hbody : body { machine with
      handlers := ⟨own, .conditionCase, 0, machine.bindings.length, .host⟩ :: machine.handlers } =
        .error (.signal (.error symbol data)) after)
    (hhandlers : after.handlers =
      ⟨own, .conditionCase, 0, machine.bindings.length, .host⟩ :: machine.handlers)
    (hbindings : after.bindings.length ≤ machine.bindings.length) (hends : after.ListsEnd)
    (hlist : after.heap.ListsFrom 0 own names)
    (hrun : errorConditions symbol after.toStore = .ok conditions after.toStore)
    (hconditions : ∀ condition, condition ∈ conditions ↔ after.IsCondition symbol condition) :
    conditionCaseIn (.bounded steps) own body machine =
      if names.any (namesCondition conditions) then
        .ok (.caught (after.payload symbol data)) (after.catching machine.handlers symbol data)
      else .error (.signal (.error symbol data)) { after with handlers := machine.handlers } := by
  let handler : Handler := ⟨own, .conditionCase, 0, machine.bindings.length, .host⟩
  have hcount : handlerCount machine = .ok machine.handlers.length machine := rfl
  have hmark : bindingMark machine = .ok machine.bindings.length machine := rfl
  have hpushed : pushHandler handler machine =
      .ok () { machine with handlers := handler :: machine.handlers } := rfl
  have hattempt : (Caller.bounded steps).attempt body
      { machine with handlers := handler :: machine.handlers } =
        .ok (.error (.error symbol data)) after := by
    rw [Caller.attempt_apply, hbody]
    rfl
  have hkind : handler.kind = .conditionCase := rfl
  have hdispatch : dispatch (.bounded steps) machine.handlers.length (.error symbol data) after =
      _ := dispatch_of_own hkind hhandlers hbindings hends hlist hrun hconditions
  refine (bind_of_ok hcount).trans ((bind_of_ok hmark).trans ((bind_of_ok hpushed).trans
    ((bind_of_ok hattempt).trans ?_)))
  cases hcovers : names.any (namesCondition conditions) with
  | true =>
    rw [hcovers, if_pos rfl] at hdispatch
    have hgone : truncateHandlers machine.handlers.length
        (after.catching machine.handlers symbol data) =
          .ok () (after.catching machine.handlers symbol data) :=
      truncateHandlers_append (List.nil_append _).symm
    exact (bind_of_ok hdispatch).trans (bind_of_ok hgone)
  | false =>
    rw [hcovers, if_neg Bool.false_ne_true] at hdispatch
    have hgone : truncateHandlers machine.handlers.length after =
        .ok () { after with handlers := machine.handlers } :=
      truncateHandlers_append (List.singleton_append ▸ hhandlers)
    exact (bind_of_ok hdispatch).trans (bind_of_ok hgone)

end Handling

/-! ### Errors that leave the body -/

/-- The machine on which the body of a condition-case is evaluated: all that the clauses name is in a
fresh list, and a handler for it is the innermost. -/
def Machine.guarding (machine : Machine) (names : List Value) : Machine :=
  { machine with
    heap := (machine.heap.list names).2
    handlers := ⟨(machine.heap.list names).1, .conditionCase, 0, machine.bindings.length, .host⟩ ::
      machine.handlers }

/-- Evaluate the body of a clause, with the variable, if there is one, bound to what was caught. -/
def Engine.runClause (caller : Caller) (variableName payload clause : Value) : Engine Value := do
  let clauseBody := (← heap).cdrSafe clause
  withBindings caller
    (if variableName.isNil then return () else bindVariable variableName payload) clauseBody

section Delivering

variable {steps : Nat} {machine after : Machine} {variableName body handlers symbol data : Value}
  {clauses : List Value} {named named' : List (List Value)}

theorem conditionCase_of_clauses {bound : Nat}
    (hclauses : machine.heap.ListsFrom bound handlers clauses)
    (hnamed : List.Forall₂ machine.heap.ClauseNames clauses named) (caller : Caller) :
    conditionCase caller variableName body handlers machine =
      (do
        match ← conditionCaseIn caller (machine.heap.list named.flatten).1 (caller.eval body) with
        | .returned value => return value
        | .caught payload =>
          let symbol ← car payload
          let raised ← errorConditions symbol
          let clause ← coveringClause raised clauses
          runClause caller variableName payload clause : Engine Value)
        { machine with heap := (machine.heap.list named.flatten).2 } := by
  have helements : elements handlers machine.toStore = .ok clauses machine.toStore :=
    elements_of_listsFrom hclauses
  have hconditions : clauseConditions clauses machine.toStore =
      .ok named.flatten machine.toStore := clauseConditions_of_names hnamed
  exact (bind_of_ok (liftM_of_ok helements)).trans (bind_of_ok (liftM_of_ok hconditions))

/-- An error that has been caught goes to the clause that is chosen by its conditions. -/
theorem conditionCase_of_caught {caller : Caller} {bound : Nat} {conditions : List Value}
    {found : Value} (hclauses : machine.heap.ListsFrom bound handlers clauses)
    (hnamed : List.Forall₂ machine.heap.ClauseNames clauses named)
    (hcaught : conditionCaseIn caller (machine.heap.list named.flatten).1 (caller.eval body)
      { machine with heap := (machine.heap.list named.flatten).2 } =
        .ok (.caught (after.payload symbol data)) (after.catching machine.handlers symbol data))
    (hconditions : errorConditions symbol (after.catching machine.handlers symbol data).toStore =
      .ok conditions (after.catching machine.handlers symbol data).toStore)
    (hfound : coveringClause conditions clauses
      (after.catching machine.handlers symbol data).toStore =
        .ok found (after.catching machine.handlers symbol data).toStore) :
    conditionCase caller variableName body handlers machine =
      runClause caller variableName (after.payload symbol data) found
        (after.catching machine.handlers symbol data) := by
  have hpayload : (after.catching machine.handlers symbol data).heap.cons?
      (after.payload symbol data) = some (symbol, data) :=
    Heap.cons?_eq_some.mpr (Heap.getElem?_allocate _ _)
  have hcar : car (after.payload symbol data)
      (after.catching machine.handlers symbol data).toStore =
        .ok symbol (after.catching machine.handlers symbol data).toStore := by
    rw [car_of_isList]
    · rw [Heap.carSafe, hpayload]
      rfl
    · rw [Heap.isList, Heap.isCons, hpayload, Option.isSome_some, Bool.or_true]
  rw [conditionCase_of_clauses hclauses hnamed]
  refine (bind_of_ok hcaught).trans ((bind_of_ok (liftM_of_ok hcar)).trans ?_)
  exact (bind_of_ok (liftM_of_ok hconditions)).trans (bind_of_ok (liftM_of_ok hfound))

variable (variableName) in
/-- An error that leaves the body of a condition-case, where no list of conditions is circular, the
handler's own list is as it was, and the conditions of the error do not change while it is
delivered.

1. An error that is covered by what the clauses named at first is caught, and the first clause whose
   head covers it now is the one whose body is evaluated, with the variable bound to the symbol and
   the data of the error in one cons. If no head covers it, the clause is nil all the same.
2. Any other error propagates, and only the handler is gone.
3. If the clauses still name the same, the errors that are caught are those that some head covers,
   and, where some head is nil, those that have nil among their conditions. -/
theorem conditionCase_delivers (hclauses : machine.heap.ListsFrom 0 handlers clauses)
    (hnamed : List.Forall₂ machine.heap.ClauseNames clauses named)
    (hbody : (Caller.bounded steps).eval body (machine.guarding named.flatten) =
      .error (.signal (.error symbol data)) after)
    (hends : after.ListsEnd)
    (hlist : after.heap.ListsFrom 0 (machine.heap.list named.flatten).1 named.flatten)
    (hlater : List.Forall₂ after.heap.ClauseNames clauses named')
    (hsteady : ∀ conditions,
      errorConditions symbol after.toStore = .ok conditions after.toStore →
        errorConditions symbol (after.catching machine.handlers symbol data).toStore =
          .ok conditions (after.catching machine.handlers symbol data).toStore) :
    let run := conditionCase (.bounded steps) variableName body handlers machine
    let deliver := fun clause ↦
      runClause (.bounded steps) variableName (after.payload symbol data) clause
        (after.catching machine.handlers symbol data)
    let caught := ∃ name ∈ named.flatten, after.Covers symbol name
    (caught →
      (∃ earlier clause others, clauses = earlier ++ clause :: others ∧
          after.ClauseCovers symbol clause ∧
          (∀ other ∈ earlier, ¬ after.ClauseCovers symbol other) ∧ run = deliver clause) ∨
        (∀ clause ∈ clauses, ¬ after.ClauseCovers symbol clause) ∧ run = deliver .nil) ∧
      (¬ caught → run = .error (.signal (.error symbol data))
        { after with handlers := machine.handlers }) ∧
      (named' = named → (caught ↔ (∃ clause ∈ clauses, after.ClauseCovers symbol clause) ∨
        (∃ clause ∈ clauses, after.heap.carSafe clause = .nil) ∧
          after.IsCondition symbol .nil)) := by
  intro run deliver caught
  obtain ⟨hhandlers, hbindings⟩ := (Request.evaluating body).leaves_of_signal hbody
  obtain ⟨conditions, hrun, hhas⟩ := signalConditions_apply hends.conditions (.error symbol data)
  have hconditions : ∀ condition, condition ∈ conditions ↔ after.IsCondition symbol condition :=
    hhas symbol data rfl
  have hcaught : named.flatten.any (namesCondition conditions) = true ↔ caught := by
    simp only [List.any_eq_true, namesCondition_iff hconditions, caught]
  let listed : Machine := { machine with heap := (machine.heap.list named.flatten).2 }
  have hcase : conditionCaseIn (.bounded steps) (machine.heap.list named.flatten).1
      ((Caller.bounded steps).eval body) listed = _ :=
    conditionCaseIn_of_error hbody hhandlers hbindings hends hlist hrun hconditions
  refine ⟨fun hmeets ↦ ?_, fun hmisses ↦ ?_, ?_⟩
  · rw [hcaught.mpr hmeets, if_pos rfl] at hcase
    have hheap : after.heap.KeptIn (after.catching machine.handlers symbol data).toStore.heap :=
      after.heap.keptIn_allocate (.cons symbol data)
    obtain ⟨found, hfound, hchoice⟩ := coveringClause_of_names hconditions hheap hlater
    have hdelivered : run = deliver found :=
      conditionCase_of_caught hclauses hnamed hcase (hsteady conditions hrun) hfound
    rcases hchoice with ⟨earlier, others, hsplit, hcovers, hearlier⟩ | ⟨rfl, hnone⟩
    · exact .inl ⟨earlier, found, others, hsplit, hcovers, hearlier, hdelivered⟩
    · exact .inr ⟨hnone, hdelivered⟩
  · rw [if_neg fun hmeets ↦ hmisses (hcaught.mp hmeets)] at hcase
    exact (conditionCase_of_clauses hclauses hnamed _).trans (bind_of_error hcase)
  · rintro rfl
    exact hcaught.symm.trans (any_flatten_iff hconditions hlater)

end Delivering

/-- The symbols of a machine in which only `eval` and `signal` are defined, as the primitives at the
addresses 0 and 1. -/
def evalAndSignal : SymbolTable :=
  ⟨Array.replicate 6 default ++ #[{ name := "eval", function := .object 0 }] ++
    Array.replicate 39 default ++ #[{ name := "signal", function := .object 1 }]⟩

theorem evalAndSignal_property? (index : Nat) (property : Value) :
    evalAndSignal.property? index property = none := by
  have hproperties : ∀ symbol ∈ evalAndSignal.symbols, symbol.properties = [] := by decide +kernel
  rw [SymbolTable.property?, SymbolTable.get, Array.getD_eq_getD_getElem?]
  cases hsymbol : evalAndSignal.symbols[index]? with
  | none => rfl
  | some symbol =>
    rw [Option.getD_some, hproperties symbol (Array.mem_of_getElem? hsymbol), List.lookup_nil]

set_option maxRecDepth 8000 in
/-- A variable without a value is evaluated under the clauses `(nil 7)` and `((void-variable) 8)`.
The second one is evaluated. -/
theorem conditionCase_delivers_second :
    let objects := #[.primitive 121 "eval", .primitive 116 "signal",
      .cons (.object 3) (.object 5), .cons .nil (.object 4), .cons (.fixnum 7) .nil,
      .cons (.object 6) .nil, .cons (.object 7) (.object 8), .cons Symbols.voidVariable .nil,
      .cons (.fixnum 8) .nil]
    let machine : Machine :=
      { heap := { Heap.empty 1 with objects := objects }, symbols := evalAndSignal, settings := {} }
    let named := [[.nil], [Symbols.voidVariable]]
    let after : Machine := { machine.guarding named.flatten with
      heap := ((machine.guarding named.flatten).heap.list [.symbol 46]).2 }
    machine.heap.ListsFrom 0 (.object 2) [.object 3, .object 6] ∧
      List.Forall₂ machine.heap.ClauseNames [.object 3, .object 6] named ∧
      (Caller.bounded 3).eval (.symbol 46) (machine.guarding named.flatten) =
        .error (.signal (.error Symbols.voidVariable (.object 11))) after ∧
      after.ListsEnd ∧
      after.heap.ListsFrom 0 (machine.heap.list named.flatten).1 named.flatten ∧
      List.Forall₂ after.heap.ClauseNames [.object 3, .object 6] named ∧
      conditionCase (.bounded 3) .nil (.symbol 46) (.object 2) machine =
        runClause (.bounded 3) .nil (.object 12) (.object 6)
          (after.catching [] Symbols.voidVariable (.object 11)) := by
  intro objects machine named after
  have hclauses : machine.heap.ListsFrom 0 (.object 2) [.object 3, .object 6] :=
    .cons (Nat.zero_le _) rfl (.cons (Nat.zero_le _) rfl .nil)
  have hnamed : List.Forall₂ machine.heap.ClauseNames [.object 3, .object 6] named :=
    .cons (.symbol rfl rfl) (.cons (.list rfl rfl (.cons (Nat.zero_le _) rfl .nil)) .nil)
  have hbody : (Caller.bounded 3).eval (.symbol 46) (machine.guarding named.flatten) =
      .error (.signal (.error Symbols.voidVariable (.object 11))) after := rfl
  have hlist : after.heap.ListsFrom 0 (machine.heap.list named.flatten).1 named.flatten :=
    .cons (Nat.zero_le _) rfl (.cons (Nat.zero_le _) rfl .nil)
  have hends : after.ListsEnd := by
    constructor
    · intro index list hproperty
      rw [show after.symbols = evalAndSignal from rfl, evalAndSignal_property?] at hproperty
      cases hproperty
    · intro handler hmem _
      obtain rfl := List.mem_singleton.mp hmem
      exact ⟨.nil, .rest (.rest .self rfl) rfl, rfl⟩
  have hkept : List.Forall₂ after.heap.ClauseNames [.object 3, .object 6] named :=
    .cons (.symbol rfl rfl) (.cons (.list rfl rfl (.cons (Nat.zero_le _) rfl .nil)) .nil)
  have hbefore : errorConditions Symbols.voidVariable after.toStore =
      .ok [Symbols.voidVariable] after.toStore := rfl
  have hcondition : after.Covers Symbols.voidVariable Symbols.voidVariable :=
    .inr (.itself (evalAndSignal_property? 19 _))
  have hcovers : after.ClauseCovers Symbols.voidVariable (.object 6) :=
    ⟨by decide, [Symbols.voidVariable], .list rfl rfl (.cons (Nat.zero_le _) rfl .nil),
      Symbols.voidVariable, List.mem_singleton_self _, hcondition⟩
  refine ⟨hclauses, hnamed, hbody, hends, hlist, hkept, ?_⟩
  have hsteady (conditions : List Value)
      (hrun : errorConditions Symbols.voidVariable after.toStore = .ok conditions after.toStore) :
      errorConditions Symbols.voidVariable
          (after.catching machine.handlers Symbols.voidVariable (.object 11)).toStore =
        .ok conditions
          (after.catching machine.handlers Symbols.voidVariable (.object 11)).toStore := by
    cases hbefore.symm.trans hrun
    rfl
  have hdelivered :=
    (conditionCase_delivers .nil hclauses hnamed hbody hends hlist hkept hsteady).1
  obtain ⟨earlier, clause, others, hsplit, hfirst, -, hrun⟩ | ⟨hnone, -⟩ :=
    hdelivered ⟨Symbols.voidVariable, by decide, hcondition⟩
  · match earlier, hsplit with
    | [], hsplit =>
      cases hsplit
      exact absurd rfl hfirst.1
    | [_], hsplit =>
      cases hsplit
      exact hrun
    | _ :: _ :: _ :: _, hsplit => cases hsplit
  · exact absurd hcovers (hnone _ (by simp))

/-- The body `(signal nil nil)` under the clause `(nil 7)`. The error has nil among its conditions, as
it has no other ones than its own symbol. It is caught, and goes to no clause. -/
theorem conditionCase_swallows :
    let objects := #[.primitive 121 "eval", .primitive 116 "signal",
      .cons (.symbol 46) (.object 3), .cons .nil (.object 4), .cons .nil .nil,
      .cons (.object 6) .nil, .cons .nil (.object 7), .cons (.fixnum 7) .nil]
    let machine : Machine :=
      { heap := { Heap.empty 1 with objects := objects }, symbols := evalAndSignal, settings := {} }
    let run := conditionCase (.bounded 9) .nil (.object 2) (.object 5) machine
    machine.heap.ListsFrom 0 (.object 5) [.object 6] ∧
      List.Forall₂ machine.heap.ClauseNames [.object 6] [[.nil]] ∧
      (∃ after, (Caller.bounded 9).eval (.object 2) (machine.guarding [.nil]) =
        .error (.signal (.error .nil .nil)) after ∧ ¬ after.ClauseCovers .nil (.object 6)) ∧
      Finishes run ∧ EndsAs (fun result _ ↦ result = .nil) (fun _ _ ↦ False) run := by
  intro objects machine run
  have hlist : machine.heap.ListsFrom 0 (.object 5) [.object 6] :=
    .cons (Nat.zero_le _) rfl .nil
  have hruns : StopsWith (.error .nil .nil)
        ((Caller.bounded 9).eval (.object 2) (machine.guarding [.nil])) ∧
      EndsAs (fun _ _ ↦ False) (fun _ after ↦ after.heap.carSafe (.object 6) = .nil)
        ((Caller.bounded 9).eval (.object 2) (machine.guarding [.nil])) ∧
      Finishes run ∧ EndsAs (fun result _ ↦ result = .nil) (fun _ _ ↦ False) run := by
    decide +kernel
  obtain ⟨⟨after, hstops⟩, hhead, hrun⟩ := hruns
  rw [hstops] at hhead
  refine ⟨hlist, .cons (.symbol rfl rfl) .nil, ⟨after, hstops, fun hcovers ↦ ?_⟩, hrun⟩
  cases hhead with
  | signal hnil => exact hcovers.1 hnil
end LispMachine
