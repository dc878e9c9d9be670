import LispMachine.Proofs.Run.Ownership
import LispMachine.Proofs.Run.Undoing
import LispMachine.Proofs.Store.Chains

/-!
Where a dispatched signal goes. `Store.Catches` says which handlers catch a signal: the catches with
the tag of a throw, and the handlers of errors that name t or one of the conditions of an error. A
search through the handlers finds the innermost one that does (`findHandler_apply`).

The main statement is `dispatch_reaches_innermost`. A signal that no handler of its own part of the
run catches propagates, and the machine is as it was. Otherwise the innermost handler that catches
it is taken with all inside it, the log is undone down to its mark, and it receives the payload,
unless an undoing has signalled: then the first such signal is dispatched by the handlers that are
left. Each round takes a handler, so there are no more rounds than handlers, and one in which
nothing is found. -/

set_option autoImplicit false

namespace LispMachine

open LispMachine.Action Storage Engine

/-! ### Handlers that catch a signal -/

/-- A value is one of the conditions of the error that a symbol names. -/
inductive Store.IsCondition (store : Store) : Value → Value → Prop where
  | listed {index : Nat} {conditions condition : Value}
      (hlist : store.symbols.property? index Symbols.errorConditions = some conditions)
      (hitem : store.heap.HasItem conditions condition) :
      IsCondition store (.symbol index) condition
  | itself {index : Nat} (hnone : store.symbols.property? index Symbols.errorConditions = none) :
      IsCondition store (.symbol index) (.symbol index)

/-- To name t, or one of the conditions of an error, covers the error. -/
def Store.Covers (store : Store) (symbol named : Value) : Prop :=
  named = .t ∨ store.IsCondition symbol named

/-- A handler catches a signal. Nothing catches a fault. -/
inductive Store.Catches (store : Store) (handler : Handler) : Signal → Prop where
  | thrown {value : Value} (hkind : handler.kind = .catching) :
      Catches store handler (.thrown handler.tag value)
  | symbol {symbol data : Value} {index : Nat} (hkind : handler.kind = .conditionCase)
      (htag : handler.tag = .symbol index) (hnil : handler.tag ≠ .nil)
      (hcovers : store.Covers symbol handler.tag) : Catches store handler (.error symbol data)
  | listed {symbol data named : Value} (hkind : handler.kind = .conditionCase)
      (hitem : store.heap.HasItem handler.tag named) (hcovers : store.Covers symbol named) :
      Catches store handler (.error symbol data)

/-- No list of conditions is circular, neither those of symbols nor those of handlers. -/
structure Machine.ListsEnd (machine : Machine) : Prop where
  conditions : ∀ index list, machine.symbols.property? index Symbols.errorConditions = some list →
    machine.heap.Terminates list
  tags : ∀ handler ∈ machine.handlers, handler.kind = .conditionCase →
    machine.heap.Terminates handler.tag

section Catching

variable {store : Store} {signal : Signal} {conditions : List Value} {handler : Handler}

/-- The list has the conditions of the signal, if it is an error. -/
def Signal.HasConditions (store : Store) (signal : Signal) (conditions : List Value) : Prop :=
  ∀ symbol data, signal = .error symbol data →
    ∀ condition, condition ∈ conditions ↔ store.IsCondition symbol condition

theorem signalConditions_apply
    (hends : ∀ index list, store.symbols.property? index Symbols.errorConditions = some list →
      store.heap.Terminates list) (signal : Signal) :
    ∃ conditions, signalConditions signal store = .ok conditions store ∧
      signal.HasConditions store conditions := by
  cases signal with
  | thrown | fatal => exact ⟨[], rfl, nofun⟩
  | error symbol data =>
    cases symbol with
    | fixnum | object =>
      refine ⟨[], rfl, ?_⟩
      rintro _ _ ⟨⟩ condition
      exact ⟨nofun, nofun⟩
    | symbol index =>
      change ∃ conditions, errorConditions (.symbol index) store = _ ∧ _
      rw [errorConditions_apply]
      cases hlist : store.symbols.property? index Symbols.errorConditions with
      | none =>
        refine ⟨[.symbol index], rfl, ?_⟩
        rintro _ _ ⟨⟩ condition
        rw [List.mem_singleton]
        constructor
        · rintro rfl
          exact .itself hlist
        · intro hcondition
          cases hcondition with
          | listed hsome =>
            rw [hlist] at hsome
            cases hsome
          | itself => rfl
      | some list =>
        obtain ⟨items, hrun, hitems⟩ := leadingElements_of_terminates (hends index list hlist)
        refine ⟨items, hrun, ?_⟩
        rintro _ _ ⟨⟩ condition
        rw [hitems]
        constructor
        · exact .listed hlist
        · intro hcondition
          cases hcondition with
          | listed hsome hitem =>
            rw [hlist] at hsome
            cases hsome
            exact hitem
          | itself hnone =>
            rw [hlist] at hnone
            cases hnone

theorem namesCondition_iff {symbol named : Value}
    (hconditions : ∀ condition, condition ∈ conditions ↔ store.IsCondition symbol condition) :
    namesCondition conditions named = true ↔ store.Covers symbol named := by
  unfold namesCondition Store.Covers
  rw [Bool.or_eq_true, beq_iff_eq, List.contains_iff_mem, hconditions]

/-- A tag covers an error as a symbol, which must not be nil, or as a list with an element that
does. -/
theorem coversConditions_apply {symbol tag : Value}
    (hconditions : ∀ condition, condition ∈ conditions ↔ store.IsCondition symbol condition)
    (hends : store.heap.Terminates tag) :
    ∃ covers, coversConditions conditions tag store = .ok covers store ∧
      (covers = true ↔
        (∃ index, tag = .symbol index) ∧ tag ≠ .nil ∧ store.Covers symbol tag ∨
          ∃ named, store.heap.HasItem tag named ∧ store.Covers symbol named) := by
  have hnames (named : Value) : namesCondition conditions named = true ↔ _ :=
    namesCondition_iff hconditions
  by_cases hsymbol : ∃ index, tag = .symbol index
  · obtain ⟨index, rfl⟩ := hsymbol
    have hitem : ¬ ∃ named, store.heap.HasItem (.symbol index) named ∧ store.Covers symbol named :=
      fun ⟨_, hitem, _⟩ ↦ Heap.not_hasItem rfl hitem
    refine ⟨!(Value.symbol index).isNil && namesCondition conditions (.symbol index), rfl, ?_⟩
    rw [Bool.and_eq_true, Bool.not_eq_true', hnames, or_iff_left hitem]
    simp [Value.isNil]
  · obtain ⟨items, hrun, hitems⟩ := leadingElements_of_terminates hends
    have hlisted : coversConditions conditions tag = do
        return (← leadingElements tag).any (namesCondition conditions) := by
      unfold coversConditions
      split
      · next index => exact absurd ⟨index, rfl⟩ hsymbol
      · rfl
    refine ⟨items.any (namesCondition conditions), ?_, ?_⟩
    · rw [hlisted]
      change EStateM.bind _ _ store = _
      unfold EStateM.bind
      rw [hrun]
      rfl
    · rw [List.any_eq_true, or_iff_right fun hother ↦ hsymbol hother.1]
      simp only [hitems, hnames]

theorem catchesSignal_apply (hconditions : signal.HasConditions store conditions)
    (htag : handler.kind = .conditionCase → store.heap.Terminates handler.tag) :
    ∃ catches, catchesSignal signal conditions handler store = .ok catches store ∧
      (catches = true ↔ store.Catches handler signal) := by
  unfold catchesSignal
  cases hkind : handler.kind with
  | catching =>
    cases signal with
    | thrown tag value =>
      refine ⟨handler.tag == tag, rfl, ?_⟩
      rw [beq_iff_eq]
      constructor
      · rintro rfl
        exact .thrown hkind
      · intro hcatches
        cases hcatches
        rfl
    | error symbol data =>
      refine ⟨false, rfl, nofun, fun hcatches ↦ ?_⟩
      cases hcatches with
      | symbol hother | listed hother =>
        rw [hkind] at hother
        cases hother
    | fatal fault => exact ⟨false, rfl, nofun, nofun⟩
  | conditionCase =>
    cases signal with
    | thrown tag value =>
      refine ⟨false, rfl, nofun, fun hcatches ↦ ?_⟩
      cases hcatches with
      | thrown hother =>
        rw [hkind] at hother
        cases hother
    | fatal fault => exact ⟨false, rfl, nofun, nofun⟩
    | error symbol data =>
      obtain ⟨covers, hrun, hiff⟩ :=
        coversConditions_apply (hconditions symbol data rfl) (htag hkind)
      refine ⟨covers, hrun, hiff.trans ?_⟩
      constructor
      · rintro (⟨⟨index, hindex⟩, hnil, hcovers⟩ | ⟨named, hitem, hcovers⟩)
        · exact .symbol hkind hindex hnil hcovers
        · exact .listed hkind hitem hcovers
      · intro hcatches
        cases hcatches with
        | symbol _ hindex hnil hcovers => exact .inl ⟨⟨_, hindex⟩, hnil, hcovers⟩
        | listed _ hitem hcovers => exact .inr ⟨_, hitem, hcovers⟩

/-- What a search for the innermost handler gives: the handler that catches the signal where all
further in do not, with those further out, or nothing where no handler does. -/
def HandlerStack.Innermost (store : Store) (signal : Signal) (handlers : HandlerStack) :
    Option (Handler × HandlerStack) → Prop
  | none => ∀ handler ∈ handlers, ¬ store.Catches handler signal
  | some (handler, outer) => ∃ inner : HandlerStack, handlers = inner ++ handler :: outer ∧
      store.Catches handler signal ∧ ∀ other ∈ inner, ¬ store.Catches other signal

theorem innermostMatch_apply (hconditions : signal.HasConditions store conditions)
    {handlers : HandlerStack}
    (htags : ∀ handler ∈ handlers, handler.kind = .conditionCase →
      store.heap.Terminates handler.tag) :
    ∃ found, innermostMatch signal conditions handlers store = .ok found store ∧
      handlers.Innermost store signal found := by
  induction handlers with
  | nil => exact ⟨none, rfl, by simp [HandlerStack.Innermost]⟩
  | cons handler outer ih =>
    obtain ⟨htag, hothers⟩ := List.forall_mem_cons.mp htags
    obtain ⟨catches, hcatches, hiff⟩ := catchesSignal_apply hconditions htag
    rw [innermostMatch]
    change ∃ found, EStateM.bind _ _ store = _ ∧ _
    unfold EStateM.bind
    rw [hcatches]
    cases catches with
    | true => exact ⟨some (handler, outer), rfl, [], rfl, hiff.mp rfl, by simp⟩
    | false =>
      have hmissed : ¬ store.Catches handler signal := fun hcaught ↦ Bool.false_ne_true (hiff.mpr hcaught)
      obtain ⟨found, hrun, hfound⟩ := ih hothers
      refine ⟨found, hrun, ?_⟩
      rcases found with _ | ⟨catcher, further⟩
      · exact List.forall_mem_cons.mpr ⟨hmissed, hfound⟩
      · obtain ⟨inner, hsplit, hcatcher, hinner⟩ := hfound
        exact ⟨handler :: inner, congrArg _ hsplit, hcatcher,
          List.forall_mem_cons.mpr ⟨hmissed, hinner⟩⟩

end Catching

/-! ### Dispatching -/

section Dispatching

variable {caller : Caller} {base : Nat} {signal : Signal} {machine : Machine} {handler : Handler}
  {outer : HandlerStack}

/-- The handlers above `base`: those of the part of the run that dispatches. -/
def HandlerStack.above (handlers : HandlerStack) (base : Nat) : HandlerStack :=
  handlers.take (handlers.length - base)

theorem findHandler_of_storage {conditions : List Value} {found : Option (Handler × HandlerStack)}
    (hconditions : signalConditions signal machine.toStore = .ok conditions machine.toStore)
    (hfound : innermostMatch signal conditions machine.handlers machine.toStore =
      .ok found machine.toStore) :
    findHandler base signal machine =
      .ok (found.filter fun parts ↦ base ≤ parts.2.length) machine := by
  have hlifted : (liftM (signalConditions signal) : Engine (List Value)) machine =
      .ok conditions machine := by
    rw [liftM_apply, hconditions]
  have hlifted' : (liftM (innermostMatch signal conditions machine.handlers) :
      Engine (Option (Handler × HandlerStack))) machine = .ok found machine := by
    rw [liftM_apply, hfound]
  refine (bind_of_ok hlifted).trans ((bind_of_ok hlifted').trans ?_)
  rcases found with _ | ⟨handler, outer⟩
  · rfl
  · by_cases hbase : base ≤ outer.length <;> simp only [hbase, Option.filter] <;> rfl

/-- Where no list is circular, the search finds the innermost handler that catches the signal, and
gives it if it lies above `base`. -/
theorem findHandler_apply (hends : machine.ListsEnd) (base : Nat) (signal : Signal) :
    ∃ found, machine.handlers.Innermost machine.toStore signal found ∧
      findHandler base signal machine =
        .ok (found.filter fun parts ↦ base ≤ parts.2.length) machine := by
  obtain ⟨conditions, hrun, hconditions⟩ := signalConditions_apply hends.conditions signal
  obtain ⟨found, hfound, hinnermost⟩ := innermostMatch_apply hconditions hends.tags
  exact ⟨found, hinnermost, findHandler_of_storage hrun hfound⟩

/-- However the search ends, it changes nothing, and what it finds lies above `base`. -/
theorem findHandler_cases (base : Nat) (signal : Signal) (machine : Machine) :
    findHandler base signal machine = .error (.exhausted .rounds) machine ∨
      findHandler base signal machine = .ok none machine ∨
      ∃ handler outer, findHandler base signal machine = .ok (some (handler, outer)) machine ∧
        base ≤ outer.length ∧ outer.length < machine.handlers.length := by
  obtain ⟨conditions, hconditions⟩ | hconditions :=
    Storage.Reading.signalConditions signal machine.toStore
  · obtain ⟨found, hfound⟩ | hfound :=
      innermostMatch_reading signal conditions machine.handlers machine.toStore
    · have hrun : findHandler base signal machine = _ := findHandler_of_storage hconditions hfound
      rcases found with _ | ⟨handler, outer⟩
      · exact .inr (.inl hrun)
      · by_cases hbase : base ≤ outer.length
        · simp only [hbase, Option.filter] at hrun
          exact .inr (.inr ⟨handler, outer, hrun, hbase, length_lt_of_innermostMatch hfound⟩)
        · simp only [hbase, Option.filter] at hrun
          exact .inr (.inl hrun)
    · have hlifted : (liftM (signalConditions signal) : Engine (List Value)) machine =
          .ok conditions machine := by
        rw [liftM_apply, hconditions]
      refine .inl ((bind_of_ok hlifted).trans ?_)
      change EStateM.bind (liftM (innermostMatch signal conditions machine.handlers)) _ machine = _
      unfold EStateM.bind
      rw [liftM_apply, hfound]
      rfl
  · refine .inl (bind_of_error ?_)
    rw [liftM_apply, hconditions]
    rfl

/-- A handler receives a signal: the thrown value, or a fresh cons of the symbol and the data of an
error. -/
inductive Signal.Delivers : Signal → Machine → Value → Machine → Prop where
  | error (symbol data : Value) (machine : Machine) :
      Delivers (.error symbol data) machine (machine.heap.allocate (.cons symbol data)).1
        { machine with heap := (machine.heap.allocate (.cons symbol data)).2 }
  | thrown (tag value : Value) (machine : Machine) :
      Delivers (.thrown tag value) machine value machine

/-- The end of a dispatch for a handler that was taken and whose bindings were unwound. -/
def deliverTo (handler : Handler) (signal : Signal) : Engine Disposition := do
  match ← signalPayload signal with
  | some payload => return .resume handler payload
  | none => return .propagate signal

theorem deliverTo_of_catches {store : Store} (hcatches : store.Catches handler signal)
    (machine : Machine) :
    ∃ payload after, signal.Delivers machine payload after ∧
      deliverTo handler signal machine = .ok (.resume handler payload) after := by
  cases hcatches with
  | thrown => exact ⟨_, _, .thrown _ _ machine, rfl⟩
  | symbol | listed => exact ⟨_, _, .error _ _ machine, rfl⟩

theorem dispatchWithin_of_none (hfound : findHandler base signal machine = .ok none machine)
    (rounds : Nat) :
    dispatchWithin caller base (rounds + 1) signal machine = .ok (.propagate signal) machine :=
  bind_of_ok hfound

variable (hpermits : ∀ event machine, caller.permits event machine = true)

include hpermits

/-- One round takes the handler that was found. -/
theorem dispatchWithin_of_some
    (hfound : findHandler base signal machine = .ok (some (handler, outer)) machine)
    (rounds : Nat) :
    dispatchWithin caller base (rounds + 1) signal machine =
      match unbindTo caller handler.mark { machine with handlers := outer } with
      | .ok _ after => deliverTo handler signal after
      | .error (.signal next) after => dispatchWithin caller base rounds next after
      | .error (.exhausted resource) after => .error (.exhausted resource) after := by
  refine (bind_of_ok hfound).trans ?_
  have hobserved : caller.observe (.catching signal handler.tag) machine = .ok () machine :=
    if_pos (hpermits _ _)
  refine (bind_of_ok hobserved).trans ?_
  change EStateM.bind (caller.attempt (unbindTo caller handler.mark)) _
    { machine with handlers := outer } = _
  unfold EStateM.bind
  rw [Caller.attempt_apply]
  match unbindTo caller handler.mark { machine with handlers := outer } with
  | .ok _ after => rfl
  | .error (.exhausted _) after => rfl
  | .error (.signal next) after =>
    dsimp only
    rw [if_pos (hpermits _ _)]

variable (hobeyed : Law.vacuous.Obeyed caller)

include hobeyed

omit hpermits in
/-- An unwinding leaves the handlers as they are. -/
theorem handlers_of_unbindTo {mark : BindingMark} {signal : Option Signal} {after : Machine}
    (hrun : unbindTo caller mark machine = unwoundAs signal after) :
    after.handlers = machine.handlers := by
  have hkeeps : Law.vacuous.Keeps (unbindTo caller mark) := Law.keeps_unbindTo hobeyed trivial
  have hat : Law.vacuous.At machine.handlers machine.evalDepth machine := ⟨trivial, rfl, rfl⟩
  exact (hkeeps.at_unwoundAs hat hrun).handlers_eq

/-- As many rounds as there are handlers above `base`, and one more, are enough. -/
theorem dispatchWithin_congr {rounds more : Nat} (hrounds : machine.handlers.length - base < rounds)
    (hmore : machine.handlers.length - base < more) :
    dispatchWithin caller base rounds signal machine =
      dispatchWithin caller base more signal machine := by
  induction rounds generalizing more signal machine with
  | zero => exact absurd hrounds (Nat.not_lt_zero _)
  | succ rounds ih =>
    obtain ⟨more, rfl⟩ := Nat.exists_eq_succ_of_ne_zero (Nat.ne_of_gt (Nat.zero_lt_of_lt hmore))
    obtain hfound | hfound | ⟨handler, outer, hfound, hbase, hfewer⟩ :=
      findHandler_cases base signal machine
    · exact (bind_of_error hfound).trans (bind_of_error hfound).symm
    · rw [dispatchWithin_of_none hfound, dispatchWithin_of_none hfound]
    · rw [dispatchWithin_of_some hpermits hfound, dispatchWithin_of_some hpermits hfound]
      cases hrun : unbindTo caller handler.mark { machine with handlers := outer } with
      | ok _ after => rfl
      | error stop after =>
        cases stop with
        | exhausted => rfl
        | signal next =>
          have hunwound : unbindTo caller handler.mark { machine with handlers := outer } =
              unwoundAs (some next) after := hrun
          have hhandlers : after.handlers = outer := handlers_of_unbindTo hobeyed hunwound
          have hleft : after.handlers.length - base < machine.handlers.length - base := by
            rw [hhandlers]
            omega
          exact ih (by omega) (by omega)

theorem dispatch_eq_within {rounds : Nat} (hrounds : machine.handlers.length - base < rounds) :
    dispatch caller base signal machine = dispatchWithin caller base rounds signal machine :=
  show dispatchWithin caller base (machine.handlers.length + 1 + caller.rounds) signal machine = _
    from dispatchWithin_congr hpermits hobeyed (by omega) hrounds

end Dispatching

/-- What a dispatch comes to when the innermost handler that catches the signal has been taken, and
the bindings are unwound to its mark, entry by entry. If no undoing signals, the handler receives the payload.
Otherwise the first signal of an undoing is dispatched in place of the other, by the handlers that
are left. -/
def GoesTo (steps base : Nat) (signal : Signal) (machine : Machine) (handler : Handler)
    (outer : HandlerStack) : Prop :=
  ∃ undoings after,
    Unwinds (.bounded steps) handler.mark { machine with handlers := outer } undoings after ∧
    (∀ undoing ∈ undoings, undoing.Complete steps) ∧
    after.handlers = outer ∧
    match undoings.findSome? Undoing.signal with
    | none => ∃ payload last, signal.Delivers after payload last ∧
        dispatch (.bounded steps) base signal machine = .ok (.resume handler payload) last
    | some next => dispatch (.bounded steps) base signal machine =
        dispatch (.bounded steps) base next after

/-- A dispatch takes at most one round more than there are handlers above `base`. Where no list of
conditions is circular, either no handler above `base` catches the signal, which then propagates and
leaves the machine as it was, or the innermost of all handlers that catch it lies above `base`, and
the signal goes to it as soon as the bindings have been unwound. -/
theorem dispatch_reaches_innermost (steps base : Nat) (signal : Signal) (machine : Machine)
    (hends : machine.ListsEnd) :
    dispatch (.bounded steps) base signal machine =
        dispatchWithin (.bounded steps) base (machine.handlers.length - base + 1) signal machine ∧
      ((∀ handler ∈ machine.handlers.above base, ¬ machine.Catches handler signal) ∧
          dispatch (.bounded steps) base signal machine = .ok (.propagate signal) machine ∨
        ∃ inner handler outer, machine.handlers = inner ++ handler :: outer ∧ base ≤ outer.length ∧
          machine.Catches handler signal ∧ (∀ other ∈ inner, ¬ machine.Catches other signal) ∧
          (Finishes (unbindTo (.bounded steps) handler.mark { machine with handlers := outer }) →
            GoesTo steps base signal machine handler outer)) := by
  have hpermits (event : Event) (machine : Machine) :
      (Caller.bounded steps).permits event machine = true := rfl
  have hobeyed : Law.vacuous.Obeyed (.bounded steps) :=
    Law.obeyed_watched (fun _ _ ↦ trivial) steps
  have hwithin : dispatch (.bounded steps) base signal machine =
      dispatchWithin (.bounded steps) base (machine.handlers.length - base + 1) signal machine :=
    dispatch_eq_within hpermits hobeyed (Nat.lt_succ_self _)
  refine ⟨hwithin, ?_⟩
  obtain ⟨found, hinnermost, hrun⟩ := findHandler_apply hends base signal
  rcases found with _ | ⟨handler, outer⟩
  · refine .inl ⟨fun handler hmem ↦ hinnermost handler (List.mem_of_mem_take hmem), ?_⟩
    rw [hwithin]
    exact dispatchWithin_of_none hrun _
  · obtain ⟨inner, hsplit, hcatches, hinner⟩ := hinnermost
    have hlength := congrArg List.length hsplit
    rw [List.length_append, List.length_cons] at hlength
    by_cases hbase : base ≤ outer.length
    · simp only [hbase, Option.filter] at hrun
      refine .inr ⟨inner, handler, outer, hsplit, hbase, hcatches, hinner, fun hfinishes ↦ ?_⟩
      obtain ⟨undoings, after, hunwinds, hunwound⟩ := exists_unwinds hfinishes
      have hround := dispatchWithin_of_some hpermits hrun (machine.handlers.length - base)
      have hhandlers : after.handlers = outer := handlers_of_unbindTo hobeyed hunwound
      refine ⟨undoings, after, hunwinds,
        fun undoing hmem ↦ .of_undone (hunwinds.undone_of_mem undoing hmem), hhandlers, ?_⟩
      rw [hunwound, ← hwithin] at hround
      cases hmet : undoings.findSome? Undoing.signal with
      | none =>
        rw [hmet] at hround
        obtain ⟨payload, last, hdelivers, hdelivered⟩ := deliverTo_of_catches hcatches after
        exact ⟨payload, last, hdelivers, hround.trans hdelivered⟩
      | some next =>
        rw [hmet] at hround
        have hrounds : after.handlers.length - base < machine.handlers.length - base := by
          rw [hhandlers]
          omega
        exact hround.trans (dispatch_eq_within hpermits hobeyed hrounds).symm
    · simp only [hbase, Option.filter] at hrun
      refine .inl ⟨fun other hmem ↦ hinner other ?_, ?_⟩
      · have hinside : machine.handlers.length - base ≤ inner.length := by omega
        unfold HandlerStack.above at hmem
        generalize machine.handlers.length - base = count at hinside hmem
        rw [hsplit, List.take_append_of_le_length hinside] at hmem
        exact List.mem_of_mem_take hmem
      · rw [hwithin]
        exact dispatchWithin_of_none hrun _

/-- An error passes by a catch and goes to a handler for another one of its conditions, after a
binding has been undone. -/
theorem dispatch_reaches_innermost_listed :
    let heap : Heap := { (Heap.empty 1) with
      objects := #[.cons (.symbol 3) .nil, .cons (.symbol 2) (.object 0), .cons (.symbol 3) .nil] }
    let symbols : SymbolTable := ⟨#[{ name := "nil" }, { name := "t" },
      { name := "failure", properties := [(Symbols.errorConditions, .object 1)] },
      { name := "mishap" }]⟩
    let inner : Handler := ⟨.t, .catching, 0, 1, .host⟩
    let handler : Handler := ⟨.object 2, .conditionCase, 0, 0, .host⟩
    let machine : Machine :=
      { heap := heap, symbols := symbols, settings := {}, handlers := [inner, handler]
        bindings := [.binding 3 none] }
    let failure : Signal := .error (.symbol 2) .nil
    machine.ListsEnd ∧ Finishes (unbindTo (.bounded 5) 0 { machine with handlers := [] }) ∧
      GoesTo 5 0 failure machine handler [] := by
  intro heap symbols inner handler machine failure
  have hlist : machine.heap.Terminates (.object 1) := ⟨.nil, .rest (.rest .self rfl) rfl, rfl⟩
  have hends : machine.ListsEnd := by
    constructor
    · intro index list hproperty
      match index with
      | 0 | 1 | 3 => cases hproperty
      | 2 =>
        cases hproperty
        exact hlist
      | index + 4 => cases hproperty
    · intro other hmem hkind
      rcases List.mem_pair.mp hmem with rfl | rfl
      · cases hkind
      · exact ⟨.nil, .rest .self rfl, rfl⟩
  have hfinishes : Finishes (unbindTo (.bounded 5) 0 { machine with handlers := [] }) := by
    decide +kernel
  have hcatches : machine.Catches handler failure :=
    .listed rfl ⟨.object 2, .nil, .self, rfl⟩
      (.inr (.listed rfl ⟨.object 0, .nil, .rest .self rfl, rfl⟩))
  refine ⟨hends, hfinishes, ?_⟩
  obtain ⟨-, ⟨hmissed, -⟩ | ⟨further, found, outer, hsplit, -, hfound, hfurther, hgoes⟩⟩ :=
    dispatch_reaches_innermost 5 0 failure machine hends
  · exact absurd hcatches (hmissed handler (by simp [HandlerStack.above, machine]))
  · match further with
    | [] =>
      obtain ⟨rfl, -⟩ := List.cons.inj hsplit
      change Store.Catches _ _ (.error (.symbol 2) .nil) at hfound
      cases hfound with
      | symbol hkind | listed hkind => cases hkind
    | [other] =>
      obtain ⟨-, hrest⟩ := List.cons.inj hsplit
      obtain ⟨rfl, rfl⟩ := List.cons.inj hrest
      exact hgoes hfinishes
    | first :: second :: others =>
      have hlength := congrArg List.length hsplit
      simp [machine] at hlength

end LispMachine
