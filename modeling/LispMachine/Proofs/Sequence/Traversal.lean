import LispMachine.Primitive.Control
import LispMachine.Primitive.Text
import LispMachine.Proofs.Run.Coupled
import LispMachine.Proofs.Sequence.Circularity

/-!
Reading whole lists. Application, evaluation, joining strings and the search for handlers read a
list item by item until they meet something that is no cons, and count nothing on the way. Here that
loop is taken turn by turn (`Heap.traverse`). It comes to its end exactly for lists that do
(`exists_traversedIn_iff`), and then what has read the list goes on with the items. On a circular
list every turn is followed by another, so nothing that reads a list in this way comes to a result
there, while the walks that count conses raise an error. The main statement is
`traversal_ends_iff`; `traversal_of_circle_never_ends` is the smallest circle.
-/

set_option autoImplicit false

namespace LispMachine

open LispMachine.Action Storage Engine

namespace Heap

variable {heap : Heap} {list : Value} {turns : Nat}

/-! ### Turn by turn -/

/-- Where the reading of a list stands: the items so far, and the tail that comes next. -/
structure Traversal where
  items : List Value
  tail : Value

/-- One more turn, unless the tail is no cons. -/
def Traversal.next? (heap : Heap) (traversal : Traversal) : Option Traversal :=
  (heap.cons? traversal.tail).map fun (car, cdr) ↦ ⟨traversal.items ++ [car], cdr⟩

/-- Where the reading stands after a number of turns, if it has taken as many. -/
def traverse (heap : Heap) (list : Value) : Nat → Option Traversal
  | 0 => some ⟨[], list⟩
  | turns + 1 => (heap.traverse list turns).bind (Traversal.next? heap)

/-- The reading has come to its end after a number of turns. -/
def TraversedIn (heap : Heap) (list : Value) (turns : Nat) (traversal : Traversal) : Prop :=
  heap.traverse list turns = some traversal ∧ traversal.next? heap = none

/-- Each turn goes along one cons. -/
theorem traverse_eq_some_iff {traversal : Traversal} :
    heap.traverse list turns = some traversal ↔
      ∃ cells, heap.Path list cells traversal.tail ∧ cells.length = turns ∧
        cells.map Cell.item = traversal.items := by
  induction turns generalizing traversal with
  | zero =>
    constructor
    · rintro ⟨⟩
      exact ⟨[], .here, rfl, rfl⟩
    · rintro ⟨cells, hpath, hlength, hitems⟩
      obtain rfl := List.eq_nil_of_length_eq_zero hlength
      cases traversal
      cases hitems
      cases hpath
      rfl
  | succ turns ih =>
    obtain ⟨items, tail⟩ := traversal
    constructor
    · intro hturn
      obtain ⟨before, hbefore, hnext⟩ := Option.bind_eq_some_iff.mp hturn
      obtain ⟨⟨car, cdr⟩, hcons, hafter⟩ := Option.map_eq_some_iff.mp hnext
      obtain ⟨cells, hpath, hlength, hitems⟩ := ih.mp hbefore
      obtain ⟨address, -, hlast⟩ := Path.of_cons? hcons
      cases hafter
      exact ⟨_, hpath.trans hlast, by simp [hlength], by simp [hitems]⟩
    · rintro ⟨cells, hpath, hlength, hitems⟩
      obtain rfl | ⟨front, cell, rfl⟩ := cells.eq_nil_or_concat'
      · cases hlength
      · obtain ⟨hfront, hcell⟩ := hpath.of_concat
        have hbefore : heap.traverse list turns =
            some ⟨front.map Cell.item, .object cell.address⟩ :=
          ih.mpr ⟨front, hfront, by simpa using hlength, rfl⟩
        refine Option.bind_eq_some_iff.mpr ⟨_, hbefore, ?_⟩
        refine Option.map_eq_some_iff.mpr ⟨_, cons?_object.mpr hcell, ?_⟩
        simpa using hitems

theorem next?_eq_none_iff {traversal : Traversal} :
    traversal.next? heap = none ↔ heap.cons? traversal.tail = none :=
  Option.map_eq_none_iff

theorem traversedIn_iff {traversal : Traversal} :
    heap.TraversedIn list turns traversal ↔
      ∃ cells, heap.Spine list cells traversal.tail ∧ cells.length = turns ∧
        cells.map Cell.item = traversal.items := by
  unfold TraversedIn
  rw [traverse_eq_some_iff, next?_eq_none_iff]
  constructor
  · rintro ⟨⟨cells, hpath, hcells⟩, hends⟩
    exact ⟨cells, ⟨hpath, hends⟩, hcells⟩
  · rintro ⟨cells, hspine, hcells⟩
    exact ⟨⟨cells, hspine.path, hcells⟩, hspine.ends⟩

theorem exists_traversedIn_iff :
    (∃ turns traversal, heap.TraversedIn list turns traversal) ↔ heap.Terminates list := by
  rw [terminates_iff_exists_spine]
  constructor
  · rintro ⟨turns, traversal, htraversed⟩
    obtain ⟨cells, hspine, -⟩ := traversedIn_iff.mp htraversed
    exact ⟨cells, _, hspine⟩
  · rintro ⟨cells, tail, hspine⟩
    exact ⟨_, ⟨cells.map Cell.item, tail⟩, traversedIn_iff.mpr ⟨cells, hspine, rfl, rfl⟩⟩

end Heap

/-! ### What a read list is for -/

section Actions

variable {Reason State α β : Type}

theorem bind_congr_left {first first' : Action Reason State α} {state : State}
    (hsame : first state = first' state) (next : α → Action Reason State β) :
    (first >>= next) state = (first' >>= next) state := by
  change EStateM.bind first next state = EStateM.bind first' next state
  unfold EStateM.bind
  rw [hsame]

theorem liftM_congr {action action' : Storage α} {machine : Machine}
    (hsame : action machine.toStore = action' machine.toStore) :
    (liftM action : Engine α) machine = (liftM action' : Engine α) machine := by
  rw [liftM_apply, liftM_apply, hsame]

theorem liftM_bind (first : Storage α) (next : α → Storage β) (machine : Machine) :
    (liftM (first >>= next) : Engine β) machine =
      ((liftM first : Engine α) >>= fun result ↦ liftM (next result)) machine := by
  cases hfirst : first machine.toStore with
  | ok result store =>
    rw [bind_of_ok (liftM_of_ok hfirst), liftM_apply, liftM_apply, bind_of_ok hfirst]
  | error stop store =>
    have hlift : (liftM first : Engine α) machine =
        .error stop.ofStore { machine with toStore := store } := by rw [liftM_apply, hfirst]
    rw [bind_of_error hlift, liftM_apply, bind_of_error hfirst]

end Actions

/-- The action stops with an error. Its data is a fresh list, and everything that was there before
is as it was. -/
def Machine.Raises {α : Type} (machine : Machine) (action : Engine α) (symbol : Value)
    (data : List Value) : Prop :=
  ∃ list heap, action machine =
      .error (.signal (.error symbol list)) { machine with heap := heap } ∧
    machine.heap.KeptIn heap ∧ heap.ListsFrom machine.heap.size list data

/-! ### Reading as an action -/

namespace Storage

variable {store : Store} {list : Value}

theorem elements_apply (list : Value) (store : Store) :
    elements list store =
      (match store.heap.chain list with
        | (items, .proper) => Pure.pure items
        | (_, .improper) => wrongType Symbols.listp list
        | (_, .endless) => exhausted : Storage (List Value)) store :=
  rfl

theorem elements_keeps {items : List Value} {after : Store}
    (hread : elements list store = .ok items after) : after = store := by
  rw [elements_apply] at hread
  generalize store.heap.chain list = chain at hread
  obtain ⟨chained, ending⟩ := chain
  cases ending <;> cases hread
  rfl

theorem elements_of_spine {cells : List Heap.Cell} {tail : Value}
    (hspine : store.heap.Spine list cells tail) :
    leadingElements list store = .ok (cells.map Heap.Cell.item) store ∧
      if tail = .nil then elements list store = .ok (cells.map Heap.Cell.item) store
      else elements list store = wrongType Symbols.listp list store := by
  rw [leadingElements_apply, elements_apply, hspine.chain_eq]
  by_cases htail : tail = .nil
  · rw [htail]
    exact ⟨rfl, rfl⟩
  · rw [if_neg htail, if_neg htail]
    exact ⟨rfl, rfl⟩

/-- A circular list is never read. -/
theorem elements_of_not_terminates (hcircle : ¬ store.heap.Terminates list) :
    leadingElements list store = .error (.exhausted .rounds) store ∧
      elements list store = .error (.exhausted .rounds) store := by
  rw [Heap.terminates_iff_exists_spine] at hcircle
  have hchain := (Heap.hasEnd_endless_of_no_spine hcircle).chain_eq
  rw [leadingElements_apply, elements_apply]
  generalize store.heap.chain list = chain at hchain ⊢
  obtain ⟨items, ending⟩ := chain
  cases hchain
  exact ⟨rfl, rfl⟩

end Storage

section Joining

variable {store : Store} {list : Value} {before : List Value}

/-- The string of characters that stand between those of other arguments. -/
def Storage.joinAround (before after items : List Value) : Storage Value := do
  let front ← concatParts before
  let part ← characters items
  makeString (String.ofList (front ++ (part ++ (← concatParts after))))

theorem concatParts_append
    (hbefore : ∀ value ∈ before, ∃ part, concatPart value store = .ok part store) :
    ∃ front, concatParts before store = .ok front store ∧ ∀ after,
      concatParts (before ++ after) store =
        (do return front ++ (← concatParts after) : Storage (List Char)) store := by
  induction before with
  | nil => exact ⟨[], rfl, fun after ↦ by simp⟩
  | cons value before ih =>
    obtain ⟨part, hpart⟩ := hbefore value List.mem_cons_self
    obtain ⟨front, hfront, hrest⟩ := ih fun other hmem ↦ hbefore other (List.mem_cons_of_mem _ hmem)
    refine ⟨part ++ front, (bind_of_ok hpart).trans (bind_of_ok hfront), fun after ↦ ?_⟩
    refine (bind_of_ok hpart).trans ((bind_congr_left (hrest after) _).trans ?_)
    simp

theorem concat_apply (hcons : store.heap.isCons list = true)
    (hbefore : ∀ value ∈ before, ∃ part, concatPart value store = .ok part store)
    (after : List Value) :
    Storage.concat (before ++ list :: after) store =
      (elements list >>= joinAround before after) store := by
  obtain ⟨front, hfront, hparts⟩ := concatParts_append hbefore
  obtain ⟨⟨car, cdr⟩, hparts'⟩ := Option.isSome_iff_exists.mp hcons
  have hpart : concatPart list store = (elements list >>= characters) store := by
    have hobject : object? list store = .ok (some (.cons car cdr)) store :=
      congrArg (EStateM.Result.ok · store) (Heap.cons?_eq_some.mp hparts')
    exact bind_of_ok hobject
  calc Storage.concat (before ++ list :: after) store
    _ = ((do return front ++ (← concatParts (list :: after)) : Storage (List Char)) >>=
          fun chars ↦ makeString (String.ofList chars)) store := bind_congr_left (hparts _) _
    _ = (concatPart list >>= fun part ↦ concatParts after >>= fun rest ↦
          makeString (String.ofList (front ++ (part ++ rest)))) store := by simp [concatParts]
    _ = (elements list >>= fun items ↦ characters items >>= fun part ↦ concatParts after >>=
          fun rest ↦ makeString (String.ofList (front ++ (part ++ rest)))) store := by
      rw [bind_congr_left hpart, bind_assoc]
    _ = (elements list >>= joinAround before after) store := by
      cases helements : elements list store with
      | ok items kept =>
        obtain rfl := elements_keeps helements
        rw [bind_of_ok helements, bind_of_ok helements]
        unfold joinAround
        rw [bind_of_ok hfront]
      | error stop kept => rw [bind_of_error helements, bind_of_error helements]

end Joining

/-- What reads a list before it goes on with the items: `apply` with the arguments in front of the
list, `concat` with the arguments around it, the evaluation of forms in order, and the evaluation of
a call. -/
inductive Consumer where
  | apply (front : List Value)
  | concat (before after : List Value)
  | progn
  | call (form head : Value)

namespace Consumer

/-- The list is what is read: it is reached as an argument of `concat`, and it holds the argument
forms of a call that is no special form. -/
def Takes (machine : Machine) (list : Value) : Consumer → Prop
  | apply _ | progn => True
  | concat before _ => machine.heap.isCons list = true ∧
      ∀ value ∈ before, ∃ part, concatPart value machine.toStore = .ok part machine.toStore
  | call form head => machine.heap.cons? form = some (head, list) ∧
      head ∉ [Symbols.quote, Symbols.function, Symbols.progn] ∧
      specialForm? head machine.toStore = .ok none machine.toStore

def run (caller : Caller) (list : Value) : Consumer → Engine Value
  | apply front => applySpread caller (front ++ [list])
  | concat before after => Storage.concat (before ++ list :: after)
  | progn => Engine.progn caller list
  | call form _ => evaluate caller form

/-- What is done with the items. -/
def goOn (caller : Caller) (items : List Value) : Consumer → Engine Value
  | apply front =>
    match front ++ items with
    | [] => error Symbols.wrongNumberOfArguments [Symbols.many, .fixnum 0]
    | function :: rest => caller.apply function rest
  | concat before after => (joinAround before after items : Storage Value)
  | progn => evaluateEach caller .nil items
  | call _ head => do caller.apply head (← evaluateArguments caller items)

theorem run_apply (consumer : Consumer) (caller : Caller) {machine : Machine} {list : Value}
    (htakes : consumer.Takes machine list) :
    consumer.run caller list machine =
      ((liftM (elements list) : Engine (List Value)) >>= (consumer.goOn caller ·)) machine := by
  cases consumer with
  | progn => rfl
  | apply front =>
    change applySpread caller (front ++ [list]) machine = _
    unfold applySpread
    rw [List.getLast?_concat, List.dropLast_concat]
    rfl
  | call form head =>
    obtain ⟨hform, hhead, hspecial⟩ := htakes
    simp only [List.mem_cons, List.not_mem_nil, or_false, not_or] at hhead
    obtain ⟨hquote, hfunction, hprogn⟩ := hhead
    cases form with
    | fixnum | symbol => cases hform
    | object address =>
      have hread : (liftM Storage.heap : Engine Heap) machine = .ok machine.heap machine := rfl
      change evaluate caller (.object address) machine = _
      refine (bind_of_ok hread).trans ?_
      rw [hform]
      dsimp only
      rw [if_neg (not_or.mpr ⟨hquote, hfunction⟩), if_neg hprogn]
      exact bind_of_ok (liftM_of_ok hspecial)
  | concat before after =>
    obtain ⟨hcons, hbefore⟩ := htakes
    change (liftM (Storage.concat (before ++ list :: after)) : Engine Value) machine = _
    rw [liftM_congr (concat_apply hcons hbefore after), liftM_bind]
    rfl

/-- What becomes of a list that is read, by how the list ends. -/
theorem run_of_spine (consumer : Consumer) (caller : Caller) {machine : Machine} {list tail : Value}
    {cells : List Heap.Cell} (htakes : consumer.Takes machine list)
    (hspine : machine.heap.Spine list cells tail) :
    if tail = .nil then
      consumer.run caller list machine = consumer.goOn caller (cells.map Heap.Cell.item) machine
    else machine.Raises (consumer.run caller list) Symbols.wrongTypeArgument
      [Symbols.listp, list] := by
  have hrun := consumer.run_apply caller htakes
  have hread := (elements_of_spine hspine).2
  split_ifs at hread ⊢
  · exact hrun.trans (bind_of_ok (liftM_of_ok hread))
  · obtain ⟨data, heap, hstops, hfresh⟩ := Store.raises_of_error hread
    exact ⟨data, heap, hrun.trans (bind_of_error (liftM_of_signal hstops)), hfresh⟩

theorem run_of_not_terminates (consumer : Consumer) (caller : Caller) {machine : Machine}
    {list : Value} (htakes : consumer.Takes machine list)
    (hcircle : ¬ machine.heap.Terminates list) :
    consumer.run caller list machine = .error (.exhausted .rounds) machine := by
  refine (consumer.run_apply caller htakes).trans (bind_of_error ?_)
  rw [liftM_apply, (elements_of_not_terminates hcircle).2]
  rfl

end Consumer

theorem coversConditions_of_not_symbol (conditions : List Value) {named : Value}
    (hsymbol : named.isSymbol = false) (store : Store) :
    coversConditions conditions named store =
      (do return (← leadingElements named).any (namesCondition conditions) : Storage Bool)
        store := by
  cases named with
  | symbol => cases hsymbol
  | fixnum | object => rfl

/-- Reading a list item by item comes to its end exactly if the list does, after one turn for each
cons. Then the items are there, and what has read the list goes on with them, or it raises an error
because the list does not end in nil; only the search for handlers takes the items as they are. On a
circular list every turn is followed by another. Nothing that reads the list comes to a result then,
and no error is raised, as it is where conses are counted. -/
theorem traversal_ends_iff (machine : Machine) (list : Value) :
    ((∃ turns traversal, machine.heap.TraversedIn list turns traversal) ↔
      machine.heap.Terminates list) ∧
    (∀ turns traversal, machine.heap.TraversedIn list turns traversal →
      turns ≤ machine.heap.size ∧
      leadingElements list machine.toStore = .ok traversal.items machine.toStore ∧
      (∀ conditions, list.isSymbol = false →
        coversConditions conditions list machine.toStore =
          .ok (traversal.items.any (namesCondition conditions)) machine.toStore) ∧
      if traversal.tail = .nil then
        elements list machine.toStore = .ok traversal.items machine.toStore ∧
        ∀ (consumer : Consumer) (caller : Caller), consumer.Takes machine list →
          consumer.run caller list machine = consumer.goOn caller traversal.items machine
      else
        machine.toStore.Raises (elements list) Symbols.wrongTypeArgument [Symbols.listp, list] ∧
        ∀ (consumer : Consumer) (caller : Caller), consumer.Takes machine list →
          machine.Raises (consumer.run caller list) Symbols.wrongTypeArgument
            [Symbols.listp, list]) ∧
    (¬ machine.heap.Terminates list →
      (∀ turns, ∃ traversal, machine.heap.traverse list turns = some traversal) ∧
      elements list machine.toStore = .error (.exhausted .rounds) machine.toStore ∧
      leadingElements list machine.toStore = .error (.exhausted .rounds) machine.toStore ∧
      (∀ conditions,
        coversConditions conditions list machine.toStore = .error (.exhausted .rounds) machine.toStore) ∧
      (∀ (consumer : Consumer) (caller : Caller), consumer.Takes machine list →
        consumer.run caller list machine = .error (.exhausted .rounds) machine) ∧
      machine.toStore.Raises (listLength list) Symbols.circularList [list]) := by
  refine ⟨Heap.exists_traversedIn_iff, fun turns traversal htraversed ↦ ?_, fun hcircle ↦ ?_⟩
  · obtain ⟨cells, hspine, rfl, hitems⟩ := Heap.traversedIn_iff.mp htraversed
    obtain ⟨hleading, helements⟩ := elements_of_spine hspine
    rw [← hitems]
    refine ⟨hspine.length_le_size, hleading, fun conditions hsymbol ↦ ?_, ?_⟩
    · rw [coversConditions_of_not_symbol conditions hsymbol, bind_of_ok hleading]
      rfl
    · have hrun (consumer : Consumer) (caller : Caller) (htakes : consumer.Takes machine list) :=
        consumer.run_of_spine caller htakes hspine
      split_ifs with htail
      · rw [if_pos htail] at helements
        simp only [if_pos htail] at hrun
        exact ⟨helements, hrun⟩
      · rw [if_neg htail] at helements
        simp only [if_neg htail] at hrun
        exact ⟨Store.raises_of_error helements, hrun⟩
  · obtain ⟨hleading, helements⟩ := elements_of_not_terminates hcircle
    have hspine := fun hspine ↦ hcircle (Heap.terminates_iff_exists_spine.mpr hspine)
    have hendless := Heap.hasEnd_endless_of_no_spine hspine
    refine ⟨fun turns ↦ ?_, helements, hleading, fun conditions ↦ ?_,
      fun consumer caller htakes ↦ consumer.run_of_not_terminates caller htakes hcircle,
      listLength_of_not_proper hendless nofun⟩
    · obtain ⟨cells, tail, hpath, hlength⟩ := hendless turns
      exact ⟨⟨_, tail⟩, Heap.traverse_eq_some_iff.mpr ⟨cells, hpath, hlength, rfl⟩⟩
    · have hsymbol : list.isSymbol = false := by
        cases list with
        | symbol index => exact absurd ⟨_, .self, rfl⟩ hcircle
        | fixnum | object => rfl
      rw [coversConditions_of_not_symbol conditions hsymbol, bind_of_error hleading]

/-- A list with one item is read in one turn, and a function applied to the item. The list that
holds 2 and goes on with itself is never read: neither for the forms of a body, nor for the
characters of a string behind another one, nor for the arguments of a call. -/
theorem traversal_ends_iff_apply :
    let heap : Heap := { objects := #[.cons (.fixnum 1) .nil, .cons (.fixnum 2) (.object 1),
      .string "ab", .cons Symbols.listp (.object 1)], threshold := 1 }
    let machine : Machine :=
      { heap := heap, settings := {}, symbols := ⟨#[{ name := "nil" }, { name := "t" }]⟩ }
    heap.TraversedIn (.object 0) 1 ⟨[.fixnum 1], .nil⟩ ∧
      (∀ caller, applySpread caller [Symbols.listp, .object 0] machine =
        caller.apply Symbols.listp [.fixnum 1] machine) ∧
      (¬ heap.Terminates (.object 1)) ∧
      (∀ caller, Engine.progn caller (.object 1) machine = .error (.exhausted .rounds) machine) ∧
      (∀ caller, (Consumer.concat [.object 2] []).run caller (.object 1) machine =
        .error (.exhausted .rounds) machine) ∧
      (∀ caller, evaluate caller (.object 3) machine = .error (.exhausted .rounds) machine) := by
  intro heap machine
  have hread : heap.TraversedIn (.object 0) 1 ⟨[.fixnum 1], .nil⟩ := ⟨rfl, rfl⟩
  have hcircle : ¬ heap.Terminates (.object 1) := by
    rintro ⟨tail, htail, hnone⟩
    have hround : tail = .object 1 := by
      clear hnone
      induction htail with
      | self => rfl
      | rest _ hcons ih =>
        cases ih
        cases hcons
        rfl
    cases hround
    cases hnone
  obtain ⟨-, hends, -⟩ := traversal_ends_iff machine (.object 0)
  obtain ⟨-, -, hnever⟩ := traversal_ends_iff machine (.object 1)
  obtain ⟨-, -, -, -, hconsumer, -⟩ := hnever hcircle
  refine ⟨hread, fun caller ↦ ?_, hcircle, fun caller ↦ hconsumer .progn caller trivial,
    fun caller ↦ hconsumer (.concat [.object 2] []) caller ?_,
    fun caller ↦ hconsumer (.call (.object 3) Symbols.listp) caller ?_⟩
  · exact (hends 1 _ hread).2.2.2.2 (.apply [Symbols.listp]) caller trivial
  · exact ⟨rfl, fun value hmem ↦ ⟨['a', 'b'], List.mem_singleton.mp hmem ▸ rfl⟩⟩
  · exact ⟨rfl, by decide, rfl⟩

/-- Applying a function to a circular list does not come to an end, nor does anything else that
reads the list. -/
theorem traversal_of_circle_never_ends :
    let heap : Heap := { objects := #[.cons (.fixnum 7) (.object 0)], threshold := 1 }
    let machine : Machine := { heap := heap, settings := {} }
    (¬ ∃ turns traversal, heap.TraversedIn (.object 0) turns traversal) ∧
      elements (.object 0) machine.toStore = .error (.exhausted .rounds) machine.toStore ∧
      leadingElements (.object 0) machine.toStore = .error (.exhausted .rounds) machine.toStore ∧
      (∀ caller, applySpread caller [Symbols.listp, .object 0] machine =
        .error (.exhausted .rounds) machine) ∧
      machine.toStore.Raises (listLength (.object 0)) Symbols.circularList [.object 0] := by
  intro heap machine
  refine ⟨?_, rfl, rfl, fun _ ↦ rfl, Store.raises_of_error rfl⟩
  rintro ⟨turns, traversal, hturns, hlast⟩
  -- however many turns have been taken, the tail is the list itself
  have hround : ∀ turns, ∃ items, heap.traverse (.object 0) turns = some ⟨items, .object 0⟩ := by
    intro turns
    induction turns with
    | zero => exact ⟨[], rfl⟩
    | succ turns ih =>
      obtain ⟨items, hitems⟩ := ih
      exact ⟨items ++ [.fixnum 7], by rw [Heap.traverse, hitems]; rfl⟩
  obtain ⟨items, hitems⟩ := hround turns
  cases hturns.symm.trans hitems
  cases hlast

end LispMachine
