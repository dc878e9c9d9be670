import LispMachine.Callable
import LispMachine.Condition
import LispMachine.Dispatch
import LispMachine.Primitive.Argument
import LispMachine.Proofs.Store.Applied
import LispMachine.Proofs.Store.Markers

/-!
Actions on sound stores. `Storage.Upholds world action gives` says that from every sound store that
has grown out of `world` the action ends, in whichever way, in a sound store that has grown further;
a result satisfies `gives` there, and the values of an error are known. What is known of `world`
stays known, so facts about values that an action is given are facts about its world. The rules
follow the ways in which actions are put together, and then come the actions that all others are
made of: allocation, errors, lists, symbols, variables and buffers.
-/

set_option autoImplicit false

namespace LispMachine

variable {α β : Type}

namespace AllKnownTo

variable {store : Store}

theorem nil : AllKnownTo [] store := nofun

theorem cons {value : Value} {values : List Value} (hvalue : value.KnownTo store)
    (hvalues : AllKnownTo values store) : AllKnownTo (value :: values) store :=
  List.forall_mem_cons.mpr ⟨hvalue, hvalues⟩

theorem pair {a b : Value} (ha : a.KnownTo store) (hb : b.KnownTo store) :
    AllKnownTo [a, b] store :=
  cons ha (cons hb nil)

theorem of_pair {a b : Value} (hpair : AllKnownTo [a, b] store) :
    a.KnownTo store ∧ b.KnownTo store :=
  ⟨hpair a (by simp), hpair b (by simp)⟩

theorem append {values more : List Value} (hvalues : AllKnownTo values store)
    (hmore : AllKnownTo more store) : AllKnownTo (values ++ more) store :=
  List.forall_mem_append.mpr ⟨hvalues, hmore⟩

theorem sublist {values part : List Value} (hvalues : AllKnownTo values store)
    (hpart : part ⊆ values) : AllKnownTo part store :=
  fun value hmem ↦ hvalues value (hpart hmem)

end AllKnownTo

namespace Storage

/-- A run of a storage action from a sound store ends in a sound store that has grown. -/
inductive EndsSound (start : Store) (gives : α → Store → Prop) :
    EStateM.Result (Stop StoreError) Store α → Prop where
  | ok {result : α} {after : Store} (hgrows : start.Grows after) (hsound : after.Sound)
      (hgives : gives result after) : EndsSound start gives (.ok result after)
  | signal {reason : StoreError} {after : Store} (hgrows : start.Grows after)
      (hsound : after.Sound) (hsymbol : reason.symbol.KnownTo after)
      (hdata : reason.data.KnownTo after) :
      EndsSound start gives (.error (.signal reason) after)
  | exhausted {resource : Resource} {after : Store} (hgrows : start.Grows after)
      (hsound : after.Sound) : EndsSound start gives (.error (.exhausted resource) after)

/-- From every sound store that has grown out of a world, the action ends in a sound store that has
grown further, and its result satisfies a condition there. -/
def Upholds (world : Store) (action : Storage α) (gives : α → Store → Prop) : Prop :=
  ∀ store, world.Grows store → store.Sound → EndsSound store gives (action store)

/-- The condition of results of which nothing need be known. -/
def Anything (_ : α) (_ : Store) : Prop := True

namespace Upholds

variable {world : Store} {action : Storage α} {gives : α → Store → Prop}

/-! ### Rules -/

theorem mono {gives' : α → Store → Prop} (haction : Upholds world action gives)
    (hgives : ∀ result after, gives result after → gives' result after) :
    Upholds world action gives' := by
  intro store hgrows hsound
  have hend := haction store hgrows hsound
  generalize action store = run at hend ⊢
  cases hend with
  | ok hgrows hsound hdone => exact .ok hgrows hsound (hgives _ _ hdone)
  | signal hgrows hsound hsymbol hdata => exact .signal hgrows hsound hsymbol hdata
  | exhausted hgrows hsound => exact .exhausted hgrows hsound

theorem anything (haction : Upholds world action gives) : Upholds world action Anything :=
  haction.mono fun _ _ _ ↦ trivial

/-- A world may be replaced by what has grown out of it. -/
theorem later {store : Store} (haction : Upholds world action gives) (hgrows : world.Grows store) :
    Upholds store action gives :=
  fun after hafter hsound ↦ haction after (hgrows.trans hafter) hsound

/-- The world may be taken to be the store in which the action starts, and that is sound. -/
theorem here (haction : ∀ store, world.Grows store → store.Sound → Upholds store action gives) :
    Upholds world action gives :=
  fun store hgrows hsound ↦ haction store hgrows hsound store (.refl store) hsound

theorem pure {result : α} (hgives : ∀ store, world.Grows store → store.Sound → gives result store) :
    Upholds world (Pure.pure result) gives :=
  fun store hgrows hsound ↦ .ok (.refl store) hsound (hgives store hgrows hsound)

theorem value {value : Value} (hvalue : value.KnownTo world) :
    Upholds world (Pure.pure value) Value.KnownTo :=
  pure fun _ hgrows _ ↦ hgrows.known hvalue

theorem nil : Upholds world (Pure.pure Value.nil) Value.KnownTo :=
  pure fun _ _ hsound ↦ hsound.known_nil

theorem ofBool (b : Bool) : Upholds world (Pure.pure (Value.ofBool b)) Value.KnownTo :=
  pure fun _ _ hsound ↦ hsound.known_ofBool b

theorem ofInt (n : Int) : Upholds world (Pure.pure (Value.ofInt n)) Value.KnownTo :=
  pure fun store _ _ ↦ Value.known_ofInt n store

theorem ofNat (n : Nat) : Upholds world (Pure.pure (Value.ofNat n)) Value.KnownTo :=
  pure fun store _ _ ↦ Value.known_ofNat n store

theorem ofChar (c : Char) : Upholds world (Pure.pure (Value.ofChar c)) Value.KnownTo :=
  pure fun store _ _ ↦ Value.known_ofChar c store

theorem zero : Upholds world (Pure.pure (Value.fixnum 0)) Value.KnownTo := ofInt 0

theorem done {result : α} : Upholds world (Pure.pure result) Anything :=
  pure fun _ _ _ ↦ trivial

theorem signal {reason : StoreError}
    (hknown : ∀ store, world.Grows store → store.Sound →
      reason.symbol.KnownTo store ∧ reason.data.KnownTo store) :
    Upholds world (Action.signal reason : Storage α) gives :=
  fun store hgrows hsound ↦ .signal (.refl store) hsound (hknown store hgrows hsound).1
    (hknown store hgrows hsound).2

theorem exhausted : Upholds world (Action.exhausted : Storage α) gives :=
  fun store _ hsound ↦ .exhausted (.refl store) hsound

theorem bind {next : α → Storage β} {gives' : β → Store → Prop}
    (hfirst : Upholds world action gives)
    (hnext : ∀ result later, world.Grows later → later.Sound → gives result later →
      Upholds later (next result) gives') :
    Upholds world (action >>= next) gives' := by
  intro store hgrows hsound
  change EndsSound store gives' (EStateM.bind action next store)
  unfold EStateM.bind
  have hend := hfirst store hgrows hsound
  generalize action store = run at hend ⊢
  cases hend with
  | signal hlater hsound hsymbol hdata => exact .signal hlater hsound hsymbol hdata
  | exhausted hlater hsound => exact .exhausted hlater hsound
  | @ok result after hlater hsound hgives =>
    have hend := hnext result after (hgrows.trans hlater) hsound hgives after (.refl after) hsound
    dsimp only
    generalize next result after = run at hend ⊢
    cases hend with
    | ok hlast hsound hgives => exact .ok (hlater.trans hlast) hsound hgives
    | signal hlast hsound hsymbol hdata =>
      exact .signal (hlater.trans hlast) hsound hsymbol hdata
    | exhausted hlast hsound => exact .exhausted (hlater.trans hlast) hsound

/-- What comes after an action that never gives a result does not matter. -/
theorem never_bind {next : α → Storage β} {gives' : β → Store → Prop}
    (haction : Upholds world action fun _ _ ↦ False) : Upholds world (action >>= next) gives' :=
  bind haction fun _ _ _ _ hnever ↦ hnever.elim

/-- Go on with what an action has read from the store. -/
theorem reading_bind {read : Store → α} {next : α → Storage β} {gives' : β → Store → Prop}
    (hreads : ∀ store, action store = .ok (read store) store)
    (hnext : ∀ store, world.Grows store → store.Sound → Upholds store (next (read store)) gives') :
    Upholds world (action >>= next) gives' := by
  intro store hgrows hsound
  change EndsSound store gives' (EStateM.bind action next store)
  unfold EStateM.bind
  rw [hreads]
  exact hnext store hgrows hsound store (.refl store) hsound

/-- The store itself is changed. -/
theorem changing {result : Store → α} {change : Store → Store}
    (hrun : ∀ store, action store = .ok (result store) (change store))
    (hchange : ∀ store, world.Grows store → store.Sound →
      (change store).Sound ∧ store.Grows (change store) ∧ gives (result store) (change store)) :
    Upholds world action gives := by
  intro store hgrows hsound
  obtain ⟨hafter, hlater, hgives⟩ := hchange store hgrows hsound
  rw [hrun]
  exact .ok hlater hafter hgives

/-- Go on after an attempt, with a result of which something is known or with an error. -/
theorem attempt_bind {next : Except StoreError α → Storage β} {gives' : β → Store → Prop}
    (haction : Upholds world action gives)
    (hok : ∀ result later, world.Grows later → later.Sound → gives result later →
      Upholds later (next (.ok result)) gives')
    (herror : ∀ reason later, world.Grows later → later.Sound →
      Upholds later (next (.error reason)) gives') :
    Upholds world (Action.attempt action >>= next) gives' := by
  have hattempt : Upholds world (Action.attempt action) fun result later ↦
      match result with
      | .ok result => gives result later
      | .error _ => True := by
    intro store hgrows hsound
    unfold Action.attempt
    have hend := haction store hgrows hsound
    generalize action store = run at hend ⊢
    cases hend with
    | ok hgrows hsound hdone => exact .ok hgrows hsound hdone
    | signal hgrows hsound _ _ => exact .ok hgrows hsound trivial
    | exhausted hgrows hsound => exact .exhausted hgrows hsound
  refine bind hattempt fun result later hgrows hsound hdone ↦ ?_
  cases result with
  | ok result => exact hok result later hgrows hsound hdone
  | error reason => exact herror reason later hgrows hsound

/-! ### Allocation -/

theorem allocate {object : Object} (hobject : object.KnownTo world)
    (hdetached : ∀ index position, object ≠ .marker ⟨some index, position⟩) :
    Upholds world (Storage.allocate object) Value.KnownTo := by
  refine changing (fun _ ↦ rfl) fun store hgrows hsound ↦
    ⟨hsound.allocate (hgrows.knownObject hobject) hdetached,
      .of_heap (store.heap.kinds_allocate object), ?_⟩
  change store.heap.objects.size < (store.heap.objects.push object).size
  rw [Array.size_push]
  exact Nat.lt_succ_self _

theorem cons {car cdr : Value} (hcar : car.KnownTo world) (hcdr : cdr.KnownTo world) :
    Upholds world (Storage.cons car cdr) Value.KnownTo :=
  allocate ⟨hcar, hcdr⟩ nofun

theorem makeString (text : String) : Upholds world (Storage.makeString text) Value.KnownTo :=
  allocate trivial nofun

theorem makeFloat (x : Double) : Upholds world (Storage.makeFloat x) Value.KnownTo :=
  allocate trivial nofun

theorem makeVector {items : Array Value} (hitems : AllKnownTo items.toList world) :
    Upholds world (Storage.makeVector items) Value.KnownTo :=
  allocate hitems nofun

/-- A list is made of its last cell first. -/
theorem list {items : List Value} (hitems : AllKnownTo items world) :
    Upholds world (Storage.list items) Value.KnownTo := by
  have hlist : ∀ store, world.Grows store → store.Sound →
      let after : Store := { store with heap := (store.heap.list items).2 }
      after.Sound ∧ store.Grows after ∧ (store.heap.list items).1.KnownTo after := by
    intro store hgrows hsound
    induction items with
    | nil => exact ⟨hsound, .refl store, hsound.known_nil⟩
    | cons item items ih =>
      obtain ⟨hitem, hitems⟩ := List.forall_mem_cons.mp hitems
      obtain ⟨hmiddle, hlater, htail⟩ := ih hitems
      have hcons : (Object.cons item (store.heap.list items).1).KnownTo
          { store with heap := (store.heap.list items).2 } :=
        ⟨hlater.known (hgrows.known hitem), htail⟩
      refine ⟨hmiddle.allocate hcons nofun, hlater.trans (.of_heap (Heap.kinds_allocate _ _)), ?_⟩
      change (store.heap.list items).2.objects.size < Array.size (Array.push _ _)
      rw [Array.size_push]
      exact Nat.lt_succ_self _
  exact changing (fun _ ↦ rfl) hlist

theorem intern (name : String) : Upholds world (Storage.intern name) Value.KnownTo :=
  changing (fun _ ↦ rfl) fun _ _ hsound ↦ hsound.intern name

/-! ### Errors -/

theorem error {symbol : Value} {data : List Value} (hsymbol : symbol.isBuiltin = true)
    (hdata : AllKnownTo data world) :
    Upholds world (Storage.error symbol data : Storage α) gives :=
  bind (list hdata) fun _ _ _ _ hlist ↦
    signal fun _ hgrows hsound ↦ ⟨hsound.builtin hsymbol, hgrows.known hlist⟩

theorem wrongType {predicate value : Value} (hpredicate : predicate.isBuiltin = true)
    (hvalue : value.KnownTo world) :
    Upholds world (Storage.wrongType predicate value : Storage α) gives := by
  intro store hgrows hsound
  exact error rfl (.pair (hsound.builtin hpredicate) (hgrows.known hvalue)) store (.refl store)
    hsound

theorem argsOutOfRange {a b : Value} (ha : a.KnownTo world) (hb : b.KnownTo world) :
    Upholds world (Storage.argsOutOfRange a b : Storage α) gives :=
  error rfl (.pair ha hb)

theorem errorMessage (text : String) :
    Upholds world (Storage.errorMessage text : Storage α) gives :=
  bind (makeString text) fun _ _ _ _ hmessage ↦ error rfl (.cons hmessage .nil)

/-! ### Lists -/

theorem car {value : Value} (hvalue : value.KnownTo world) :
    Upholds world (Storage.car value) Value.KnownTo := by
  refine reading_bind (fun _ ↦ rfl) fun store hgrows hsound ↦ ?_
  cases hcons : store.heap.cons? value with
  | some parts => exact .value (hsound.known_of_cons? hcons).1
  | none =>
    dsimp only
    split_ifs
    · exact nil
    · exact wrongType rfl (hgrows.known hvalue)

theorem cdr {value : Value} (hvalue : value.KnownTo world) :
    Upholds world (Storage.cdr value) Value.KnownTo := by
  refine reading_bind (fun _ ↦ rfl) fun store hgrows hsound ↦ ?_
  cases hcons : store.heap.cons? value with
  | some parts => exact .value (hsound.known_of_cons? hcons).2
  | none =>
    dsimp only
    split_ifs
    · exact nil
    · exact wrongType rfl (hgrows.known hvalue)

theorem elements {value : Value} (hvalue : value.KnownTo world) :
    Upholds world (Storage.elements value) AllKnownTo := by
  refine reading_bind (fun _ ↦ rfl) fun store hgrows hsound ↦ ?_
  have hitems := hsound.known_chain value
  generalize store.heap.chain value = chain at hitems ⊢
  obtain ⟨items, ending⟩ := chain
  cases ending with
  | proper => exact pure fun _ hgrows _ ↦ hgrows.allKnown hitems
  | improper => exact wrongType rfl (hgrows.known hvalue)
  | endless => exact exhausted

theorem leadingElements (value : Value) :
    Upholds world (Storage.leadingElements value) AllKnownTo := by
  refine reading_bind (fun _ ↦ rfl) fun store hgrows hsound ↦ ?_
  have hitems := hsound.known_chain value
  generalize store.heap.chain value = chain at hitems ⊢
  obtain ⟨items, ending⟩ := chain
  cases ending with
  | proper | improper => exact pure fun _ hgrows _ ↦ hgrows.allKnown hitems
  | endless => exact exhausted

end Upholds

end Storage

/-! ### Symbols -/

namespace SymbolTable

theorem get_of_some {table : SymbolTable} {index : Nat} {symbol : Symbol}
    (hsymbol : table.symbols[index]? = some symbol) : table.get index = symbol := by
  unfold get
  rw [Array.getD_eq_getD_getElem?, hsymbol]
  rfl

theorem get_eq (table : SymbolTable) (index : Nat) :
    table.symbols[index]? = some (table.get index) ∨ table.get index = default := by
  cases hsymbol : table.symbols[index]? with
  | some symbol => exact .inl (by rw [get_of_some hsymbol])
  | none =>
    right
    unfold get
    rw [Array.getD_eq_getD_getElem?, hsymbol]
    rfl

end SymbolTable

namespace Store

variable {store : Store}

theorem Changeable.lt_size {index : Nat} (hchangeable : store.Changeable index) :
    index < store.symbols.size := by
  obtain ⟨name, htrait⟩ := hchangeable
  simpa using (List.getElem?_eq_some_iff.mp htrait).1

theorem changeable_of_get {index : Nat} (hindex : index < store.symbols.size)
    (hconstant : (store.symbols.get index).constant = false) : store.Changeable index := by
  have hsymbol : store.symbols.symbols[index]? = some (store.symbols.get index) := by
    rw [Array.getElem?_eq_getElem hindex,
      SymbolTable.get_of_some (Array.getElem?_eq_getElem hindex)]
  refine ⟨(store.symbols.get index).name, ?_⟩
  unfold SymbolTable.traits
  rw [List.getElem?_map, Array.getElem?_toList, hsymbol, ← hconstant]
  rfl

namespace Sound

variable (hsound : store.Sound)

include hsound

theorem known_symbol (index : Nat) : (store.symbols.get index).KnownTo store := by
  rcases store.symbols.get_eq index with hsymbol | hdefault
  · exact hsound.symbols _ (Array.mem_of_getElem? hsymbol)
  · rw [hdefault]
    exact ⟨nofun, hsound.known_nil, nofun⟩

theorem known_plainValue? {index : Nat} {value : Value}
    (hvalue : store.symbols.plainValue? index = some value) : value.KnownTo store := by
  have hcell := (hsound.known_symbol index).cell
  unfold SymbolTable.plainValue? at hvalue
  generalize (store.symbols.get index).cell = cell at hcell hvalue
  cases cell with
  | plain held =>
    cases hvalue
    exact hcell value (by simp)
  | aliasOf target => cases hvalue

theorem closed : store.symbols.Closed := by
  intro index target hcell
  have hknown := (hsound.known_symbol index).cell
  rw [hcell] at hknown
  exact hknown

theorem known_resolveWithin {limit index target : Nat}
    (hindex : (Value.symbol index).KnownTo store)
    (htarget : store.symbols.resolveWithin limit index = some target) :
    (Value.symbol target).KnownTo store :=
  hsound.closed.resolveWithin_lt hindex htarget

theorem known_property? {index : Nat} {property value : Value}
    (hvalue : store.symbols.property? index property = some value) : value.KnownTo store := by
  obtain ⟨before, after, hproperties, -⟩ := List.lookup_eq_some_iff.mp hvalue
  exact ((hsound.known_symbol index).properties (property, value) (by simp [hproperties])).2

end Sound

end Store

namespace Storage

namespace Upholds

variable {world : Store}

theorem setCell {index : Nat} {cell : ValueCell} (hchangeable : world.Changeable index)
    (hcell : cell.KnownTo world) :
    Upholds world (modifySymbols fun table ↦ table.setCell index cell) Anything :=
  changing (fun _ ↦ rfl) fun _ hgrows hsound ↦
    have hset := hsound.setCell (hgrows.changeable hchangeable) (hgrows.knownCell hcell)
    ⟨hset.1, hset.2, trivial⟩

theorem storeFunction (index : Nat) {function : Value} (hfunction : function.KnownTo world) :
    Upholds world (modifySymbols fun table ↦ table.setFunction index function) Anything :=
  changing (fun _ ↦ rfl) fun _ hgrows hsound ↦
    have hset := hsound.setFunction index (hgrows.known hfunction)
    ⟨hset.1, hset.2, trivial⟩

theorem storeProperty (index : Nat) {property value : Value} (hproperty : property.KnownTo world)
    (hvalue : value.KnownTo world) :
    Upholds world (modifySymbols fun table ↦ table.putProperty index property value) Anything :=
  changing (fun _ ↦ rfl) fun _ hgrows hsound ↦
    have hput := hsound.putProperty index (hgrows.known hproperty) (hgrows.known hvalue)
    ⟨hput.1, hput.2, trivial⟩

/-! ### Variables -/

theorem resolveVariable {symbol : Value} (hsymbol : symbol.KnownTo world) :
    Upholds world (Storage.resolveVariable symbol)
      fun target store ↦ (Value.symbol target).KnownTo store := by
  cases symbol with
  | fixnum | object => exact wrongType rfl hsymbol
  | symbol index =>
    refine reading_bind (fun _ ↦ rfl) fun store hgrows hsound ↦ ?_
    cases htarget : store.symbols.resolve? index with
    | none => exact error rfl (.cons (hgrows.known hsymbol) .nil)
    | some target =>
      exact pure fun _ hlater _ ↦
        hlater.known (hsound.known_resolveWithin (hgrows.known hsymbol) htarget)

theorem symbolValue {symbol : Value} (hsymbol : symbol.KnownTo world) :
    Upholds world (Storage.symbolValue symbol) Value.KnownTo := by
  refine bind (resolveVariable hsymbol) fun target later hgrows _ _ ↦ ?_
  refine reading_bind (fun _ ↦ rfl) fun store hlater hsound ↦ ?_
  cases hvalue : store.symbols.plainValue? target with
  | some value => exact .value (hsound.known_plainValue? hvalue)
  | none => exact error rfl (.cons (hlater.known (hgrows.known hsymbol)) .nil)

theorem resolveAssignable {symbol : Value} (hsymbol : symbol.KnownTo world) :
    Upholds world (Storage.resolveAssignable symbol)
      fun target store ↦ store.Changeable target := by
  refine bind (resolveVariable hsymbol) fun target later hgrows _ htarget ↦ ?_
  refine reading_bind (fun _ ↦ rfl) fun store hlater _ ↦ ?_
  dsimp only
  split_ifs with hconstant
  · exact never_bind (error rfl (.cons (hlater.known (hgrows.known hsymbol)) .nil))
  · have hchangeable : store.Changeable target :=
      Store.changeable_of_get (hlater.known htarget) (by simpa using hconstant)
    exact pure fun _ hlast _ ↦ hlast.changeable hchangeable

theorem setVariable {symbol value : Value} (hsymbol : symbol.KnownTo world)
    (hvalue : value.KnownTo world) :
    Upholds world (Storage.setVariable symbol value) Value.KnownTo := by
  refine bind (resolveAssignable hsymbol) fun target later hgrows _ htarget ↦ ?_
  have hcell : (ValueCell.plain (some value)).KnownTo later := .cons (hgrows.known hvalue) .nil
  refine bind (setCell htarget hcell) fun _ last hlater _ _ ↦ ?_
  exact .value (hlater.known (hgrows.known hvalue))

theorem variableValue {symbol : Value} (hsymbol : symbol.KnownTo world) :
    Upholds world (Storage.variableValue symbol) Value.KnownTo := by
  cases symbol with
  | fixnum | object => exact symbolValue hsymbol
  | symbol index =>
    refine reading_bind (fun _ ↦ rfl) fun store hgrows hsound ↦ ?_
    cases hvalue : store.symbols.plainValue? index with
    | some value => exact .value (hsound.known_plainValue? hvalue)
    | none => exact symbolValue (hgrows.known hsymbol)

end Upholds

end Storage

/-- A value is stored in a symbol's own cell only if the symbol is no constant. -/
theorem SymbolTable.assignPlain?_eq_some {table after : SymbolTable} {index : Nat} {value : Value}
    (hassigned : table.assignPlain? index value = some after) :
    (table.get index).constant = false ∧ after = table.setCell index (.plain (some value)) := by
  unfold assignPlain? at hassigned
  split at hassigned
  · next hsymbol =>
    cases hassigned
    exact ⟨by rw [hsymbol], rfl⟩
  · cases hassigned

namespace Storage.Upholds

variable {world : Store}

theorem assign {symbol value : Value} (hsymbol : symbol.KnownTo world)
    (hvalue : value.KnownTo world) : Upholds world (Storage.assign symbol value) Anything := by
  intro store hgrows hsound
  obtain ⟨index, table, rfl, hassigned, hrun⟩ | hrun := assign_plain_or_set symbol value store
  · obtain ⟨hconstant, rfl⟩ := SymbolTable.assignPlain?_eq_some hassigned
    have hcell : (ValueCell.plain (some value)).KnownTo store :=
      .cons (hgrows.known hvalue) .nil
    have hset := hsound.setCell
      (Store.changeable_of_get (hgrows.known hsymbol) hconstant) hcell
    rw [hrun]
    exact .ok hset.2 hset.1 trivial
  · rw [hrun]
    exact bind (setVariable hsymbol hvalue) (fun _ _ _ _ _ ↦ done) store hgrows hsound

/-! ### Functions -/

theorem functionBehind {function : Value} (hfunction : function.KnownTo world) (limit : Nat)
    {current : Value} (hcurrent : current.KnownTo world) :
    Upholds world (Storage.functionBehind function limit current) Value.KnownTo := by
  induction limit generalizing world current with
  | zero => exact error rfl (.cons hfunction .nil)
  | succ limit ih =>
    unfold Storage.functionBehind
    cases current with
    | fixnum | object => exact .value hcurrent
    | symbol index =>
      dsimp only
      split_ifs
      · exact error rfl (.cons hfunction .nil)
      · refine reading_bind (fun _ ↦ rfl) fun store hgrows hsound ↦ ?_
        exact ih (hgrows.known hfunction) (hsound.known_symbol index).function

theorem indirectFunction {function : Value} (hfunction : function.KnownTo world) :
    Upholds world (Storage.indirectFunction function) Value.KnownTo :=
  functionBehind hfunction _ hfunction

/-! ### Conditions -/

theorem errorConditions (symbol : Value) :
    Upholds world (Storage.errorConditions symbol) Anything := by
  cases symbol with
  | fixnum | object => exact done
  | symbol index =>
    refine reading_bind (fun _ ↦ rfl) fun store _ _ ↦ ?_
    cases store.symbols.property? index Symbols.errorConditions with
    | some conditions => exact (leadingElements conditions).anything
    | none => exact done

theorem coversConditions (conditions : List Value) (named : Value) :
    Upholds world (Storage.coversConditions conditions named) Anything := by
  cases named with
  | symbol index => exact done
  | fixnum | object => exact bind (leadingElements _) fun _ _ _ _ _ ↦ done

/-! ### Arguments -/

theorem number {value : Value} (hvalue : value.KnownTo world) :
    Upholds world (Storage.number value) Anything := by
  refine reading_bind (fun _ ↦ rfl) fun store hgrows _ ↦ ?_
  cases store.heap.number? value with
  | some number => exact done
  | none => exact wrongType rfl (hgrows.known hvalue)

theorem makeNumber (number : Number) : Upholds world (Storage.makeNumber number) Value.KnownTo := by
  unfold Storage.makeNumber
  cases number with
  | float x => exact makeFloat x
  | integer n =>
    dsimp only
    cases hvalue : Value.ofInt? n with
    | some value => exact pure fun store _ _ ↦ Value.known_of_ofInt? hvalue store
    | none => exact makeFloat _

theorem fixnumArgument {value : Value} (hvalue : value.KnownTo world) :
    Upholds world (Storage.fixnumArgument value) Anything := by
  cases value with
  | fixnum n => exact done
  | symbol | object => exact wrongType rfl hvalue

theorem naturalArgument {value : Value} (hvalue : value.KnownTo world) :
    Upholds world (Storage.naturalArgument value) Anything := by
  cases value with
  | symbol | object => exact wrongType rfl hvalue
  | fixnum n =>
    unfold Storage.naturalArgument
    dsimp only
    split_ifs
    · exact done
    · exact wrongType rfl hvalue

theorem stringArgument {value : Value} (hvalue : value.KnownTo world) :
    Upholds world (Storage.stringArgument value) Anything := by
  refine reading_bind (fun _ ↦ rfl) fun store hgrows _ ↦ ?_
  cases store.heap.string? value with
  | some text => exact done
  | none => exact wrongType rfl (hgrows.known hvalue)

theorem characterArgument {value : Value} (hvalue : value.KnownTo world) :
    Upholds world (Storage.characterArgument value) Anything := by
  cases value with
  | symbol | object => exact wrongType rfl hvalue
  | fixnum n =>
    unfold Storage.characterArgument
    dsimp only
    cases character? n with
    | some c => exact done
    | none => exact wrongType rfl hvalue

theorem symbolArgument {value : Value} (hvalue : value.KnownTo world) :
    Upholds world (Storage.symbolArgument value)
      fun index store ↦ (Value.symbol index).KnownTo store := by
  cases value with
  | symbol index => exact pure fun _ hgrows _ ↦ hgrows.known hvalue
  | fixnum | object => exact wrongType rfl hvalue

theorem positionArgument {value : Value} (hvalue : value.KnownTo world) :
    Upholds world (Storage.positionArgument value) Anything := by
  refine attempt_bind (number hvalue) (fun number later hlater _ _ ↦ ?_) fun reason later hlater _ ↦
    wrongType rfl (hlater.known hvalue)
  cases number with
  | integer n => exact done
  | float x => exact wrongType rfl (hlater.known hvalue)

theorem countArgument {value : Value} (hvalue : value.KnownTo world) :
    Upholds world (Storage.countArgument value) Anything := by
  unfold Storage.countArgument Value.given?
  split_ifs
  · exact done
  · exact fixnumArgument hvalue

end Storage.Upholds

theorem Store.Sound.known_argument {store : Store} (hsound : store.Sound) {arguments : List Value}
    (harguments : AllKnownTo arguments store) (place : Nat) :
    (argument arguments place).KnownTo store := by
  unfold argument
  rw [List.getD_eq_getElem?_getD]
  cases hplace : arguments[place]? with
  | none => exact hsound.known_nil
  | some value => exact harguments value (List.mem_of_getElem? hplace)

end LispMachine
