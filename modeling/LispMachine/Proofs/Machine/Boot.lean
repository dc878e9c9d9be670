import LispMachine.Boot
import LispMachine.Proofs.Machine.Sound

/-!
A new machine is sound. Booting defines the standard errors, sets two variables, installs the
primitives and makes a buffer, and nothing of it can fail: until programs run, no list is circular
and no symbol an alias (`Store.Fresh`). So a new machine has its first buffer.
-/

set_option autoImplicit false

namespace LispMachine

variable {α β : Type}

/-! ### Before any program has run -/

/-- Each cons was allocated after its tail. -/
def Heap.Layered (heap : Heap) : Prop :=
  ∀ (address next : Nat) (car : Value),
    heap.objects[address]? = some (.cons car (.object next)) → next < address

/-- No symbol is an alias of another one. -/
def SymbolTable.Unaliased (table : SymbolTable) : Prop :=
  ∀ symbol ∈ table.symbols, ∃ held, symbol.cell = .plain held

/-- A store in which no list is circular and no symbol an alias. -/
structure Store.Fresh (store : Store) : Prop where
  layered : store.heap.Layered
  unaliased : store.symbols.Unaliased

namespace Heap

/-- The heap has at most `bound` conses from the address of the value down. -/
theorem Layered.chainWithin_ne_endless {heap : Heap} (hlayered : heap.Layered) {bound : Nat}
    {value : Value} (hvalue : ∀ address, value = .object address → address < heap.size →
      address < bound) : (heap.chainWithin bound value).2 ≠ .endless := by
  induction bound generalizing value with
  | zero =>
    have hcons : heap.cons? value = none := by
      cases value with
      | fixnum | symbol => rfl
      | object address =>
        have hsize : ¬ address < heap.size := fun hlt ↦ Nat.not_lt_zero _ (hvalue address rfl hlt)
        unfold cons?
        rw [get?_object, Array.getElem?_eq_none (Nat.le_of_not_lt hsize)]
    unfold chainWithin
    rw [hcons]
    dsimp only
    split_ifs <;> simp
  | succ bound ih =>
    unfold chainWithin
    cases hcons : heap.cons? value with
    | none =>
      dsimp only
      split_ifs <;> simp
    | some parts =>
      refine ih fun next hnext _ ↦ ?_
      cases value with
      | fixnum | symbol => cases hcons
      | object address =>
        have hobject : heap.objects[address]? = some (.cons parts.1 (.object next)) := by
          rw [← get?_object, ← hnext]
          exact cons?_eq_some.mp hcons
        have hsize := (Array.getElem?_eq_some_iff.mp hobject).1
        exact Nat.lt_of_lt_of_le (hlayered _ _ _ hobject)
          (Nat.le_of_lt_succ (hvalue address rfl hsize))

theorem Layered.chain_ne_endless {heap : Heap} (hlayered : heap.Layered) (value : Value) :
    (heap.chain value).2 ≠ .endless :=
  hlayered.chainWithin_ne_endless fun _ _ hsize ↦ hsize

/-- An object is added, whose tail is in the heap if it is a cons. -/
theorem Layered.allocate {heap : Heap} (hlayered : heap.Layered) {object : Object}
    (hobject : ∀ car next, object = .cons car (.object next) → next < heap.size) :
    (heap.allocate object).2.Layered := by
  intro address next car hcons
  unfold Heap.allocate at hcons
  dsimp only at hcons
  rw [Array.getElem?_push] at hcons
  split_ifs at hcons with hsize
  · rw [hsize]
    exact hobject car next (Option.some.inj hcons)
  · exact hlayered address next car hcons

end Heap

namespace SymbolTable

theorem Unaliased.update {table : SymbolTable} (hunaliased : table.Unaliased) (index : Nat)
    {change : Symbol → Symbol}
    (hchange : ∀ symbol held, symbol.cell = .plain held →
      ∃ held, (change symbol).cell = .plain held) :
    (table.update index change).Unaliased := by
  intro symbol hmem
  rcases mem_update hmem with hold | ⟨old, hold, rfl⟩
  · exact hunaliased symbol hold
  · obtain ⟨held, hcell⟩ := hunaliased old (Array.mem_of_getElem? hold)
    exact hchange old held hcell

theorem Unaliased.putProperty {table : SymbolTable} (hunaliased : table.Unaliased) (index : Nat)
    (property value : Value) : (table.putProperty index property value).Unaliased :=
  hunaliased.update index fun _ held hcell ↦ ⟨held, hcell⟩

theorem Unaliased.setFunction {table : SymbolTable} (hunaliased : table.Unaliased) (index : Nat)
    (function : Value) : (table.setFunction index function).Unaliased :=
  hunaliased.update index fun _ held hcell ↦ ⟨held, hcell⟩

theorem Unaliased.setPlain {table : SymbolTable} (hunaliased : table.Unaliased) (index : Nat)
    (held : Option Value) : (table.setCell index (.plain held)).Unaliased :=
  hunaliased.update index fun _ _ _ ↦ ⟨held, rfl⟩

theorem Unaliased.intern {table : SymbolTable} (hunaliased : table.Unaliased) (name : String) :
    (table.intern name).2.Unaliased := by
  cases hlookup : table.lookup? name with
  | some index =>
    rw [intern_of_some hlookup]
    exact hunaliased
  | none =>
    rw [intern_of_none hlookup]
    intro symbol hmem
    rcases Array.mem_push.mp hmem with hold | rfl
    · exact hunaliased symbol hold
    · unfold fresh
      split_ifs
      · exact ⟨_, rfl⟩
      · exact ⟨_, rfl⟩

/-- A variable that is neither constant nor an alias is assigned in its own cell. -/
theorem assignPlain?_of_unaliased {table : SymbolTable} (hunaliased : table.Unaliased) {index : Nat}
    (hconstant : (table.get index).constant = false) (value : Value) :
    table.assignPlain? index value = some (table.setCell index (.plain (some value))) := by
  have hcell : ∃ held, (table.get index).cell = .plain held := by
    rcases table.get_eq index with hsymbol | hdefault
    · exact hunaliased _ (Array.mem_of_getElem? hsymbol)
    · exact ⟨none, by rw [hdefault]; rfl⟩
  obtain ⟨held, hcell⟩ := hcell
  unfold assignPlain?
  generalize table.get index = symbol at hconstant hcell
  obtain ⟨name, cell, function, constant, properties⟩ := symbol
  dsimp only at hconstant hcell
  subst hconstant hcell
  rfl

end SymbolTable

namespace Storage

/-! ### Actions that cannot fail -/

/-- From the store the action gives a result and leaves a fresh store. -/
def Completes (action : Storage α) (store : Store) : Prop :=
  ∃ result after, action store = .ok result after ∧ after.Fresh

namespace Completes

variable {store : Store} (hfresh : store.Fresh)

theorem bind {action : Storage α} {next : α → Storage β} (haction : Completes action store)
    (hnext : ∀ result after, after.Fresh → Completes (next result) after) :
    Completes (action >>= next) store := by
  obtain ⟨result, after, hrun, hafter⟩ := haction
  unfold Completes
  change ∃ final last, EStateM.bind action next store = .ok final last ∧ last.Fresh
  unfold EStateM.bind
  rw [hrun]
  exact hnext result after hafter

/-- Go on with what an action has read from the store. -/
theorem reading_bind (read : α) {action : Storage α} {next : α → Storage β}
    (hreads : action store = .ok read store) (hnext : Completes (next read) store) :
    Completes (action >>= next) store := by
  unfold Completes
  change ∃ final last, EStateM.bind action next store = .ok final last ∧ last.Fresh
  unfold EStateM.bind
  rw [hreads]
  exact hnext

include hfresh

theorem pure {result : α} : Completes (Pure.pure result) store := ⟨result, store, rfl, hfresh⟩

theorem allocate {object : Object} (hcons : object.kind ≠ .cons) :
    Completes (Storage.allocate object) store := by
  refine ⟨_, _, rfl, hfresh.layered.allocate ?_, hfresh.unaliased⟩
  rintro car next rfl
  exact absurd rfl hcons

theorem makeString (text : String) : Completes (Storage.makeString text) store :=
  allocate hfresh nofun

/-- Each cell of a list is allocated after the rest of the list. -/
theorem list (items : List Value) : Completes (Storage.list items) store := by
  have hlist : (store.heap.list items).2.Layered ∧ ∀ next,
      (store.heap.list items).1 = .object next → next < (store.heap.list items).2.size := by
    induction items with
    | nil => exact ⟨hfresh.layered, nofun⟩
    | cons item items ih =>
      refine ⟨ih.1.allocate fun car next hcons ↦ ?_, fun next hnext ↦ ?_⟩
      · injection hcons with _ hcdr
        exact ih.2 next hcdr
      · injection hnext with hnext
        change next < (Array.push _ _).size
        rw [Array.size_push, ← hnext]
        exact Nat.lt_succ_self _
  exact ⟨_, _, rfl, hlist.1, hfresh.unaliased⟩

theorem intern (name : String) : Completes (Storage.intern name) store :=
  ⟨_, _, rfl, hfresh.layered, hfresh.unaliased.intern name⟩

/-- Every list that is read comes to its end. -/
theorem leadingElements (value : Value) : Completes (Storage.leadingElements value) store := by
  have hends := hfresh.layered.chain_ne_endless value
  refine reading_bind store rfl ?_
  generalize store.heap.chain value = chain at hends ⊢
  obtain ⟨items, ending⟩ := chain
  cases ending with
  | proper | improper => exact pure hfresh
  | endless => exact absurd rfl hends

theorem inheritConditions (conditions parents : List Value) :
    Completes (Storage.inheritConditions conditions parents) store := by
  induction parents generalizing store conditions with
  | nil => exact pure hfresh
  | cons parent parents ih =>
    cases parent with
    | fixnum | object => exact ih hfresh _
    | symbol index =>
      refine reading_bind store.symbols rfl ?_
      cases store.symbols.property? index Symbols.errorConditions with
      | none => exact bind (pure hfresh) fun _ _ hlater ↦ ih hlater _
      | some list => exact bind (leadingElements hfresh list) fun _ _ hlater ↦ ih hlater _

theorem defineErrorAt (symbol : Value) (message : String) (parents : List Value) :
    Completes (Storage.defineErrorAt symbol message parents) store := by
  cases symbol with
  | fixnum | object => exact pure hfresh
  | symbol index =>
    refine bind (inheritConditions hfresh _ parents) fun conditions _ hfirst ↦ ?_
    refine bind (list hfirst conditions) fun conditions _ hsecond ↦ ?_
    refine bind (makeString hsecond message) fun message later hthird ↦ ?_
    exact ⟨(), _, rfl, hthird.layered,
      (hthird.unaliased.putProperty index _ _).putProperty index _ _⟩

theorem forM (items : List α) {body : α → Storage Unit}
    (hbody : ∀ {later : Store}, later.Fresh → ∀ item, Completes (body item) later) :
    Completes (items.forM body) store := by
  induction items generalizing store with
  | nil => exact pure hfresh
  | cons item items ih => exact bind (hbody hfresh item) fun _ _ hlater ↦ ih hlater

theorem defineStandardErrors : Completes Storage.defineStandardErrors store := by
  refine bind (defineErrorAt hfresh _ _ _) fun _ _ hfirst ↦ ?_
  refine bind (defineErrorAt hfirst _ _ _) fun _ _ hsecond ↦ ?_
  exact forM hsecond standardErrors fun hlater _ ↦ defineErrorAt hlater _ _ _

/-- A variable is set that is no constant. -/
theorem assign {index : Nat} (hchangeable : store.Changeable index) (value : Value) :
    Completes (Storage.assign (.symbol index) value) store := by
  have hindex := hchangeable.lt_size
  have hconstant : (store.symbols.get index).constant = false := by
    have hsymbol := Array.getElem?_eq_getElem hindex
    rw [SymbolTable.get_of_some hsymbol]
    exact hchangeable.not_constant hsymbol
  have hassigned := SymbolTable.assignPlain?_of_unaliased hfresh.unaliased hconstant value
  have hafter : Store.Fresh
      { store with symbols := store.symbols.setCell index (.plain (some value)) } :=
    ⟨hfresh.layered, hfresh.unaliased.setPlain index (some value)⟩
  exact ⟨(), _, assign_of_assignPlain? hassigned, hafter⟩

theorem installPrimitives (index : Nat) (primitives : List Primitive) :
    Completes (Storage.installPrimitives index primitives) store := by
  induction primitives generalizing store index with
  | nil => exact pure hfresh
  | cons primitive rest ih =>
    refine bind (allocate hfresh nofun) fun object _ hfirst ↦ ?_
    refine bind (intern hfirst primitive.name) fun symbol later hsecond ↦ ?_
    cases symbol with
    | fixnum | object => exact ih hsecond (index + 1)
    | symbol place =>
      refine bind ⟨(), _, rfl, ?_⟩ fun _ _ hlater ↦ ih hlater (index + 1)
      exact ⟨hsecond.layered, hsecond.unaliased.setFunction place object⟩

theorem bufferNamed (name : String) : Completes (Storage.bufferNamed name) store := by
  refine reading_bind store rfl ?_
  dsimp only
  cases store.buffers.find? name with
  | some index => exact pure hfresh
  | none =>
    refine bind (allocate hfresh nofun) fun object later hlater ↦ ?_
    exact ⟨object, _, rfl, hlater.layered, hlater.unaliased⟩

end Completes

end Storage

namespace Storage.Upholds

variable {world : Store}

theorem forM {items : List α} {body : α → Storage Unit}
    (hbody : ∀ item ∈ items, ∀ later, world.Grows later → later.Sound →
      Upholds later (body item) Anything) : Upholds world (items.forM body) Anything := by
  induction items generalizing world with
  | nil => exact done
  | cons item items ih =>
    obtain ⟨hitem, hitems⟩ := List.forall_mem_cons.mp hbody
    refine bind (here hitem) fun _ first hfirst _ _ ↦ ?_
    exact ih fun item hmem later hlater ↦ hitems item hmem later (hfirst.trans hlater)

theorem defineStandardErrors : Upholds world Storage.defineStandardErrors Anything := by
  refine here fun store _ hsound ↦ ?_
  refine bind (defineErrorAt _ (hsound.builtin rfl) .nil) fun _ first _ hfirst _ ↦ ?_
  refine bind (defineErrorAt _ (hfirst.builtin rfl) .nil) fun _ second _ _ _ ↦ ?_
  refine forM fun error hmem later _ hlater ↦ ?_
  have hbuiltin : ∀ error ∈ standardErrors, error.1.isBuiltin = true := by decide
  exact defineErrorAt _ (hlater.builtin (hbuiltin error hmem)) (.cons (hlater.builtin rfl) .nil)

theorem installPrimitives (index : Nat) (primitives : List Primitive) :
    Upholds world (Storage.installPrimitives index primitives) Anything := by
  induction primitives generalizing world index with
  | nil => exact done
  | cons primitive rest ih =>
    refine bind (allocate trivial nofun) fun object first _ _ hobject ↦ ?_
    refine bind (intern primitive.name) fun symbol second hsecond _ _ ↦ ?_
    cases symbol with
    | fixnum | object => exact ih (index + 1)
    | symbol place =>
      exact bind (storeFunction place (hsecond.known hobject)) fun _ _ _ _ _ ↦ ih (index + 1)

end Storage.Upholds

/-! ### The first store -/

namespace SymbolTable

/-- What a table holds from the start: constants for nil and t, void variables for the rest. -/
theorem initial_entries :
    initial.traits = builtinNames.map (fun name ↦ (name, isSelfNaming name)) ∧
      ∀ entry ∈ initial.symbols.toList.zipIdx,
        entry.1.cell = .plain (if entry.1.constant then some (.symbol entry.2) else none) ∧
          entry.1.function = .nil ∧ entry.1.properties = [] := by
  decide +kernel

theorem initial_get {index : Nat} {symbol : Symbol}
    (hsymbol : initial.symbols[index]? = some symbol) :
    symbol.cell = .plain (if symbol.constant then some (.symbol index) else none) ∧
      symbol.function = .nil ∧ symbol.properties = [] := by
  refine initial_entries.2 (symbol, index) (List.mk_mem_zipIdx_iff_getElem?.mpr ?_)
  rw [Array.getElem?_toList, hsymbol]

theorem fixed_initial : initial.Fixed where
  builtin := by
    rw [initial_entries.1, List.map_map]
    exact (List.map_id builtinNames).symm ▸ List.prefix_rfl
  constant := by
    intro index symbol hsymbol hnaming
    have htrait : (symbol.name, symbol.constant) ∈ initial.traits :=
      List.mem_map.mpr ⟨symbol, Array.mem_toList_iff.mpr (Array.mem_of_getElem? hsymbol), rfl⟩
    rw [initial_entries.1] at htrait
    obtain ⟨name, -, hname⟩ := List.mem_map.mp htrait
    obtain ⟨rfl, hconstant⟩ := Prod.mk.inj hname
    rw [← hconstant, hnaming]
  itself hsymbol hconstant := by
    rw [(initial_get hsymbol).1, if_pos hconstant]

theorem unaliased_initial : initial.Unaliased := by
  intro symbol hmem
  obtain ⟨index, hsymbol⟩ := Array.mem_iff_getElem?.mp hmem
  exact ⟨_, (initial_get hsymbol).1⟩

end SymbolTable

namespace Store

theorem known_initial {store : Store} (hsymbols : store.symbols = SymbolTable.initial) :
    ∀ symbol ∈ SymbolTable.initial.symbols, symbol.KnownTo store := by
  intro symbol hmem
  obtain ⟨index, hsymbol⟩ := Array.mem_iff_getElem?.mp hmem
  obtain ⟨hcell, hfunction, hproperties⟩ := SymbolTable.initial_get hsymbol
  have hindex : index < store.symbols.size := by
    rw [hsymbols]
    exact (Array.getElem?_eq_some_iff.mp hsymbol).1
  refine ⟨?_, ?_, ?_⟩
  · rw [hcell]
    split_ifs
    · exact .cons hindex .nil
    · exact .nil
  · rw [hfunction]
    exact Nat.lt_of_le_of_lt (Nat.zero_le index) hindex
  · rw [hproperties]
    nofun

theorem sound_initial (threshold : Nat) : Store.Sound { heap := .empty threshold } where
  objects := nofun
  symbols := known_initial rfl
  handles := nofun
  fixed := SymbolTable.fixed_initial
  buffers := ⟨nofun, List.nodup_nil, .inl rfl⟩
  tracked := by
    have hnone (index : Nat) : (BufferStore.get {} index).markers = [] := by
      rw [BufferStore.get_of_size_le (Nat.zero_le index)]
      rfl
    refine ⟨fun address index ↦ ?_, fun index ↦ ?_, nofun⟩
    · simp [hnone, Heap.attachment?, Heap.empty]
    · rw [hnone]
      exact List.nodup_nil

/-- The variables that booting sets are no constants. -/
theorem changeable_initial (threshold : Nat) :
    Store.Changeable { heap := .empty threshold } 12 ∧
      Store.Changeable { heap := .empty threshold } 13 := by
  unfold Changeable
  dsimp only
  rw [SymbolTable.initial_entries.1]
  exact ⟨⟨"standard-output", by decide +kernel⟩, ⟨"inhibit-quit", by decide +kernel⟩⟩

theorem fresh_initial (threshold : Nat) : Store.Fresh { heap := .empty threshold } where
  layered := nofun
  unaliased := SymbolTable.unaliased_initial

end Store

/-! ### Booting -/

namespace Storage

/-- An action that keeps stores sound and completes. -/
theorem Upholds.completes {world : Store} {action : Storage α} {gives : α → Store → Prop}
    (haction : Upholds world action gives) {store : Store} (hgrows : world.Grows store)
    (hsound : store.Sound) (hcompletes : Completes action store) :
    ∃ result after, action store = .ok result after ∧ store.Grows after ∧ after.Sound ∧
      after.Fresh ∧ gives result after := by
  obtain ⟨result, after, hrun, hfresh⟩ := hcompletes
  have hend := haction store hgrows hsound
  rw [hrun] at hend
  cases hend with
  | ok hlater hafter hgives => exact ⟨result, after, hrun, hlater, hafter, hfresh, hgives⟩

end Storage

namespace Engine

/-- A storage action gives a result, and what follows it comes to its end in a sound machine. -/
theorem stored_then {action : Storage α} {next : α → Engine β} {machine : Machine} {result : α}
    {after : Store} (hrun : action machine.toStore = .ok result after)
    (hnext : ∃ final last, next result { machine with toStore := after } = .ok final last ∧
      last.Sound) :
    ∃ final last, ((liftM action : Engine α) >>= next) machine = .ok final last ∧ last.Sound := by
  change ∃ final last, EStateM.bind (liftM action) next machine = .ok final last ∧ last.Sound
  unfold EStateM.bind
  rw [liftM_apply, hrun]
  exact hnext

/-- Booting comes to its end in a sound machine. -/
theorem boot_sound (settings : Settings) :
    ∃ final last, boot { settings := settings, heap := .empty settings.collectionThreshold } =
      .ok final last ∧ last.Sound := by
  obtain ⟨_, first, herrors, hfirst, hsound, hfresh, -⟩ :=
    Storage.Upholds.defineStandardErrors.completes (.refl _)
      (Store.sound_initial settings.collectionThreshold)
      (.defineStandardErrors (Store.fresh_initial settings.collectionThreshold))
  have hchangeable := Store.changeable_initial settings.collectionThreshold
  have houtput := hfirst.changeable hchangeable.1
  have hinhibit := hfirst.changeable hchangeable.2
  have hknown : Symbols.inhibitQuit.KnownTo first := hsound.builtin rfl
  obtain ⟨_, second, hquit, hsecond, hsound, hfresh, -⟩ :=
    (Storage.Upholds.assign hknown hsound.known_nil).completes (.refl first) hsound
      (.assign hfresh hinhibit .nil)
  have hknown : Symbols.standardOutput.KnownTo second ∧ Value.t.KnownTo second :=
    ⟨hsound.builtin rfl, hsound.builtin rfl⟩
  obtain ⟨_, third, hwrite, -, hsound, hfresh, -⟩ :=
    (Storage.Upholds.assign hknown.1 hknown.2).completes (.refl second) hsound
      (.assign hfresh (hsecond.changeable houtput) .t)
  obtain ⟨_, fourth, hinstall, -, hsound, hfresh, -⟩ :=
    (Storage.Upholds.installPrimitives 0 Primitive.catalogue.toList).completes (.refl third) hsound
      (.installPrimitives hfresh 0 _)
  obtain ⟨_, last, hbuffer, -, hsound, -, -, hscratch⟩ :=
    (Storage.Upholds.bufferNamed_exists "*scratch*").completes (.refl fourth) hsound
      (.bufferNamed hfresh _)
  have hsound (settings : Settings) (meter : Option Meter) : Machine.Sound
      { toStore := last, settings := settings, meter := meter } :=
    ⟨hsound, hscratch, nofun, nofun, nofun, nofun⟩
  unfold boot
  refine stored_then herrors (stored_then hquit (stored_then hwrite (stored_then hinstall
    (stored_then hbuffer ?_))))
  change ∃ final machine, (if settings.metering = true then setMetering true else Pure.pure ())
    { toStore := last, settings := settings : Machine } = .ok final machine ∧ machine.Sound
  split_ifs
  · exact ⟨_, _, rfl, hsound _ _⟩
  · exact ⟨_, _, rfl, hsound _ _⟩

/-- The machine in which a run ends, in whichever way. -/
def machineAfter : EStateM.Result (Stop Signal) Machine α → Machine
  | .ok _ machine | .error _ machine => machine

end Engine

/-- A new machine is what booting leaves. The equation is about functions, since to compare two
machines is to boot both of them. -/
theorem Machine.initial_eq : Machine.initial = fun settings : Settings ↦
    Engine.machineAfter
      (Engine.boot { settings := settings, heap := .empty settings.collectionThreshold }) := by
  delta Machine.initial
  funext settings
  dsimp only
  generalize Engine.boot _ = run
  cases run <;> rfl

/-- A new machine is sound. -/
theorem Machine.sound_initial (settings : Settings) : (Machine.initial settings).Sound := by
  obtain ⟨_, machine, hboot, hsound⟩ := Engine.boot_sound settings
  rw [initial_eq]
  dsimp only
  rw [hboot]
  exact hsound

end LispMachine
