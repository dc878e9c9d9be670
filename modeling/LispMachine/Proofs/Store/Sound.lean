import LispMachine.Proofs.Store.Growth

/-!
Sound stores. A store is sound when nothing in it dangles, its constants stand for themselves, its
buffers are in order, and its markers and the lists of its buffers agree about which marker points
into which buffer (`Store.Sound`). The module has one theorem for each elementary change that a run
makes to the heap, the symbols or the buffers, which says under which conditions the store stays
sound. What takes several changes at once, such as inserting text and moving the markers behind it,
comes next to these.
-/

set_option autoImplicit false

namespace LispMachine

/-! ### Soundness -/

/-- The accessible part lies in the text, and the point in the accessible part. -/
structure Buffer.Ordered (buffer : Buffer) : Prop where
  start_pos : 1 ≤ buffer.start
  start_le : buffer.start ≤ buffer.point
  point_le : buffer.point ≤ buffer.finish
  finish_le : buffer.finish ≤ buffer.textEnd

/-- Each buffer is in order, no two share a name, and the current one exists if any does: before
there are buffers the first one is current. -/
structure BufferStore.Ordered (buffers : BufferStore) : Prop where
  ordered : ∀ buffer ∈ buffers.buffers, buffer.Ordered
  distinct : buffers.names.Nodup
  current : buffers.currentIndex = 0 ∨ buffers.currentIndex < buffers.buffers.size

/-- The buffer and the position of the marker at an address, if it points into a buffer. -/
def Heap.attachment? (heap : Heap) (address : Nat) : Option (Nat × Nat) :=
  match heap.objects[address]? with
  | some (.marker ⟨some index, position⟩) => some (index, position)
  | _ => none

/-- Each buffer lists exactly the markers that point into it, each once, and their positions lie in
its text. -/
structure Tracked (heap : Heap) (buffers : BufferStore) : Prop where
  listed : ∀ address index, address ∈ (buffers.get index).markers ↔
    ∃ position, heap.attachment? address = some (index, position)
  once : ∀ index, (buffers.get index).markers.Nodup
  placed : ∀ {address index position}, heap.attachment? address = some (index, position) →
    1 ≤ position ∧ position ≤ (buffers.get index).textEnd

/-- Whether the symbol with a name is a constant from the start: nil, t and the keywords are. -/
def SymbolTable.isSelfNaming (name : String) : Bool :=
  name == "nil" || name == "t" || isKeyword name

/-- The builtin symbols have their places, those that name themselves are constant, and constants
have themselves as their value. -/
structure SymbolTable.Fixed (table : SymbolTable) : Prop where
  builtin : builtinNames <+: table.traits.map Prod.fst
  constant : ∀ {index : Nat} {symbol : Symbol}, table.symbols[index]? = some symbol →
    isSelfNaming symbol.name = true → symbol.constant = true
  itself : ∀ {index : Nat} {symbol : Symbol}, table.symbols[index]? = some symbol →
    symbol.constant = true → symbol.cell = .plain (some (.symbol index))

/-- Nothing in the store dangles, constants stand for themselves, buffers are in order, and markers
are tracked. -/
structure Store.Sound (store : Store) : Prop where
  objects : ∀ object ∈ store.heap.objects, object.KnownTo store
  symbols : ∀ symbol ∈ store.symbols.symbols, symbol.KnownTo store
  handles : ∀ buffer ∈ store.buffers.buffers, buffer.object.KnownTo store
  fixed : store.symbols.Fixed
  buffers : store.buffers.Ordered
  tracked : Tracked store.heap store.buffers

namespace Store.Sound

variable {store : Store} (hsound : store.Sound)

include hsound

/-- The heap alone changes, and no attachment of a marker. -/
theorem with_heap {heap : Heap} (hkinds : store.heap.kinds <+: heap.kinds)
    (hobjects : ∀ object ∈ heap.objects,
      object ∈ store.heap.objects ∨ object.KnownTo { store with heap := heap })
    (hattached : ∀ address, heap.attachment? address = store.heap.attachment? address) :
    { store with heap := heap : Store }.Sound := by
  have hgrows : store.Grows { store with heap := heap } := .of_heap hkinds
  refine ⟨?_, ?_, ?_, hsound.fixed, hsound.buffers, ?_⟩
  · intro object hmem
    rcases hobjects object hmem with hold | hnew
    · exact hgrows.knownObject (hsound.objects object hold)
    · exact hnew
  · exact fun symbol hmem ↦ hgrows.knownSymbol (hsound.symbols symbol hmem)
  · exact fun buffer hmem ↦ hgrows.known (hsound.handles buffer hmem)
  · constructor
    · intro address index
      simp only [hattached]
      exact hsound.tracked.listed address index
    · exact hsound.tracked.once
    · intro address index position hattachment
      rw [hattached] at hattachment
      exact hsound.tracked.placed hattachment

/-- The symbols alone change. -/
theorem with_symbols {table : SymbolTable} (htraits : store.symbols.traits <+: table.traits)
    (hsymbols : ∀ symbol ∈ table.symbols, symbol.KnownTo { store with symbols := table })
    (hfixed : table.Fixed) : { store with symbols := table : Store }.Sound := by
  have hgrows : store.Grows { store with symbols := table } := .of_symbols htraits
  refine ⟨?_, hsymbols, ?_, hfixed, hsound.buffers, hsound.tracked⟩
  · exact fun object hmem ↦ hgrows.knownObject (hsound.objects object hmem)
  · exact fun buffer hmem ↦ hgrows.known (hsound.handles buffer hmem)

/-- The heap changes together with the buffers. -/
theorem with_tracked {heap : Heap} {buffers : BufferStore}
    (hkinds : store.heap.kinds <+: heap.kinds) (hnames : store.buffers.names <+: buffers.names)
    (hobjects : ∀ object ∈ heap.objects, object ∈ store.heap.objects ∨
      object.KnownTo { store with heap := heap, buffers := buffers })
    (hhandles : ∀ buffer ∈ buffers.buffers,
      buffer.object.KnownTo { store with heap := heap, buffers := buffers })
    (hbuffers : buffers.Ordered) (htracked : Tracked heap buffers) :
    { store with heap := heap, buffers := buffers : Store }.Sound := by
  have hgrows : store.Grows { store with heap := heap, buffers := buffers } :=
    ⟨hkinds, List.prefix_rfl, hnames⟩
  refine ⟨?_, ?_, hhandles, hsound.fixed, hbuffers, htracked⟩
  · intro object hmem
    rcases hobjects object hmem with hold | hnew
    · exact hgrows.knownObject (hsound.objects object hold)
    · exact hnew
  · exact fun symbol hmem ↦ hgrows.knownSymbol (hsound.symbols symbol hmem)

end Store.Sound

/-! ### Builtin symbols -/

/-- Whether a value is one of the symbols that every machine knows from the start. -/
def Value.isBuiltin : Value → Bool
  | .symbol index => index < builtinNames.length
  | _ => false

theorem SymbolTable.Fixed.length_le {table : SymbolTable} (hfixed : table.Fixed) :
    builtinNames.length ≤ table.size := by
  simpa using hfixed.builtin.length_le

theorem Store.Sound.builtin {store : Store} (hsound : store.Sound) {value : Value}
    (hbuiltin : value.isBuiltin = true) : value.KnownTo store := by
  cases value with
  | symbol index => exact Nat.lt_of_lt_of_le (of_decide_eq_true hbuiltin) hsound.fixed.length_le
  | fixnum | object => cases hbuiltin

@[grind →]
theorem Store.Sound.known_nil {store : Store} (hsound : store.Sound) : Value.nil.KnownTo store :=
  hsound.builtin (by decide)

theorem Store.Sound.known_ofBool {store : Store} (hsound : store.Sound) (b : Bool) :
    (Value.ofBool b).KnownTo store := by
  cases b <;> exact hsound.builtin (by decide)

/-! ### Reading the heap -/

namespace Heap

theorem get?_object (heap : Heap) (address : Nat) :
    heap.get? (.object address) = heap.objects[address]? :=
  rfl

theorem mem_of_get? {heap : Heap} {value : Value} {object : Object}
    (hobject : heap.get? value = some object) : object ∈ heap.objects := by
  cases value with
  | object address => exact Array.mem_of_getElem? hobject
  | fixnum | symbol => cases hobject

theorem cons?_eq_some {heap : Heap} {value car cdr : Value} :
    heap.cons? value = some (car, cdr) ↔ heap.get? value = some (.cons car cdr) := by
  unfold cons?
  split <;> simp_all

theorem vector?_eq_some {heap : Heap} {value : Value} {items : Array Value} :
    heap.vector? value = some items ↔ heap.get? value = some (.vector items) := by
  unfold vector?
  split <;> simp_all

theorem marker?_eq_some {heap : Heap} {value : Value} {marker : Marker} :
    heap.marker? value = some marker ↔ heap.get? value = some (.marker marker) := by
  unfold marker?
  split <;> simp_all

theorem attachment?_eq_some {heap : Heap} {address index position : Nat} :
    heap.attachment? address = some (index, position) ↔
      heap.objects[address]? = some (.marker ⟨some index, position⟩) := by
  unfold attachment?
  split <;> simp_all

end Heap

namespace Store.Sound

variable {store : Store} (hsound : store.Sound)

include hsound

theorem known_of_get? {value : Value} {object : Object}
    (hobject : store.heap.get? value = some object) : object.KnownTo store :=
  hsound.objects object (Heap.mem_of_get? hobject)

theorem known_of_cons? {value car cdr : Value} (hcons : store.heap.cons? value = some (car, cdr)) :
    car.KnownTo store ∧ cdr.KnownTo store :=
  hsound.known_of_get? (Heap.cons?_eq_some.mp hcons)

theorem known_of_vector? {value : Value} {items : Array Value}
    (hvector : store.heap.vector? value = some items) : AllKnownTo items.toList store :=
  hsound.known_of_get? (Heap.vector?_eq_some.mp hvector)

theorem known_carSafe (value : Value) : (store.heap.carSafe value).KnownTo store := by
  unfold Heap.carSafe
  cases hcons : store.heap.cons? value with
  | none => exact hsound.known_nil
  | some parts => exact (hsound.known_of_cons? hcons).1

theorem known_cdrSafe (value : Value) : (store.heap.cdrSafe value).KnownTo store := by
  unfold Heap.cdrSafe
  cases hcons : store.heap.cons? value with
  | none => exact hsound.known_nil
  | some parts => exact (hsound.known_of_cons? hcons).2

/-- The items of a chain of conses are known. -/
theorem known_chainWithin (bound : Nat) (value : Value) :
    AllKnownTo (store.heap.chainWithin bound value).1 store := by
  induction bound generalizing value with
  | zero =>
    unfold Heap.chainWithin
    split <;> exact nofun
  | succ bound ih =>
    unfold Heap.chainWithin
    cases hcons : store.heap.cons? value with
    | none => exact nofun
    | some parts => exact List.forall_mem_cons.mpr ⟨(hsound.known_of_cons? hcons).1, ih parts.2⟩

theorem known_chain (value : Value) : AllKnownTo (store.heap.chain value).1 store :=
  hsound.known_chainWithin _ value

end Store.Sound

/-! ### Changing the heap -/

namespace Heap

theorem kinds_allocate (heap : Heap) (object : Object) :
    heap.kinds <+: (heap.allocate object).2.kinds := by
  simp [kinds, allocate]

theorem attachment?_allocate (heap : Heap) (object : Object) (address : Nat) :
    (heap.allocate object).2.attachment? address =
      if address = heap.size then
        match object with
        | .marker ⟨some index, position⟩ => some (index, position)
        | _ => none
      else heap.attachment? address := by
  unfold attachment? allocate size
  dsimp only
  rw [Array.getElem?_push]
  split_ifs with hsize
  · cases object with
    | marker marker => obtain ⟨_ | _, _⟩ := marker <;> rfl
    | _ => rfl
  · rfl

theorem attachment?_size (heap : Heap) : heap.attachment? heap.size = none := by
  unfold attachment? size
  simp

/-- Replacing an object by one of the same kind. -/
theorem kinds_set {heap : Heap} {value : Value} {old object : Object}
    (hold : heap.get? value = some old) (hkind : object.kind = old.kind) :
    (heap.set value object).kinds = heap.kinds := by
  cases value with
  | fixnum | symbol => rfl
  | object address =>
    have hplace : (heap.objects.toList.map Object.kind)[address]? = some object.kind := by
      rw [List.getElem?_map, Array.getElem?_toList, ← get?_object, hold, hkind]
      rfl
    obtain ⟨haddress, hget⟩ := List.getElem?_eq_some_iff.mp hplace
    unfold kinds set
    rw [Array.toList_setIfInBounds, List.map_set, ← hget, List.set_getElem_self]

theorem mem_set {heap : Heap} {value : Value} {object other : Object}
    (hmem : other ∈ (heap.set value object).objects) : other ∈ heap.objects ∨ other = object := by
  cases value with
  | fixnum | symbol => exact .inl hmem
  | object address => exact Array.mem_or_eq_of_mem_setIfInBounds hmem

/-- Replacing an object that is no marker by another one. -/
theorem attachment?_set {heap : Heap} {value : Value} {old object : Object}
    (hold : heap.get? value = some old) (hkind : object.kind = old.kind)
    (hmarker : old.kind ≠ .marker) (address : Nat) :
    (heap.set value object).attachment? address = heap.attachment? address := by
  cases value with
  | fixnum | symbol => rfl
  | object place =>
    unfold attachment? set
    dsimp only
    rw [Array.getElem?_setIfInBounds]
    split_ifs with heq hplace
    · subst heq
      rw [get?_object] at hold
      rw [hold]
      cases object with
      | marker marker => exact absurd hkind.symm hmarker
      | _ => cases old <;> first | rfl | exact absurd rfl hmarker
    · subst heq
      rw [Array.getElem?_eq_none (Nat.le_of_not_lt hplace)]
    · rfl

end Heap

namespace Store.Sound

variable {store : Store} (hsound : store.Sound)

include hsound

/-- An object is added that is no marker in a buffer. -/
theorem allocate {object : Object} (hobject : object.KnownTo store)
    (hdetached : ∀ index position, object ≠ .marker ⟨some index, position⟩) :
    { store with heap := (store.heap.allocate object).2 : Store }.Sound := by
  have hgrows : store.Grows { store with heap := (store.heap.allocate object).2 } :=
    .of_heap (store.heap.kinds_allocate object)
  refine hsound.with_heap hgrows.kinds ?_ ?_
  · intro other hmem
    rcases Array.mem_push.mp hmem with hold | rfl
    · exact .inl hold
    · exact .inr (hgrows.knownObject hobject)
  · intro address
    rw [Heap.attachment?_allocate]
    split_ifs with hsize
    · subst hsize
      rw [Heap.attachment?_size]
      split
      · exact absurd rfl (hdetached _ _)
      · rfl
    · rfl

/-- An object that is no marker is replaced by one of the same kind. -/
theorem set {value : Value} {old object : Object} (hold : store.heap.get? value = some old)
    (hkind : object.kind = old.kind) (hmarker : old.kind ≠ .marker)
    (hobject : object.KnownTo store) :
    { store with heap := store.heap.set value object : Store }.Sound := by
  have hkinds : store.heap.kinds <+: (store.heap.set value object).kinds :=
    (Heap.kinds_set hold hkind) ▸ List.prefix_rfl
  refine hsound.with_heap hkinds ?_ (Heap.attachment?_set hold hkind hmarker)
  intro other hmem
  rcases Heap.mem_set hmem with hother | rfl
  · exact .inl hother
  · exact .inr ((Grows.of_heap hkinds).knownObject hobject)

end Store.Sound

/-! ### Changing the symbols -/

namespace SymbolTable

theorem mem_update {table : SymbolTable} {index : Nat} {change : Symbol → Symbol} {symbol : Symbol}
    (hmem : symbol ∈ (table.update index change).symbols) :
    symbol ∈ table.symbols ∨
      ∃ old, table.symbols[index]? = some old ∧ symbol = change old := by
  obtain ⟨place, hplace⟩ := Array.mem_iff_getElem?.mp hmem
  unfold update at hplace
  rw [Array.getElem?_modify] at hplace
  split_ifs at hplace with heq
  · subst heq
    obtain ⟨old, hold, rfl⟩ := Option.map_eq_some_iff.mp hplace
    exact .inr ⟨old, hold, rfl⟩
  · exact .inl (Array.mem_of_getElem? hplace)

theorem traits_update {table : SymbolTable} {index : Nat} {change : Symbol → Symbol}
    (hname : ∀ symbol, (change symbol).name = symbol.name)
    (hconstant : ∀ symbol, (change symbol).constant = symbol.constant) :
    (table.update index change).traits = table.traits :=
  map_toList_modify (fun symbol ↦ Prod.ext (hname symbol) (hconstant symbol)) table.symbols index

/-- A change of symbols that keeps names, constancy, and the cells of constants. -/
theorem Fixed.update {table : SymbolTable} (hfixed : table.Fixed) {index : Nat}
    {change : Symbol → Symbol} (hname : ∀ symbol, (change symbol).name = symbol.name)
    (hconstant : ∀ symbol, (change symbol).constant = symbol.constant)
    (hcell : ∀ symbol, table.symbols[index]? = some symbol → symbol.constant = true →
      (change symbol).cell = symbol.cell) : (table.update index change).Fixed := by
  have hold {place : Nat} {symbol : Symbol}
      (hsymbol : (table.update index change).symbols[place]? = some symbol) :
      ∃ old, table.symbols[place]? = some old ∧ symbol.name = old.name ∧
        symbol.constant = old.constant ∧ (old.constant = true → symbol.cell = old.cell) := by
    unfold SymbolTable.update at hsymbol
    rw [Array.getElem?_modify] at hsymbol
    split_ifs at hsymbol with heq
    · subst heq
      obtain ⟨old, hold, rfl⟩ := Option.map_eq_some_iff.mp hsymbol
      exact ⟨old, hold, hname old, hconstant old, hcell old hold⟩
    · exact ⟨symbol, hsymbol, rfl, rfl, fun _ ↦ rfl⟩
  constructor
  · rw [traits_update hname hconstant]
    exact hfixed.builtin
  · intro place symbol hsymbol hnaming
    obtain ⟨old, hplace, hnames, hconstants, -⟩ := hold hsymbol
    rw [hconstants]
    exact hfixed.constant hplace (hnames ▸ hnaming)
  · intro place symbol hsymbol hconst
    obtain ⟨old, hplace, -, hconstants, hcells⟩ := hold hsymbol
    rw [hconstants] at hconst
    rw [hcells hconst]
    exact hfixed.itself hplace hconst

end SymbolTable

namespace Store

theorem Changeable.not_constant {store : Store} {index : Nat} (hchangeable : store.Changeable index)
    {symbol : Symbol} (hsymbol : store.symbols.symbols[index]? = some symbol) :
    symbol.constant = false := by
  obtain ⟨name, htrait⟩ := hchangeable
  unfold SymbolTable.traits at htrait
  rw [List.getElem?_map, Array.getElem?_toList, hsymbol] at htrait
  exact congrArg Prod.snd (Option.some.inj htrait)

namespace Sound

variable {store : Store} (hsound : store.Sound)

include hsound

/-- A change of one symbol that keeps its name, its constancy and the cell of a constant. -/
theorem update {index : Nat} {change : Symbol → Symbol}
    (hname : ∀ symbol, (change symbol).name = symbol.name)
    (hconstant : ∀ symbol, (change symbol).constant = symbol.constant)
    (hcell : ∀ symbol, store.symbols.symbols[index]? = some symbol → symbol.constant = true →
      (change symbol).cell = symbol.cell)
    (hknown : ∀ symbol, symbol.KnownTo store → (change symbol).KnownTo store) :
    { store with symbols := store.symbols.update index change : Store }.Sound ∧
      store.Grows { store with symbols := store.symbols.update index change } := by
  have htraits : store.symbols.traits <+: (store.symbols.update index change).traits :=
    (SymbolTable.traits_update hname hconstant) ▸ List.prefix_rfl
  have hgrows : store.Grows { store with symbols := store.symbols.update index change } :=
    .of_symbols htraits
  refine ⟨hsound.with_symbols htraits ?_ (hsound.fixed.update hname hconstant hcell), hgrows⟩
  intro symbol hmem
  rcases SymbolTable.mem_update hmem with hold | ⟨old, hold, rfl⟩
  · exact hgrows.knownSymbol (hsound.symbols symbol hold)
  · exact hgrows.knownSymbol (hknown old (hsound.symbols old (Array.mem_of_getElem? hold)))

/-- The cell of a symbol that is no constant is changed. -/
theorem setCell {index : Nat} {cell : ValueCell} (hchangeable : store.Changeable index)
    (hcell : cell.KnownTo store) :
    { store with symbols := store.symbols.setCell index cell : Store }.Sound ∧
      store.Grows { store with symbols := store.symbols.setCell index cell } := by
  refine hsound.update (fun _ ↦ rfl) (fun _ ↦ rfl) ?_
    fun symbol hknown ↦ { hknown with cell := hcell }
  intro symbol hsymbol hconstant
  rw [hchangeable.not_constant hsymbol] at hconstant
  cases hconstant

theorem setFunction (index : Nat) {function : Value} (hfunction : function.KnownTo store) :
    { store with symbols := store.symbols.setFunction index function : Store }.Sound ∧
      store.Grows { store with symbols := store.symbols.setFunction index function } :=
  hsound.update (fun _ ↦ rfl) (fun _ ↦ rfl) (fun _ _ _ ↦ rfl) fun _ hknown ↦
    { hknown with function := hfunction }

omit hsound in
theorem known_putIn {property value : Value} (hproperty : property.KnownTo store)
    (hvalue : value.KnownTo store) {properties : List (Value × Value)}
    (hknown : ∀ pair ∈ properties, pair.1.KnownTo store ∧ pair.2.KnownTo store) :
    ∀ pair ∈ SymbolTable.putIn property value properties,
      pair.1.KnownTo store ∧ pair.2.KnownTo store := by
  induction properties with
  | nil => simpa [SymbolTable.putIn] using ⟨hproperty, hvalue⟩
  | cons first rest ih =>
    obtain ⟨hfirst, hrest⟩ := List.forall_mem_cons.mp hknown
    unfold SymbolTable.putIn
    split_ifs with heq
    · exact List.forall_mem_cons.mpr ⟨⟨hfirst.1, hvalue⟩, hrest⟩
    · exact List.forall_mem_cons.mpr ⟨hfirst, ih hrest⟩

theorem putProperty (index : Nat) {property value : Value} (hproperty : property.KnownTo store)
    (hvalue : value.KnownTo store) :
    { store with symbols := store.symbols.putProperty index property value : Store }.Sound ∧
      store.Grows { store with symbols := store.symbols.putProperty index property value } :=
  hsound.update (fun _ ↦ rfl) (fun _ ↦ rfl) (fun _ _ _ ↦ rfl) fun _ hknown ↦
    { hknown with properties := known_putIn hproperty hvalue hknown.properties }

end Sound

end Store

/-! ### Adding symbols -/

namespace SymbolTable

theorem lookup?_eq_none {table : SymbolTable} {name : String} (hnone : table.lookup? name = none) :
    name ∉ table.traits.map Prod.fst := by
  unfold lookup? at hnone
  rw [Array.findIdx?_eq_none_iff] at hnone
  simp only [traits, List.map_map, List.mem_map, Array.mem_toList_iff]
  rintro ⟨symbol, hmem, hname⟩
  have hdiffers := hnone symbol hmem
  simp_all

/-- The symbol that is added for a name. -/
def fresh (table : SymbolTable) (name : String) : Symbol :=
  if isKeyword name then
    { name := name, cell := .plain (some (.symbol table.size)), constant := true }
  else { name := name }

theorem known_fresh {table : SymbolTable} {store : Store} (hnil : Value.nil.KnownTo store)
    (hplace : (Value.symbol table.size).KnownTo store) (name : String) :
    (table.fresh name).KnownTo store := by
  unfold fresh
  split_ifs
  · exact ⟨by simpa [ValueCell.KnownTo, AllKnownTo] using hplace, hnil, nofun⟩
  · exact ⟨nofun, hnil, nofun⟩

theorem intern_of_none {table : SymbolTable} {name : String} (hnone : table.lookup? name = none) :
    table.intern name = (table.size, ⟨table.symbols.push (table.fresh name)⟩) := by
  unfold intern fresh
  rw [hnone]

theorem intern_of_some {table : SymbolTable} {name : String} {index : Nat}
    (hsome : table.lookup? name = some index) : table.intern name = (index, table) := by
  unfold intern
  rw [hsome]

theorem lookup?_lt {table : SymbolTable} {name : String} {index : Nat}
    (hsome : table.lookup? name = some index) : index < table.size := by
  unfold lookup? at hsome
  exact (Array.findIdx?_eq_some_iff_getElem.mp hsome).1

theorem Fixed.push {table : SymbolTable} (hfixed : table.Fixed) {name : String}
    (hnone : table.lookup? name = none) :
    SymbolTable.Fixed ⟨table.symbols.push (table.fresh name)⟩ := by
  have hnew : name ∉ builtinNames := fun hmem ↦
    lookup?_eq_none hnone (hfixed.builtin.subset hmem)
  have hnaming : isSelfNaming name = isKeyword name := by
    have hnil : name ≠ "nil" := fun heq ↦ hnew (heq ▸ by decide)
    have ht : name ≠ "t" := fun heq ↦ hnew (heq ▸ by decide)
    simp [isSelfNaming, hnil, ht]
  constructor
  · refine hfixed.builtin.trans ?_
    simp [traits]
  · intro index symbol hsymbol hself
    rw [Array.getElem?_push] at hsymbol
    split_ifs at hsymbol with hsize
    · cases hsymbol
      unfold fresh at hself ⊢
      split_ifs at hself ⊢ with hkeyword
      · rfl
      · exact absurd (hnaming ▸ hself) hkeyword
    · exact hfixed.constant hsymbol hself
  · intro index symbol hsymbol hconstant
    rw [Array.getElem?_push] at hsymbol
    split_ifs at hsymbol with hsize
    · cases hsymbol
      subst hsize
      unfold fresh at hconstant ⊢
      split_ifs at hconstant ⊢
      rfl
    · exact hfixed.itself hsymbol hconstant

end SymbolTable

/-- A symbol is looked up or added. -/
theorem Store.Sound.intern {store : Store} (hsound : store.Sound) (name : String) :
    { store with symbols := (store.symbols.intern name).2 : Store }.Sound ∧
      store.Grows { store with symbols := (store.symbols.intern name).2 } ∧
      (Value.symbol (store.symbols.intern name).1).KnownTo
        { store with symbols := (store.symbols.intern name).2 } := by
  cases hlookup : store.symbols.lookup? name with
  | some index =>
    rw [SymbolTable.intern_of_some hlookup]
    exact ⟨hsound, .refl store, SymbolTable.lookup?_lt hlookup⟩
  | none =>
    rw [SymbolTable.intern_of_none hlookup]
    have htraits : store.symbols.traits <+:
        SymbolTable.traits ⟨store.symbols.symbols.push (store.symbols.fresh name)⟩ := by
      simp [SymbolTable.traits]
    have hgrows : store.Grows { store with
        symbols := ⟨store.symbols.symbols.push (store.symbols.fresh name)⟩ } := .of_symbols htraits
    have hplace : store.symbols.size <
        SymbolTable.size ⟨store.symbols.symbols.push (store.symbols.fresh name)⟩ := by
      simp [SymbolTable.size]
    refine ⟨hsound.with_symbols htraits ?_ (hsound.fixed.push hlookup), hgrows, hplace⟩
    intro symbol hmem
    rcases Array.mem_push.mp hmem with hold | rfl
    · exact hgrows.knownSymbol (hsound.symbols symbol hold)
    · exact SymbolTable.known_fresh (hgrows.known hsound.known_nil) hplace name

end LispMachine
