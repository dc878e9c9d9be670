import LispMachine.Editing
import Mathlib.Data.List.Basic
import Mathlib.Tactic.SplitIfs

/-!
What a store knows, and how stores grow. A value is known to a store when it does not dangle: it is
a fixnum in range, a symbol of the table or the address of an object of the heap. Objects are never
removed and never change their kind, symbols keep their name and whether they are constant, and
buffers keep their name. So a store only grows (`Store.Grows`), and what it knew it still knows.
-/

set_option autoImplicit false

namespace LispMachine

/-! ### Kinds, names and constancy -/

/-- What stands in a list stands at the same place in every longer one. -/
theorem getElem?_of_prefix {α : Type} {items longer : List α} (hlonger : items <+: longer)
    {index : Nat} {item : α} (hitem : items[index]? = some item) : longer[index]? = some item := by
  obtain ⟨more, rfl⟩ := hlonger
  obtain ⟨hindex, -⟩ := List.getElem?_eq_some_iff.mp hitem
  rw [List.getElem?_append_left hindex, hitem]

/-- A change of one item that a view of the items does not see. -/
theorem map_toList_modify {α β : Type} {view : α → β} {change : α → α}
    (hview : ∀ item, view (change item) = view item) (items : Array α) (index : Nat) :
    (items.modify index change).toList.map view = items.toList.map view := by
  apply List.ext_getElem?
  intro place
  simp only [List.getElem?_map, Array.getElem?_toList, Array.getElem?_modify]
  split_ifs
  · rw [Option.map_map]
    exact congrArg (Option.map · _) (funext hview)
  · rfl

/-- The kinds of heap objects. -/
inductive ObjectKind where
  | cons | float | string | vector | function | primitive | buffer | marker
  deriving DecidableEq

def Object.kind : Object → ObjectKind
  | .cons _ _ => .cons
  | .float _ => .float
  | .string _ => .string
  | .vector _ => .vector
  | .function _ _ => .function
  | .primitive _ _ => .primitive
  | .buffer _ => .buffer
  | .marker _ => .marker

/-- The kinds of the objects, by address. -/
def Heap.kinds (heap : Heap) : List ObjectKind := heap.objects.toList.map Object.kind

/-- What never changes about the symbols, by index: the name, and whether the symbol is constant. -/
def SymbolTable.traits (table : SymbolTable) : List (String × Bool) :=
  table.symbols.toList.map fun symbol => (symbol.name, symbol.constant)

/-- The names of the buffers, by index. -/
def BufferStore.names (buffers : BufferStore) : List String :=
  buffers.buffers.toList.map Buffer.name

@[simp]
theorem Heap.length_kinds (heap : Heap) : heap.kinds.length = heap.size := by
  simp [kinds, size]

@[simp]
theorem SymbolTable.length_traits (table : SymbolTable) : table.traits.length = table.size := by
  simp [traits, size]

@[simp]
theorem BufferStore.length_names (buffers : BufferStore) :
    buffers.names.length = buffers.buffers.size := by
  simp [names]

/-! ### Growth -/

/-- What is in the first store is in the second, at the same place and of the same kind. -/
structure Store.Grows (before after : Store) : Prop where
  kinds : before.heap.kinds <+: after.heap.kinds
  traits : before.symbols.traits <+: after.symbols.traits
  names : before.buffers.names <+: after.buffers.names

namespace Store.Grows

variable {before middle after : Store}

@[refl]
theorem refl (store : Store) : store.Grows store :=
  ⟨List.prefix_rfl, List.prefix_rfl, List.prefix_rfl⟩

theorem trans (hfirst : before.Grows middle) (hlast : middle.Grows after) : before.Grows after :=
  ⟨hfirst.kinds.trans hlast.kinds, hfirst.traits.trans hlast.traits,
    hfirst.names.trans hlast.names⟩

theorem heap_size_le (hgrows : before.Grows after) : before.heap.size ≤ after.heap.size := by
  simpa using hgrows.kinds.length_le

theorem symbols_size_le (hgrows : before.Grows after) :
    before.symbols.size ≤ after.symbols.size := by
  simpa using hgrows.traits.length_le

theorem buffers_size_le (hgrows : before.Grows after) :
    before.buffers.buffers.size ≤ after.buffers.buffers.size := by
  simpa using hgrows.names.length_le

/-- The heap alone has changed. -/
theorem of_heap {store : Store} {heap : Heap} (hkinds : store.heap.kinds <+: heap.kinds) :
    store.Grows { store with heap := heap } :=
  ⟨hkinds, List.prefix_rfl, List.prefix_rfl⟩

/-- The symbols alone have changed. -/
theorem of_symbols {store : Store} {table : SymbolTable}
    (htraits : store.symbols.traits <+: table.traits) :
    store.Grows { store with symbols := table } :=
  ⟨List.prefix_rfl, htraits, List.prefix_rfl⟩

/-- The buffers alone have changed. -/
theorem of_buffers {store : Store} {buffers : BufferStore}
    (hnames : store.buffers.names <+: buffers.names) :
    store.Grows { store with buffers := buffers } :=
  ⟨List.prefix_rfl, List.prefix_rfl, hnames⟩

end Store.Grows

/-! ### What is known to a store -/

/-- The value does not dangle in the store. -/
def Value.KnownTo (value : Value) (store : Store) : Prop :=
  match value with
  | .fixnum n => Value.fitsFixnum n = true
  | .symbol index => index < store.symbols.size
  | .object address => address < store.heap.size

instance (value : Value) (store : Store) : Decidable (value.KnownTo store) :=
  match value with
  | .fixnum n => inferInstanceAs (Decidable (Value.fitsFixnum n = true))
  | .symbol index => inferInstanceAs (Decidable (index < store.symbols.size))
  | .object address => inferInstanceAs (Decidable (address < store.heap.size))

/-- There is a buffer with the index. -/
def Store.HasBuffer (store : Store) (index : Nat) : Prop := index < store.buffers.buffers.size

/-- There is a symbol with the index, and it is no constant. -/
def Store.Changeable (store : Store) (index : Nat) : Prop :=
  ∃ name, store.symbols.traits[index]? = some (name, false)

/-- The values that a signal carries. -/
def Signal.values : Signal → List Value
  | .error symbol data => [symbol, data]
  | .thrown tag value => [tag, value]
  | .fatal _ => []

/-- All of the values are known. -/
def AllKnownTo (values : List Value) (store : Store) : Prop :=
  ∀ value ∈ values, value.KnownTo store

/-- What an object refers to is known. -/
def Object.KnownTo (object : Object) (store : Store) : Prop :=
  match object with
  | .cons car cdr => car.KnownTo store ∧ cdr.KnownTo store
  | .vector items => AllKnownTo items.toList store
  | .buffer index => store.HasBuffer index
  | .float _ | .string _ | .function _ _ | .primitive _ _ | .marker _ => True

/-- What a cell holds is known, or the symbol that it redirects to. -/
def ValueCell.KnownTo (cell : ValueCell) (store : Store) : Prop :=
  match cell with
  | .plain value => AllKnownTo value.toList store
  | .aliasOf target => (Value.symbol target).KnownTo store

/-- Everything that is stored at a symbol is known. -/
structure Symbol.KnownTo (symbol : Symbol) (store : Store) : Prop where
  cell : symbol.cell.KnownTo store
  function : symbol.function.KnownTo store
  properties : ∀ property ∈ symbol.properties,
    property.1.KnownTo store ∧ property.2.KnownTo store

namespace Store.Grows

variable {before after : Store} (hgrows : before.Grows after)

include hgrows

@[grind →]
theorem known {value : Value} (hknown : value.KnownTo before) : value.KnownTo after := by
  cases value with
  | fixnum n => exact hknown
  | symbol index => exact Nat.lt_of_lt_of_le hknown hgrows.symbols_size_le
  | object address => exact Nat.lt_of_lt_of_le hknown hgrows.heap_size_le

@[grind →]
theorem allKnown {values : List Value} (hknown : AllKnownTo values before) :
    AllKnownTo values after :=
  fun value hmem ↦ hgrows.known (hknown value hmem)

@[grind →]
theorem hasBuffer {index : Nat} (hbuffer : before.HasBuffer index) : after.HasBuffer index :=
  Nat.lt_of_lt_of_le hbuffer hgrows.buffers_size_le

@[grind →]
theorem changeable {index : Nat} (hchangeable : before.Changeable index) :
    after.Changeable index := by
  obtain ⟨name, htrait⟩ := hchangeable
  exact ⟨name, getElem?_of_prefix hgrows.traits htrait⟩

theorem knownObject {object : Object} (hknown : object.KnownTo before) : object.KnownTo after := by
  cases object with
  | cons car cdr => exact ⟨hgrows.known hknown.1, hgrows.known hknown.2⟩
  | vector items => exact hgrows.allKnown hknown
  | buffer index => exact hgrows.hasBuffer hknown
  | float | string | function | primitive | marker => trivial

theorem knownCell {cell : ValueCell} (hknown : cell.KnownTo before) : cell.KnownTo after := by
  cases cell with
  | plain value => exact hgrows.allKnown hknown
  | aliasOf target =>
    have htarget : (Value.symbol target).KnownTo before := hknown
    exact hgrows.known htarget

theorem knownSymbol {symbol : Symbol} (hknown : symbol.KnownTo before) : symbol.KnownTo after where
  cell := hgrows.knownCell hknown.cell
  function := hgrows.known hknown.function
  properties property hmem :=
    ⟨hgrows.known (hknown.properties property hmem).1,
      hgrows.known (hknown.properties property hmem).2⟩

end Store.Grows

/-! ### Values that every store knows -/

theorem Value.fitsFixnum_iff {n : Int} :
    Value.fitsFixnum n = true ↔ -0x1000000000000000 ≤ n ∧ n ≤ 0xFFFFFFFFFFFFFFF := by
  rw [fitsFixnum, Bool.and_eq_true, decide_eq_true_eq, decide_eq_true_eq]
  rfl

/-- An integer that is not checked for its size still is a fixnum. -/
theorem Value.known_ofInt (n : Int) (store : Store) : (Value.ofInt n).KnownTo store := by
  have hlow : -0x1000000000000000 ≤ Int.bmod n 0x2000000000000000 := Int.le_bmod (by decide)
  have hhigh : Int.bmod n 0x2000000000000000 < (0x2000000000000000 + 1) / 2 :=
    Int.bmod_lt (by decide)
  exact fitsFixnum_iff.mpr (by omega)

theorem Value.known_ofNat (n : Nat) (store : Store) : (Value.ofNat n).KnownTo store :=
  known_ofInt n store

theorem Value.known_ofChar (c : Char) (store : Store) : (Value.ofChar c).KnownTo store := by
  have hvalid : c.toNat.isValidChar := c.valid
  refine fitsFixnum_iff.mpr ?_
  rcases hvalid with hlow | ⟨-, hhigh⟩ <;> omega

theorem Value.known_of_ofInt? {n : Int} {value : Value} (hvalue : Value.ofInt? n = some value)
    (store : Store) : value.KnownTo store := by
  unfold Value.ofInt? at hvalue
  split_ifs at hvalue with hfits
  cases hvalue
  exact hfits

end LispMachine
