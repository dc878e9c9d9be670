import LispMachine.Proofs.Store.Chains

/-!
Fresh lists. A list of items is made of one cons for each of them, and nothing that was in the heap
before changes (`Heap.list_fresh`). What is made is a proper list, and read back it gives the items
(`Heap.ListsFrom.chain_eq`).
-/

set_option autoImplicit false

namespace LispMachine

namespace Heap

variable {before middle after heap : Heap} {bound : Nat} {value : Value} {items : List Value}

/-- Every object of the first heap is at the same place in the second. -/
def KeptIn (before after : Heap) : Prop :=
  ∀ (address : Nat) (object : Object),
    before.objects[address]? = some object → after.objects[address]? = some object

theorem KeptIn.refl (heap : Heap) : heap.KeptIn heap := fun _ _ hobject ↦ hobject

theorem KeptIn.trans (hfirst : before.KeptIn middle) (hsecond : middle.KeptIn after) :
    before.KeptIn after :=
  fun address object hobject ↦ hsecond address object (hfirst address object hobject)

theorem KeptIn.size_le (hkept : before.KeptIn after) : before.size ≤ after.size := by
  refine Nat.le_of_not_lt fun hless ↦ ?_
  have hlast : before.objects[after.size]? = some before.objects[after.size] :=
    Array.getElem?_eq_getElem hless
  exact Nat.lt_irrefl _ (Array.getElem?_eq_some_iff.mp (hkept _ _ hlast)).1

theorem keptIn_allocate (heap : Heap) (object : Object) :
    heap.KeptIn (heap.allocate object).2 := by
  intro address kept hkept
  have hless : address < heap.objects.size := (Array.getElem?_eq_some_iff.mp hkept).1
  change (heap.objects.push object)[address]? = _
  rw [Array.getElem?_push, if_neg (Nat.ne_of_lt hless), hkept]

theorem getElem?_allocate (heap : Heap) (object : Object) :
    (heap.allocate object).2.objects[heap.size]? = some object :=
  Array.getElem?_push_size

/-- The value is a proper list of the items, and its conses are at the address `bound` or beyond. -/
inductive ListsFrom (heap : Heap) (bound : Nat) : Value → List Value → Prop where
  | nil : ListsFrom heap bound .nil []
  | cons {address : Nat} {car cdr : Value} {items : List Value} (hbound : bound ≤ address)
      (hcell : heap.objects[address]? = some (.cons car cdr))
      (hrest : ListsFrom heap bound cdr items) :
      ListsFrom heap bound (.object address) (car :: items)

theorem ListsFrom.keptIn (hlists : before.ListsFrom bound value items)
    (hkept : before.KeptIn after) : after.ListsFrom bound value items := by
  induction hlists with
  | nil => exact .nil
  | cons hbound hcell _ ih => exact .cons hbound (hkept _ _ hcell) ih

theorem ListsFrom.mono {lower : Nat} (hlists : heap.ListsFrom bound value items)
    (hlower : lower ≤ bound) : heap.ListsFrom lower value items := by
  induction hlists with
  | nil => exact .nil
  | cons hbound hcell _ ih => exact .cons (Nat.le_trans hlower hbound) hcell ih

/-- A list of items is made of conses that were not there before. -/
theorem list_fresh (heap : Heap) (items : List Value) :
    heap.KeptIn (heap.list items).2 ∧
      (heap.list items).2.ListsFrom heap.size (heap.list items).1 items := by
  induction items with
  | nil => exact ⟨.refl heap, .nil⟩
  | cons item items ih =>
    obtain ⟨hkept, hlists⟩ := ih
    have hcell := (heap.list items).2.keptIn_allocate (.cons item (heap.list items).1)
    exact ⟨hkept.trans hcell,
      .cons hkept.size_le (getElem?_allocate _ _) (hlists.keptIn hcell)⟩

/-! ### Reading -/

theorem ListsFrom.exists_path (hlists : heap.ListsFrom bound value items) :
    ∃ cells, heap.Path value cells .nil ∧ cells.map Cell.item = items := by
  induction hlists with
  | nil => exact ⟨[], .here, rfl⟩
  | cons _ hcell _ ih =>
    obtain ⟨cells, hpath, rfl⟩ := ih
    exact ⟨_, .cons hcell hpath, rfl⟩

/-- What is read is the items. -/
theorem ListsFrom.chain_eq (hlists : heap.ListsFrom bound value items) :
    heap.chain value = (items, .proper) := by
  obtain ⟨cells, hpath, rfl⟩ := hlists.exists_path
  exact Spine.chain_eq ⟨hpath, rfl⟩

end Heap

/-! ### Errors -/

namespace Store

variable {α : Type} {store : Store} {action : Storage α} {symbol other : Value}
  {data others : List Value}

/-- The action stops with an error. Its data is a fresh list, and everything that was there before
is as it was. -/
def Raises (store : Store) (action : Storage α) (symbol : Value) (data : List Value) : Prop :=
  ∃ list heap, action store = .error (.signal ⟨symbol, list⟩) { store with heap := heap } ∧
    store.heap.KeptIn heap ∧ heap.ListsFrom store.heap.size list data

theorem raises_of_error (hstops : action store = Storage.error symbol data store) :
    store.Raises action symbol data :=
  ⟨_, _, hstops, store.heap.list_fresh data⟩

theorem Raises.symbol_eq (hfirst : store.Raises action symbol data)
    (hsecond : store.Raises action other others) : symbol = other := by
  obtain ⟨_, _, hstops, -⟩ := hfirst
  obtain ⟨_, _, hstops', -⟩ := hsecond
  cases hstops.symm.trans hstops'
  rfl

theorem Raises.not_ok (hraises : store.Raises action symbol data) (result : α) (after : Store) :
    action store ≠ .ok result after := by
  obtain ⟨_, _, hstops, -⟩ := hraises
  rw [hstops]
  nofun

end Store

end LispMachine
