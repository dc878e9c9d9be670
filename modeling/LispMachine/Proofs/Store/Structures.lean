import LispMachine.Execution.Invocation
import LispMachine.Proofs.Store.Actions

/-!
The primitives on values as such, on symbols, and on lists and vectors uphold soundness. Those that
change an object in place replace it by one of the same kind (`replace`); the only one that touches
the cell of a symbol other than by assignment is `defineAlias`, which asks first whether the symbol
is a constant.
-/

set_option autoImplicit false

namespace LispMachine

/-! ### Reading the heap -/

namespace Store.Sound

variable {store : Store} (hsound : store.Sound)

include hsound

/-- A search along a chain ends at a tail of the chain. -/
theorem known_findTailWithin {wanted : Value → Bool} (bound : Nat) {list tail : Value}
    (hlist : list.KnownTo store)
    (hfound : store.heap.findTailWithin wanted bound list = .found tail) : tail.KnownTo store := by
  induction bound generalizing list with
  | zero =>
    unfold Heap.findTailWithin at hfound
    grind
  | succ bound ih =>
    unfold Heap.findTailWithin at hfound
    cases hcons : store.heap.cons? list with
    | none => grind
    | some parts =>
      rw [hcons] at hfound
      dsimp only at hfound
      split_ifs at hfound
      · cases hfound
        exact hlist
      · exact ih (hsound.known_of_cons? hcons).2 hfound

theorem known_lastConsWithin (bound : Nat) {cell last : Value} (hcell : cell.KnownTo store)
    (hlast : store.heap.lastConsWithin bound cell = some last) : last.KnownTo store := by
  induction bound generalizing cell with
  | zero =>
    unfold Heap.lastConsWithin at hlast
    grind
  | succ bound ih =>
    unfold Heap.lastConsWithin at hlast
    split_ifs at hlast
    · exact ih (hsound.known_cdrSafe cell) hlast
    · cases hlast
      exact hcell

end Store.Sound

namespace Storage.Upholds

variable {world : Store}

/-! ### Values -/

theorem testHeap (test : Heap → Value → Bool) (value : Value) :
    Upholds world (Storage.testHeap test value) Value.KnownTo :=
  reading_bind (fun _ ↦ rfl) fun _ _ _ ↦ ofBool _

theorem functionp (value : Value) : Upholds world (Storage.functionp value) Value.KnownTo :=
  reading_bind (fun _ ↦ rfl) fun _ _ _ ↦ ofBool _

theorem eql (a b : Value) : Upholds world (Storage.eql a b) Value.KnownTo :=
  reading_bind (fun _ ↦ rfl) fun _ _ _ ↦ ofBool _

theorem equal (a b : Value) : Upholds world (Storage.equal a b) Value.KnownTo :=
  reading_bind (fun _ ↦ rfl) fun _ _ _ ↦ ofBool _

/-! ### Symbols -/

theorem symbolName {value : Value} (hvalue : value.KnownTo world) :
    Upholds world (Storage.symbolName value) Value.KnownTo :=
  bind (symbolArgument hvalue) fun _ _ _ _ _ ↦
    reading_bind (fun _ ↦ rfl) fun _ _ _ ↦ makeString _

theorem symbolFunction {value : Value} (hvalue : value.KnownTo world) :
    Upholds world (Storage.symbolFunction value) Value.KnownTo :=
  bind (symbolArgument hvalue) fun index _ _ _ _ ↦
    reading_bind (fun _ ↦ rfl) fun _ _ hsound ↦ .value (hsound.known_symbol index).function

theorem t : Upholds world (Pure.pure Value.t) Value.KnownTo := ofBool true

theorem boundp {value : Value} (hvalue : value.KnownTo world) :
    Upholds world (Storage.boundp value) Value.KnownTo :=
  bind (symbolArgument hvalue) fun _ _ hgrows _ _ ↦
    attempt_bind (symbolValue (hgrows.known hvalue)) (fun _ _ _ _ _ ↦ t) fun _ _ _ _ ↦ nil

theorem fboundp {value : Value} (hvalue : value.KnownTo world) :
    Upholds world (Storage.fboundp value) Value.KnownTo :=
  bind (symbolArgument hvalue) fun _ _ _ _ _ ↦ reading_bind (fun _ ↦ rfl) fun _ _ _ ↦ ofBool _

theorem setFunction {symbol definition : Value} (hsymbol : symbol.KnownTo world)
    (hdefinition : definition.KnownTo world) :
    Upholds world (Storage.setFunction symbol definition) Value.KnownTo := by
  refine bind (symbolArgument hsymbol) fun index later hlater _ _ ↦ ?_
  dsimp only
  split_ifs
  · exact never_bind (error rfl (.cons (hlater.known hsymbol) .nil))
  · refine bind (storeFunction index (hlater.known hdefinition)) fun _ last hlast _ _ ↦ ?_
    exact .value (hlast.known (hlater.known hdefinition))

theorem getProperty {symbol : Value} (hsymbol : symbol.KnownTo world) (property : Value) :
    Upholds world (Storage.getProperty symbol property) Value.KnownTo := by
  refine bind (symbolArgument hsymbol) fun index _ _ _ _ ↦ ?_
  refine reading_bind (fun _ ↦ rfl) fun store _ hsound ↦ ?_
  cases hvalue : store.symbols.property? index property with
  | none => exact nil
  | some value => exact .value (hsound.known_property? hvalue)

theorem putProperty {symbol property value : Value} (hsymbol : symbol.KnownTo world)
    (hproperty : property.KnownTo world) (hvalue : value.KnownTo world) :
    Upholds world (Storage.putProperty symbol property value) Value.KnownTo := by
  refine bind (symbolArgument hsymbol) fun index later hlater _ _ ↦ ?_
  refine bind (storeProperty index (hlater.known hproperty) (hlater.known hvalue))
    fun _ _ hlast _ _ ↦ ?_
  exact .value (hlast.known (hlater.known hvalue))

/-- Whether the symbol is a constant is asked before its cell is touched. -/
theorem defineAlias {symbol base : Value} (hsymbol : symbol.KnownTo world)
    (hbase : base.KnownTo world) :
    Upholds world (Storage.defineAlias symbol base) Value.KnownTo := by
  refine bind (symbolArgument hsymbol) fun index first hfirst _ hindex ↦ ?_
  refine bind (symbolArgument (hfirst.known hbase)) fun target second hsecond _ htarget ↦ ?_
  refine reading_bind (fun _ ↦ rfl) fun store hstore _ ↦ ?_
  have hgrows : world.Grows store := hfirst.trans (hsecond.trans hstore)
  dsimp only
  split_ifs with hconstant
  · exact never_bind (error rfl (.cons (hgrows.known hsymbol) .nil))
  · have hchangeable : store.Changeable index :=
      Store.changeable_of_get (hstore.known (hsecond.known hindex)) (by simpa using hconstant)
    refine bind (setCell hchangeable (hstore.known htarget)) fun _ third hthird _ _ ↦ ?_
    refine reading_bind (fun _ ↦ rfl) fun fourth hfourth _ ↦ ?_
    have hlater : store.Grows fourth := hthird.trans hfourth
    split_ifs
    · refine bind (setCell (hlater.changeable hchangeable) nofun) fun _ last hlast _ _ ↦ ?_
      exact never_bind (error rfl (.cons (by grind) .nil))
    · exact .value (by grind)

theorem internNamed {name : Value} (hname : name.KnownTo world) :
    Upholds world (Storage.internNamed name) Value.KnownTo :=
  bind (stringArgument hname) fun text _ _ _ _ ↦ intern text

end Storage.Upholds

/-! ### Changing objects in place -/

/-- What has grown has an object of the same kind at each address. -/
theorem Store.Grows.get?_kind {before after : Store} (hgrows : before.Grows after) {value : Value}
    {old : Object} (hold : before.heap.get? value = some old) :
    ∃ object, after.heap.get? value = some object ∧ object.kind = old.kind := by
  cases value with
  | fixnum | symbol => cases hold
  | object address =>
    have hkind : before.heap.kinds[address]? = some old.kind := by
      unfold Heap.kinds
      rw [List.getElem?_map, Array.getElem?_toList, ← Heap.get?_object, hold]
      rfl
    have hkind := getElem?_of_prefix hgrows.kinds hkind
    unfold Heap.kinds at hkind
    rw [List.getElem?_map, Array.getElem?_toList] at hkind
    exact Option.map_eq_some_iff.mp hkind

namespace Storage.Upholds

variable {world : Store}

/-- An object that is no marker is replaced by one of the same kind. -/
theorem replace {value : Value} {old object : Object} (hold : world.heap.get? value = some old)
    (hkind : object.kind = old.kind) (hmarker : old.kind ≠ .marker)
    (hobject : object.KnownTo world) :
    Upholds world (modifyHeap fun heap ↦ heap.set value object) Anything := by
  refine changing (fun _ ↦ rfl) fun store hgrows hsound ↦ ?_
  obtain ⟨present, hpresent, hsame⟩ := hgrows.get?_kind hold
  have hkept : object.kind = present.kind := hkind.trans hsame.symm
  refine ⟨hsound.set hpresent hkept (hsame ▸ hmarker) (hgrows.knownObject hobject), ?_, trivial⟩
  exact .of_heap ((Heap.kinds_set hpresent hkept) ▸ List.prefix_rfl)

end Storage.Upholds

/-- The parts of a cons are replaced. -/
theorem Store.Sound.setParts {store : Store} (hsound : store.Sound) {cell car cdr : Value}
    {parts : Value × Value} (hcell : store.heap.cons? cell = some parts)
    (hcar : car.KnownTo store) (hcdr : cdr.KnownTo store) :
    { store with heap := store.heap.set cell (.cons car cdr) : Store }.Sound ∧
      store.Grows { store with heap := store.heap.set cell (.cons car cdr) } := by
  have hold := Heap.cons?_eq_some.mp hcell
  have hkinds : (store.heap.set cell (.cons car cdr)).kinds = store.heap.kinds :=
    Heap.kinds_set hold rfl
  exact ⟨hsound.set hold rfl nofun ⟨hcar, hcdr⟩, .of_heap (hkinds ▸ List.prefix_rfl)⟩

namespace Storage.Upholds

variable {world : Store}

theorem replaceCar (cell : Value) {value : Value} (hvalue : value.KnownTo world) :
    Upholds world (modifyHeap fun heap ↦ heap.setCar cell value) Anything := by
  refine changing (fun _ ↦ rfl) fun store hgrows hsound ↦ ?_
  dsimp only [Heap.setCar]
  cases hcell : store.heap.cons? cell with
  | none => exact ⟨hsound, .refl store, trivial⟩
  | some parts =>
    have hset := hsound.setParts hcell (hgrows.known hvalue) (hsound.known_of_cons? hcell).2
    exact ⟨hset.1, hset.2, trivial⟩

theorem replaceCdr (cell : Value) {value : Value} (hvalue : value.KnownTo world) :
    Upholds world (modifyHeap fun heap ↦ heap.setCdr cell value) Anything := by
  refine changing (fun _ ↦ rfl) fun store hgrows hsound ↦ ?_
  dsimp only [Heap.setCdr]
  cases hcell : store.heap.cons? cell with
  | none => exact ⟨hsound, .refl store, trivial⟩
  | some parts =>
    have hset := hsound.setParts hcell (hsound.known_of_cons? hcell).1 (hgrows.known hvalue)
    exact ⟨hset.1, hset.2, trivial⟩

/-! ### Lists and vectors -/

theorem carSafe (value : Value) : Upholds world (Storage.carSafe value) Value.KnownTo :=
  reading_bind (fun _ ↦ rfl) fun _ _ hsound ↦ .value (hsound.known_carSafe value)

theorem cdrSafe (value : Value) : Upholds world (Storage.cdrSafe value) Value.KnownTo :=
  reading_bind (fun _ ↦ rfl) fun _ _ hsound ↦ .value (hsound.known_cdrSafe value)

theorem setCar {cell value : Value} (hcell : cell.KnownTo world) (hvalue : value.KnownTo world) :
    Upholds world (Storage.setCar cell value) Value.KnownTo := by
  refine reading_bind (fun _ ↦ rfl) fun store hgrows _ ↦ ?_
  split_ifs
  · refine bind (replaceCar cell (hgrows.known hvalue)) fun _ last hlast _ _ ↦ ?_
    exact .value (hlast.known (hgrows.known hvalue))
  · exact wrongType rfl (hgrows.known hcell)

theorem setCdr {cell value : Value} (hcell : cell.KnownTo world) (hvalue : value.KnownTo world) :
    Upholds world (Storage.setCdr cell value) Value.KnownTo := by
  refine reading_bind (fun _ ↦ rfl) fun store hgrows _ ↦ ?_
  split_ifs
  · refine bind (replaceCdr cell (hgrows.known hvalue)) fun _ last hlast _ _ ↦ ?_
    exact .value (hlast.known (hgrows.known hvalue))
  · exact wrongType rfl (hgrows.known hcell)

theorem vector {items : List Value} (hitems : AllKnownTo items world) :
    Upholds world (Storage.vector items) Value.KnownTo :=
  makeVector (by simpa using hitems)

theorem listLength {list : Value} (hlist : list.KnownTo world) :
    Upholds world (Storage.listLength list) Anything := by
  refine reading_bind (fun _ ↦ rfl) fun store hgrows _ ↦ ?_
  generalize store.heap.chain list = chain
  obtain ⟨items, ending⟩ := chain
  cases ending with
  | proper => exact done
  | improper => exact wrongType rfl (hgrows.known hlist)
  | endless => exact error rfl (.cons (hgrows.known hlist) .nil)

theorem length {sequence : Value} (hsequence : sequence.KnownTo world) :
    Upholds world (Storage.length sequence) Value.KnownTo := by
  refine reading_bind (fun _ ↦ rfl) fun store hgrows _ ↦ ?_
  split
  · exact ofNat _
  · exact ofNat _
  · exact bind (listLength (hgrows.known hsequence)) fun _ _ _ _ _ ↦ ofNat _
  · split_ifs
    · exact zero
    · exact wrongType rfl (hgrows.known hsequence)

theorem tailAfter (count : Nat) {tail : Value} (htail : tail.KnownTo world) :
    Upholds world (Storage.tailAfter count tail) Value.KnownTo := by
  induction count generalizing world tail with
  | zero => exact .value htail
  | succ count ih =>
    unfold Storage.tailAfter
    split_ifs
    · exact .value htail
    · exact bind (cdr htail) fun _ _ _ _ hnext ↦ ih hnext

theorem nthcdr {count list : Value} (hcount : count.KnownTo world) (hlist : list.KnownTo world) :
    Upholds world (Storage.nthcdr count list) Value.KnownTo :=
  bind (fixnumArgument hcount) fun n _ hgrows _ _ ↦ tailAfter n.toNat (hgrows.known hlist)

theorem nth {count list : Value} (hcount : count.KnownTo world) (hlist : list.KnownTo world) :
    Upholds world (Storage.nth count list) Value.KnownTo :=
  bind (nthcdr hcount hlist) fun _ _ _ _ htail ↦ car htail

/-- A value that may be missing, or what happens if it is. -/
theorem valueOr {item : Option Value} {missing : Storage Value}
    (hitem : ∀ value ∈ item, value.KnownTo world)
    (hmissing : Upholds world missing Value.KnownTo) :
    Upholds world (match item with
      | some item => Pure.pure item
      | none => missing) Value.KnownTo := by
  cases item with
  | some value => exact .value (hitem value rfl)
  | none => exact hmissing

theorem aref {array index : Value} (harray : array.KnownTo world) (hindex : index.KnownTo world) :
    Upholds world (Storage.aref array index) Value.KnownTo := by
  refine bind (fixnumArgument hindex) fun i later hlater _ _ ↦ ?_
  refine reading_bind (fun _ ↦ rfl) fun store hstore hsound ↦ ?_
  split
  · next items hitems =>
    refine valueOr (fun value hvalue ↦ ?_) (argsOutOfRange (by grind) (by grind))
    split_ifs at hvalue
    · exact hsound.known_of_vector? (Heap.vector?_eq_some.mpr hitems) value (by grind)
    · cases hvalue
  · refine valueOr (fun value hvalue ↦ ?_) (argsOutOfRange (by grind) (by grind))
    split_ifs at hvalue
    · obtain ⟨c, -, rfl⟩ := Option.map_eq_some_iff.mp hvalue
      exact Value.known_ofChar c store
    · cases hvalue
  · exact never_bind (wrongType rfl (by grind))

theorem elt {sequence index : Value} (hsequence : sequence.KnownTo world)
    (hindex : index.KnownTo world) :
    Upholds world (Storage.elt sequence index) Value.KnownTo := by
  refine reading_bind (fun _ ↦ rfl) fun store hgrows _ ↦ ?_
  split_ifs
  · exact nth (hgrows.known hindex) (hgrows.known hsequence)
  · exact aref (hgrows.known hsequence) (hgrows.known hindex)

theorem aset {array index value : Value} (harray : array.KnownTo world)
    (hindex : index.KnownTo world) (hvalue : value.KnownTo world) :
    Upholds world (Storage.aset array index value) Value.KnownTo := by
  refine bind (fixnumArgument hindex) fun i later hlater _ _ ↦ ?_
  refine reading_bind (fun _ ↦ rfl) fun store hstore hsound ↦ ?_
  split
  · next text htext =>
    refine bind (characterArgument (by grind)) fun c third hthird _ _ ↦ ?_
    split_ifs
    · have hset : Upholds store (modifyHeap fun heap ↦ heap.set _
          (.string (String.ofList (text.toList.set i.toNat c)))) Anything :=
        replace htext rfl nofun trivial
      exact bind (hset.later hthird) fun _ _ _ _ _ ↦ .value (by grind)
    · exact argsOutOfRange (by grind) (by grind)
  · next items hitems =>
    split_ifs
    · have hknown : (Object.vector (items.setIfInBounds i.toNat value)).KnownTo store := by
        intro item hitem
        rcases Array.mem_or_eq_of_mem_setIfInBounds (Array.mem_toList_iff.mp hitem) with hold | rfl
        · exact hsound.known_of_vector? (Heap.vector?_eq_some.mpr hitems) item (by simpa using hold)
        · grind
      refine bind (replace hitems rfl nofun hknown) fun _ _ _ _ _ ↦ ?_
      exact .value (by grind)
    · exact argsOutOfRange (by grind) (by grind)
  · exact wrongType rfl (by grind)

theorem findTail {list : Value} (hlist : list.KnownTo world) (wanted : Heap → Value → Bool) :
    Upholds world (Storage.findTail list wanted) Value.KnownTo := by
  refine reading_bind (fun _ ↦ rfl) fun store hgrows hsound ↦ ?_
  dsimp only
  split
  · next tail htail => exact .value (hsound.known_findTailWithin _ (hgrows.known hlist) htail)
  · exact nil
  · exact wrongType rfl (hgrows.known hlist)
  · exact error rfl (.cons (hgrows.known hlist) .nil)

theorem assq (key : Value) {list : Value} (hlist : list.KnownTo world) :
    Upholds world (Storage.assq key list) Value.KnownTo :=
  bind (findTail hlist _) fun tail _ _ _ _ ↦ carSafe tail

theorem reverseOnto {turned : Value} (hturned : turned.KnownTo world) (count : Nat) {tail : Value}
    (htail : tail.KnownTo world) :
    Upholds world (Storage.reverseOnto turned count tail) Value.KnownTo := by
  induction count generalizing world turned tail with
  | zero => exact .value hturned
  | succ count ih =>
    refine bind (cdr htail) fun next first hfirst _ hnext ↦ ?_
    refine bind (setCdr (hfirst.known htail) (hfirst.known hturned)) fun _ second hsecond _ _ ↦ ?_
    exact ih (hsecond.known (hfirst.known htail)) (hsecond.known hnext)

theorem nreverse {sequence : Value} (hsequence : sequence.KnownTo world) :
    Upholds world (Storage.nreverse sequence) Value.KnownTo := by
  refine reading_bind (fun _ ↦ rfl) fun store hgrows hsound ↦ ?_
  split
  · next items hitems =>
    have hknown : (Object.vector items.reverse).KnownTo store := by
      intro item hitem
      exact hsound.known_of_vector? (Heap.vector?_eq_some.mpr hitems) item (by simpa using hitem)
    exact bind (replace hitems rfl nofun hknown) fun _ _ _ _ _ ↦ .value (by grind)
  · next text htext =>
    exact bind (replace htext rfl nofun trivial) fun _ _ _ _ _ ↦ .value (by grind)
  · refine bind (listLength (hgrows.known hsequence)) fun count later hlater hafter _ ↦ ?_
    exact reverseOnto hafter.known_nil count (by grind)

/-- Chaining what is left once a list has been put behind the ones before it. -/
theorem chainRest {list result : Value} {lists : List Value} (hlist : list.KnownTo world)
    (hresult : result.KnownTo world)
    (hnext : ∀ cell store, world.Grows store → cell.KnownTo store →
      Upholds store (Storage.chainLists (some cell) result lists) Value.KnownTo) :
    Upholds world (do
      if lists.isEmpty then return result
      let heap := (← get).heap
      if !heap.isCons list then Storage.wrongType Symbols.consp list
      match heap.lastConsWithin heap.size list with
      | some cell => Storage.chainLists (some cell) result lists
      | none => Storage.error Symbols.circularList [list]) Value.KnownTo := by
  split_ifs
  · exact .value hresult
  · refine reading_bind (fun _ ↦ rfl) fun store hstore hsound ↦ ?_
    have hknown : list.KnownTo store := hstore.known hlist
    dsimp only
    split_ifs
    · exact never_bind (wrongType rfl hknown)
    · cases hcell : store.heap.lastConsWithin store.heap.size list with
      | none => exact error rfl (.cons hknown .nil)
      | some cell =>
        exact hnext cell store hstore (hsound.known_lastConsWithin _ hknown hcell)

theorem chainLists {lists : List Value} (hlists : AllKnownTo lists world) {last : Option Value}
    {result : Value} (hlast : ∀ cell ∈ last, cell.KnownTo world) (hresult : result.KnownTo world) :
    Upholds world (Storage.chainLists last result lists) Value.KnownTo := by
  induction lists generalizing world last result with
  | nil => exact .value hresult
  | cons list lists ih =>
    obtain ⟨hlist, hrest⟩ := List.forall_mem_cons.mp hlists
    have hgo {result : Value} {later : Store} (hlater : world.Grows later)
        (hresult : result.KnownTo later) :=
      chainRest (hlater.known hlist) hresult fun cell store hstore hcell ↦
        ih (hstore.allKnown (hlater.allKnown hrest)) (by rintro _ ⟨⟩; exact hcell)
          (hstore.known hresult)
    unfold Storage.chainLists
    split
    · exact ih hrest hlast hresult
    · dsimp only
      cases last with
      | none => exact bind (.value hlist) fun _ _ hlater _ hresult ↦ hgo hlater hresult
      | some cell =>
        refine bind (setCdr (hlast cell rfl) hlist) fun _ later hlater _ _ ↦ ?_
        exact bind (.value (hlater.known hresult)) fun _ _ hlast _ hresult ↦
          hgo (hlater.trans hlast) hresult

theorem nconc {lists : List Value} (hlists : AllKnownTo lists world) :
    Upholds world (Storage.nconc lists) Value.KnownTo :=
  here fun _ hgrows hsound ↦ chainLists (hgrows.allKnown hlists) nofun hsound.known_nil

end Storage.Upholds

end LispMachine
