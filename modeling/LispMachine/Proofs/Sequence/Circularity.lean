import LispMachine.Primitive.Sequence
import LispMachine.Proofs.Store.Lists

/-!
How lists end, and who notices. Walks along a list count conses, and take a list for circular once
they have met more of them than the heap has objects. Here it is said without counting how a list
ends (`Heap.HasEnd`), and where the first item is that is looked for (`Heap.FirstMatch`). The main
statement, `listLength_and_searches_exact`, is that the count is never wrong: the length of a list
is given exactly if the list comes to nil, the two errors are raised exactly for the two other kinds
of lists, and a search finds what there is to be found also on a circular list.
-/

set_option autoImplicit false

namespace LispMachine

open LispMachine.Action Storage

namespace Heap

variable {heap : Heap} {list tail : Value} {cells : List Cell} {ending : ChainEnd} {bound : Nat}

/-! ### How a list ends -/

/-- A list ends in nil, or in something else that is no cons, or its second parts can be followed
any number of times. -/
def HasEnd (heap : Heap) (list : Value) : ChainEnd → Prop
  | .proper => ∃ cells, heap.Path list cells .nil
  | .improper => ∃ cells tail, heap.Path list cells tail ∧ heap.cons? tail = none ∧ tail ≠ .nil
  | .endless => ∀ count, ∃ cells tail, heap.Path list cells tail ∧ cells.length = count

/-- As far as a list is followed, it either goes on or has come to its end. -/
theorem exists_path_or_spine (heap : Heap) (list : Value) (count : Nat) :
    (∃ cells tail, heap.Path list cells tail ∧ cells.length = count) ∨
      ∃ cells tail, heap.Spine list cells tail := by
  induction count generalizing list with
  | zero => exact .inl ⟨[], list, .here, rfl⟩
  | succ count ih =>
    cases hcons : heap.cons? list with
    | none => exact .inr ⟨[], list, .here, hcons⟩
    | some parts =>
      obtain ⟨address, -, hfirst⟩ := Path.of_cons? hcons
      rcases ih parts.2 with ⟨cells, tail, hpath, rfl⟩ | ⟨cells, tail, hspine⟩
      · exact .inl ⟨_, tail, hfirst.trans hpath, rfl⟩
      · exact .inr ⟨_, tail, hfirst.trans hspine.path, hspine.ends⟩

theorem hasEnd_endless_of_no_spine (hnone : ¬ ∃ cells tail, heap.Spine list cells tail) :
    heap.HasEnd list .endless :=
  fun count ↦ (heap.exists_path_or_spine list count).resolve_right hnone

/-- A list without end has a cons after every number of conses. -/
theorem HasEnd.exists_cons_after (hendless : heap.HasEnd list .endless) (count : Nat) :
    ∃ cells tail item cdr, heap.Path list cells tail ∧ cells.length = count ∧
      heap.cons? tail = some (item, cdr) := by
  obtain ⟨cells, tail, hpath, hlength⟩ := hendless (count + 1)
  obtain rfl | ⟨front, cell, rfl⟩ := cells.eq_nil_or_concat'
  · cases hlength
  · obtain ⟨hfront, hcell⟩ := hpath.of_concat
    exact ⟨front, _, _, _, hfront, by simpa using hlength, cons?_object.mpr hcell⟩

theorem HasEnd.chain_eq (hends : heap.HasEnd list ending) : (heap.chain list).2 = ending := by
  cases ending with
  | proper =>
    obtain ⟨cells, hpath⟩ := hends
    rw [Spine.chain_eq ⟨hpath, rfl⟩]
    rfl
  | improper =>
    obtain ⟨cells, tail, hpath, hstop, htail⟩ := hends
    rw [Spine.chain_eq ⟨hpath, hstop⟩]
    exact if_neg htail
  | endless =>
    obtain ⟨cells, tail, item, cdr, hpath, hlength, hcons⟩ := hends.exists_cons_after heap.size
    have hwalk := chainWithin_of_path hpath 0
    rw [Nat.zero_add, hlength] at hwalk
    unfold chain
    rw [hwalk]
    unfold chainWithin
    rw [hcons]

theorem exists_hasEnd (heap : Heap) (list : Value) : ∃ ending, heap.HasEnd list ending := by
  by_cases hspine : ∃ cells tail, heap.Spine list cells tail
  · obtain ⟨cells, tail, hpath, hstop⟩ := hspine
    by_cases htail : tail = .nil
    · exact ⟨.proper, cells, htail ▸ hpath⟩
    · exact ⟨.improper, cells, tail, hpath, hstop, htail⟩
  · exact ⟨.endless, hasEnd_endless_of_no_spine hspine⟩

/-- The walk that counts conses comes to the right end. -/
theorem chain_eq_iff_hasEnd : (heap.chain list).2 = ending ↔ heap.HasEnd list ending := by
  refine ⟨fun hchain ↦ ?_, HasEnd.chain_eq⟩
  obtain ⟨other, hother⟩ := heap.exists_hasEnd list
  rwa [← hchain, hother.chain_eq]

/-! ### Searches -/

/-- The first tail of a list whose item is wanted. -/
def FirstMatch (heap : Heap) (wanted : Value → Prop) (list tail : Value) : Prop :=
  ∃ cells item cdr, heap.Path list cells tail ∧ (∀ cell ∈ cells, ¬ wanted cell.item) ∧
    heap.cons? tail = some (item, cdr) ∧ wanted item

section Searches

variable {wanted : Value → Bool}

theorem findTailWithin_of_path (hpath : heap.Path list cells tail)
    (hmiss : ∀ cell ∈ cells, ¬ wanted cell.item = true) (bound : Nat) :
    heap.findTailWithin wanted (bound + cells.length) list =
      heap.findTailWithin wanted bound tail := by
  induction hpath with
  | here => rfl
  | cons hcell _ ih =>
    rw [List.length_cons, ← Nat.add_assoc, findTailWithin, cons?_object.mpr hcell]
    dsimp only
    rw [if_neg (hmiss _ List.mem_cons_self)]
    exact ih fun other hmem ↦ hmiss other (List.mem_cons_of_mem _ hmem)

/-- On the way along a list on which nothing is wanted, nothing is wanted. -/
theorem Path.misses (hpath : heap.Path list cells tail) {wanted : Value → Prop}
    (hnone : ¬ ∃ found, heap.FirstMatch wanted list found) :
    ∀ cell ∈ cells, ¬ wanted cell.item := by
  induction hpath with
  | here => nofun
  | @cons address item cdr tail cells hcell hrest ih =>
    have hfirst : ¬ wanted item := fun hwanted ↦
      hnone ⟨_, [], item, cdr, .here, nofun, cons?_object.mpr hcell, hwanted⟩
    have hlater : ¬ ∃ found, heap.FirstMatch wanted cdr found := by
      rintro ⟨found, front, last, rest, hpath, hmiss, hfound⟩
      exact hnone ⟨found, _, last, rest, .cons hcell hpath,
        List.forall_mem_cons.mpr ⟨hfirst, hmiss⟩, hfound⟩
    exact List.forall_mem_cons.mpr ⟨hfirst, ih hlater⟩

theorem findTailWithin_of_firstMatch {found : Value}
    (hfound : heap.FirstMatch (wanted · = true) list found) :
    heap.findTailWithin wanted heap.size list = .found found := by
  obtain ⟨cells, item, cdr, hpath, hmiss, hcons, hwanted⟩ := hfound
  have hout : ∀ cell ∈ cells, .object cell.address ≠ found := by
    rintro cell hmem rfl
    -- the wanted cons is none of those before it, which are not wanted
    obtain ⟨other, hobject⟩ := hpath.object_of_mem hmem
    cases hcons.symm.trans (cons?_object.mpr hobject)
    exact hmiss cell hmem hwanted
  obtain ⟨bound, hbound⟩ := Nat.exists_eq_add_of_le' (hpath.length_le_size hout)
  rw [hbound, findTailWithin_of_path hpath hmiss]
  unfold findTailWithin
  rw [hcons]
  exact if_pos hwanted

theorem findTailWithin_of_no_match (hnone : ¬ ∃ found, heap.FirstMatch (wanted · = true) list found)
    (hends : heap.HasEnd list ending) :
    heap.findTailWithin wanted heap.size list =
      match ending with
      | .proper => .proper
      | .improper => .improper
      | .endless => .endless := by
  have hspine {cells : List Cell} {tail : Value} (hspine : heap.Spine list cells tail) :
      heap.findTailWithin wanted heap.size list =
        if tail = .nil then .proper else .improper := by
    obtain ⟨bound, hbound⟩ := Nat.exists_eq_add_of_le' hspine.length_le_size
    rw [hbound, findTailWithin_of_path hspine.path (hspine.path.misses hnone)]
    unfold findTailWithin
    rw [hspine.ends]
    simp only [Value.isNil, beq_iff_eq]
  cases ending with
  | proper =>
    obtain ⟨cells, hpath⟩ := hends
    exact hspine ⟨hpath, rfl⟩
  | improper =>
    obtain ⟨cells, tail, hpath, hstop, htail⟩ := hends
    exact (hspine ⟨hpath, hstop⟩).trans (if_neg htail)
  | endless =>
    obtain ⟨cells, tail, item, cdr, hpath, hlength, hcons⟩ := hends.exists_cons_after heap.size
    have hwalk := findTailWithin_of_path hpath (hpath.misses hnone) 0
    rw [Nat.zero_add, hlength] at hwalk
    rw [hwalk]
    unfold findTailWithin
    rw [hcons]
    refine if_neg fun hwanted ↦ hnone ⟨tail, cells, item, cdr, hpath, ?_, hcons, hwanted⟩
    exact hpath.misses hnone

end Searches

end Heap

/-- The searches along a list: for the item itself, for one that is equal to it, for a cons with a
first part, and by any test. -/
inductive Search where
  | memq (item : Value)
  | member (item : Value)
  | assq (key : Value)
  | byTest (test : Heap → Value → Bool)

namespace Search

/-- Which items are looked for. -/
def Wants (heap : Heap) : Search → Value → Prop
  | memq item, other => other = item
  | member item, other => heap.equal other item = true
  | assq key, other => ∃ cdr, heap.cons? other = some (key, cdr)
  | byTest test, other => test heap other = true

/-- What is given for the tail that was found: this tail, or its item. -/
def answer (heap : Heap) : Search → Value → Value
  | assq _, tail => heap.carSafe tail
  | memq _, tail | member _, tail | byTest _, tail => tail

def run : Search → Value → Storage Value
  | memq item, list => Storage.memq item list
  | member item, list => Storage.member item list
  | assq key, list => Storage.assq key list
  | byTest test, list => findTail list test

variable {store : Store} {list : Value}

/-- How a search ends, from how the walk along the list ends. -/
def outcome (search : Search) (store : Store) (list : Value) : Heap.SearchEnd → Storage Value
  | .found tail => return search.answer store.heap tail
  | .proper => return .nil
  | .improper => wrongType Symbols.listp list
  | .endless => error Symbols.circularList [list]

theorem findTail_apply (list : Value) (test : Heap → Value → Bool) (store : Store) :
    findTail list test store = (byTest test).outcome store list
      (store.heap.findTailWithin (test store.heap) store.heap.size list) store := by
  change (match store.heap.findTailWithin (test store.heap) store.heap.size list with
    | .found tail => _ | .proper => _ | .improper => _ | .endless => _ : Storage Value) store = _
  cases store.heap.findTailWithin (test store.heap) store.heap.size list <;> rfl

/-- The item is a cons with this first part. -/
def startsWith (key : Value) (heap : Heap) (item : Value) : Bool :=
  match heap.cons? item with
  | some (car, _) => car == key
  | none => false

theorem run_apply (search : Search) (store : Store) (list : Value) :
    ∃ wanted : Value → Bool, search.Wants store.heap = (wanted · = true) ∧
      search.run list store =
        search.outcome store list (store.heap.findTailWithin wanted store.heap.size list) store := by
  cases search with
  | memq item =>
    refine ⟨fun other ↦ other == item, ?_, findTail_apply list (fun _ other ↦ other == item) store⟩
    funext other
    exact propext beq_iff_eq.symm
  | member item =>
    exact ⟨_, rfl, findTail_apply list (fun heap other ↦ heap.equal other item) store⟩
  | byTest test => exact ⟨_, rfl, findTail_apply list test store⟩
  | assq key =>
    refine ⟨startsWith key store.heap, ?_, ?_⟩
    · funext other
      dsimp only [Wants, startsWith]
      cases store.heap.cons? other with
      | none => simp
      | some parts =>
        obtain ⟨car, cdr⟩ := parts
        simp
    · change (findTail list (startsWith key) >>= carSafe) store = _
      have hfound := findTail_apply list (startsWith key) store
      generalize store.heap.findTailWithin (startsWith key store.heap) store.heap.size list = walk
        at hfound ⊢
      cases walk with
      | found | proper => exact bind_of_ok hfound
      | improper | endless => exact bind_of_error hfound

/-- A search gives what it finds first. -/
theorem run_of_firstMatch (search : Search) {found : Value}
    (hfound : store.heap.FirstMatch (search.Wants store.heap) list found) :
    search.run list store = .ok (search.answer store.heap found) store := by
  obtain ⟨wanted, hwanted, hrun⟩ := search.run_apply store list
  rw [hwanted] at hfound
  rw [hrun, Heap.findTailWithin_of_firstMatch hfound]
  rfl

/-- A search that finds nothing ends as the list does. -/
theorem run_of_no_match (search : Search) {ending : Heap.ChainEnd}
    (hnone : ¬ ∃ found, store.heap.FirstMatch (search.Wants store.heap) list found)
    (hends : store.heap.HasEnd list ending) :
    match ending with
    | .proper => search.run list store = .ok .nil store
    | .improper => store.Raises (search.run list) Symbols.wrongTypeArgument [Symbols.listp, list]
    | .endless => store.Raises (search.run list) Symbols.circularList [list] := by
  obtain ⟨wanted, hwanted, hrun⟩ := search.run_apply store list
  rw [hwanted] at hnone
  rw [Heap.findTailWithin_of_no_match hnone hends] at hrun
  cases ending with
  | proper => exact hrun
  | improper | endless => exact Store.raises_of_error hrun

end Search

/-! ### The length of a list -/

namespace Storage

variable {store : Store} {list : Value}

theorem listLength_apply (list : Value) (store : Store) :
    listLength list store =
      (match store.heap.chain list with
        | (items, .proper) => Pure.pure items.length
        | (_, .improper) => wrongType Symbols.listp list
        | (_, .endless) => error Symbols.circularList [list] : Storage Nat) store :=
  rfl

theorem listLength_of_path {cells : List Heap.Cell} (hpath : store.heap.Path list cells .nil) :
    listLength list store = .ok cells.length store := by
  rw [listLength_apply, Heap.Spine.chain_eq ⟨hpath, rfl⟩]
  exact congrArg (EStateM.Result.ok · store) (List.length_map _)

theorem listLength_of_not_proper {ending : Heap.ChainEnd} (hends : store.heap.HasEnd list ending)
    (hending : ending ≠ .proper) :
    if ending = .improper then
      store.Raises (listLength list) Symbols.wrongTypeArgument [Symbols.listp, list]
    else store.Raises (listLength list) Symbols.circularList [list] := by
  have hchain := hends.chain_eq
  have hlength := listLength_apply list store
  generalize store.heap.chain list = chain at hchain hlength
  obtain ⟨items, ending⟩ := chain
  cases hchain
  cases ending with
  | proper => exact absurd rfl hending
  | improper | endless => exact Store.raises_of_error hlength

/-- The three ways in which counting the conses ends. -/
theorem listLength_cases (store : Store) (list : Value) :
    (∃ cells, store.heap.Path list cells .nil ∧
      listLength list store = .ok cells.length store) ∨
    (store.heap.HasEnd list .improper ∧
      store.Raises (listLength list) Symbols.wrongTypeArgument [Symbols.listp, list]) ∨
    (store.heap.HasEnd list .endless ∧
      store.Raises (listLength list) Symbols.circularList [list]) := by
  obtain ⟨ending, hends⟩ := store.heap.exists_hasEnd list
  cases ending with
  | proper =>
    obtain ⟨cells, hpath⟩ := hends
    exact .inl ⟨cells, hpath, listLength_of_path hpath⟩
  | improper => exact .inr (.inl ⟨hends, listLength_of_not_proper hends nofun⟩)
  | endless => exact .inr (.inr ⟨hends, listLength_of_not_proper hends nofun⟩)

end Storage

/-- Walks along a list never take it for another kind of list than it is. Its length is the number
of conses up to nil if it comes to nil, and the two errors are raised exactly for lists that end in
something else and for lists that do not end. A search gives the first tail whose item is looked
for if there is one, however the list goes on; otherwise it ends in one of the same three ways. -/
theorem listLength_and_searches_exact (store : Store) (list : Value) :
    (∀ count, listLength list store = .ok count store ↔
      ∃ cells, store.heap.Path list cells .nil ∧ cells.length = count) ∧
    (store.Raises (listLength list) Symbols.wrongTypeArgument [Symbols.listp, list] ↔
      store.heap.HasEnd list .improper) ∧
    (store.Raises (listLength list) Symbols.circularList [list] ↔
      store.heap.HasEnd list .endless) ∧
    ∀ search : Search,
      (∀ found, store.heap.FirstMatch (search.Wants store.heap) list found →
        search.run list store = .ok (search.answer store.heap found) store) ∧
      ((¬ ∃ found, store.heap.FirstMatch (search.Wants store.heap) list found) →
        (store.heap.HasEnd list .proper → search.run list store = .ok .nil store) ∧
        (store.heap.HasEnd list .improper →
          store.Raises (search.run list) Symbols.wrongTypeArgument [Symbols.listp, list]) ∧
        (store.heap.HasEnd list .endless →
          store.Raises (search.run list) Symbols.circularList [list])) := by
  have hcases := listLength_cases store list
  refine ⟨fun count ↦ ⟨fun hlength ↦ ?_, ?_⟩, ⟨fun hraises ↦ ?_, fun hends ↦ ?_⟩,
    ⟨fun hraises ↦ ?_, fun hends ↦ ?_⟩, fun search ↦ ⟨fun _ ↦ search.run_of_firstMatch, ?_⟩⟩
  · rcases hcases with ⟨cells, hpath, hcells⟩ | ⟨-, hother⟩ | ⟨-, hother⟩
    · cases hcells.symm.trans hlength
      exact ⟨cells, hpath, rfl⟩
    · exact absurd hlength (hother.not_ok count store)
    · exact absurd hlength (hother.not_ok count store)
  · rintro ⟨cells, hpath, rfl⟩
    exact listLength_of_path hpath
  · rcases hcases with ⟨cells, -, hcells⟩ | ⟨hends, -⟩ | ⟨-, hother⟩
    · exact absurd hcells (hraises.not_ok cells.length store)
    · exact hends
    · exact absurd (hraises.symbol_eq hother) (by decide)
  · exact listLength_of_not_proper hends nofun
  · rcases hcases with ⟨cells, -, hcells⟩ | ⟨-, hother⟩ | ⟨hends, -⟩
    · exact absurd hcells (hraises.not_ok cells.length store)
    · exact absurd (hraises.symbol_eq hother) (by decide)
    · exact hends
  · exact listLength_of_not_proper hends nofun
  · exact fun hnone ↦ ⟨search.run_of_no_match hnone, search.run_of_no_match hnone,
      search.run_of_no_match hnone⟩

/-- Two conses in a circle, with 1 and 2: the second is found, a third item is missed, and neither
the circle nor the list that leads into it has a length. -/
theorem listLength_and_searches_exact_circle :
    let heap : Heap := { objects := #[.cons (.fixnum 1) (.object 1), .cons (.fixnum 2) (.object 0),
      .cons (.fixnum 3) (.object 0)], threshold := 1 }
    let store : Store := { heap := heap }
    heap.HasEnd (.object 2) .endless ∧
      heap.FirstMatch ((Search.memq (.fixnum 2)).Wants heap) (.object 2) (.object 1) ∧
      memq (.fixnum 2) (.object 2) store = .ok (.object 1) store ∧
      (¬ ∃ found, heap.FirstMatch ((Search.memq (.fixnum 4)).Wants heap) (.object 2) found) ∧
      store.Raises (memq (.fixnum 4) (.object 2)) Symbols.circularList [.object 2] ∧
      store.Raises (listLength (.object 2)) Symbols.circularList [.object 2] := by
  intro heap store
  obtain ⟨-, -, hlength, hsearch⟩ := listLength_and_searches_exact store (.object 2)
  have hends : heap.HasEnd (.object 2) .endless := Heap.chain_eq_iff_hasEnd.mp rfl
  have hfound : heap.FirstMatch ((Search.memq (.fixnum 2)).Wants heap) (.object 2) (.object 1) :=
    ⟨[⟨2, .fixnum 3⟩, ⟨0, .fixnum 1⟩], .fixnum 2, .object 0, .cons rfl (.cons rfl .here),
      by simp [Search.Wants], rfl, rfl⟩
  have hnone : ¬ ∃ found,
      heap.FirstMatch ((Search.memq (.fixnum 4)).Wants heap) (.object 2) found := by
    rintro ⟨found, cells, item, cdr, -, -, hcons, rfl⟩
    cases found with
    | fixnum | symbol => cases hcons
    | object address => obtain _ | _ | _ | address := address <;> cases hcons
  exact ⟨hends, hfound, (hsearch (.memq (.fixnum 2))).1 _ hfound, hnone,
    ((hsearch (.memq (.fixnum 4))).2 hnone).2.2 hends, hlength.mpr hends⟩

end LispMachine
