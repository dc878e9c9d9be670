import LispMachine.Proofs.Sequence.Circularity
import Mathlib.Data.List.Infix
import Mathlib.Data.List.Pairwise

/-!
Lists that are put together anew from the conses they have. Reversing a list and chaining lists
change second parts of conses and allocate nothing. What is said of a heap after that is on which
paths its lists now are, and at which addresses something has changed (`Heap.ChangedAt`): at the
conses of the list that is reversed (`nreverse_in_place`), and at the last conses of the lists that
something is chained to (`nconc_in_place`). Everything else in the heap is as it was.
-/

set_option autoImplicit false

namespace LispMachine

open LispMachine.Action Storage

namespace Heap

variable {heap before middle after : Heap} {address : Nat} {item cdr value list tail : Value}
  {cell : Cell} {cells : List Cell} {touched more : Nat → Prop}

/-! ### Changing the second part of a cons -/

/-- Nothing is added, and nothing is changed but objects at certain addresses. -/
structure ChangedAt (before : Heap) (touched : Nat → Prop) (after : Heap) : Prop where
  size_eq : after.size = before.size
  counts : after = { before with objects := after.objects }
  kept : ∀ address, ¬ touched address → after.objects[address]? = before.objects[address]?

theorem ChangedAt.refl (heap : Heap) (touched : Nat → Prop) : heap.ChangedAt touched heap :=
  ⟨rfl, rfl, fun _ _ ↦ rfl⟩

theorem ChangedAt.trans (hfirst : before.ChangedAt touched middle)
    (hsecond : middle.ChangedAt touched after) : before.ChangedAt touched after where
  size_eq := hsecond.size_eq.trans hfirst.size_eq
  counts := by rw [hsecond.counts, hfirst.counts]
  kept address houtside :=
    (hsecond.kept address houtside).trans (hfirst.kept address houtside)

theorem ChangedAt.mono (hchanged : before.ChangedAt touched after)
    (hmore : ∀ address, touched address → more address) : before.ChangedAt more after :=
  { hchanged with
    kept := fun address houtside ↦ hchanged.kept address fun htouched ↦
      houtside (hmore address htouched) }

/-- A cons is neither a vector nor a string. -/
theorem vector?_string?_of_cons? (hcons : heap.cons? list = some (item, cdr)) :
    heap.vector? list = none ∧ heap.string? list = none := by
  unfold vector? string?
  rw [cons?_eq_some.mp hcons]
  exact ⟨rfl, rfl⟩

theorem cons?_congr (hsame : after.objects[address]? = before.objects[address]?) :
    after.cons? (.object address) = before.cons? (.object address) := by
  unfold cons? get?
  dsimp only
  rw [hsame]

theorem isCons_object (hcell : heap.objects[address]? = some (.cons item cdr)) :
    heap.isCons (.object address) = true := by
  rw [isCons, cons?_object.mpr hcell, Option.isSome_some]

theorem cdrSafe_object (hcell : heap.objects[address]? = some (.cons item cdr)) :
    heap.cdrSafe (.object address) = cdr := by
  rw [cdrSafe, cons?_object.mpr hcell, Option.map_some, Option.getD_some]

theorem Path.isCons (hpath : heap.Path list cells tail) (hcells : cells ≠ []) :
    heap.isCons list = true := by
  cases hpath with
  | here => exact absurd rfl hcells
  | cons hcell => exact isCons_object hcell

theorem setCdr_eq_set (hcell : heap.objects[address]? = some (.cons item cdr)) (value : Value) :
    heap.setCdr (.object address) value = heap.set (.object address) (.cons item value) := by
  unfold setCdr
  rw [cons?_object.mpr hcell]

theorem getElem?_setCdr (hcell : heap.objects[address]? = some (.cons item cdr)) (value : Value)
    (other : Nat) :
    (heap.setCdr (.object address) value).objects[other]? =
      if other = address then some (.cons item value) else heap.objects[other]? := by
  have hsize : address < heap.objects.size := (Array.getElem?_eq_some_iff.mp hcell).1
  rw [setCdr_eq_set hcell]
  unfold set
  dsimp only
  rw [Array.getElem?_setIfInBounds]
  by_cases heq : address = other
  · rw [if_pos heq, if_pos (heq ▸ hsize), if_pos heq.symm]
  · rw [if_neg heq, if_neg (Ne.symm heq)]

theorem changedAt_setCdr (hcell : heap.objects[address]? = some (.cons item cdr)) (value : Value) :
    heap.ChangedAt (· = address) (heap.setCdr (.object address) value) where
  size_eq := by
    rw [setCdr_eq_set hcell]
    exact Array.size_setIfInBounds
  counts := by rw [setCdr_eq_set hcell]; rfl
  kept other hother := by rw [getElem?_setCdr hcell, if_neg hother]

end Heap

namespace Storage

variable {store : Store} {address : Nat} {item cdr : Value}

theorem cdr_apply (hcell : store.heap.objects[address]? = some (.cons item cdr)) :
    Storage.cdr (.object address) store = .ok cdr store := by
  have hread : (get : Storage Store) store = .ok store store := rfl
  unfold Storage.cdr
  refine (bind_of_ok hread).trans ?_
  rw [Heap.cons?_object.mpr hcell]
  rfl

theorem setCdr_apply (hcell : store.heap.objects[address]? = some (.cons item cdr))
    (value : Value) :
    Storage.setCdr (.object address) value store =
      .ok value { store with heap := store.heap.setCdr (.object address) value } := by
  change (if store.heap.isCons (.object address) = true then _ else _ : Storage Value) store = _
  rw [if_pos (Heap.isCons_object hcell)]
  rfl

/-! ### Reversing a list -/

/-- The conses that are left are turned one after the other, and lead to what is turned already. -/
theorem reverseOnto_of_path {list tail : Value} {cells : List Heap.Cell} (turned : Value)
    (hpath : store.heap.Path list cells tail) (hnodup : (cells.map Heap.Cell.address).Nodup) :
    ∃ result heap,
      reverseOnto turned cells.length list store = .ok result { store with heap := heap } ∧
      heap.Path result cells.reverse turned ∧
      store.heap.ChangedAt (· ∈ cells.map Heap.Cell.address) heap := by
  induction cells generalizing list turned store with
  | nil => exact ⟨turned, store.heap, rfl, .here, .refl _ _⟩
  | cons cell cells ih =>
    obtain ⟨hfirst, hrest⟩ := List.nodup_cons.mp hnodup
    cases hpath with
    | @cons address item cdr _ _ hcell hpath =>
      let first : Store := { store with heap := store.heap.setCdr (.object address) turned }
      have hset := Heap.changedAt_setCdr hcell turned
      have hlater : first.heap.Path cdr cells tail := hpath.transport fun other hmem ↦
        hset.kept other.address fun hsame ↦ hfirst (List.mem_map.mpr ⟨other, hmem, hsame⟩)
      obtain ⟨result, heap, hrun, hresult, hchanged⟩ := ih (.object address) hlater hrest
      have hturned : heap.objects[address]? = some (.cons item turned) := by
        rw [hchanged.kept address hfirst, Heap.getElem?_setCdr hcell, if_pos rfl]
      refine ⟨result, heap, ?_, ?_, ?_⟩
      · exact (bind_of_ok (cdr_apply hcell)).trans
          ((bind_of_ok (setCdr_apply hcell turned)).trans hrun)
      · rw [List.reverse_cons]
        exact hresult.trans (.cons hturned .here)
      · refine (hset.mono fun _ hsame ↦ ?_).trans (hchanged.mono fun _ hmem ↦ ?_)
        · exact List.mem_cons.mpr (.inl hsame)
        · exact List.mem_cons_of_mem _ hmem

/-- What is no vector and no string is reversed as a list, once its length is known. -/
theorem nreverse_apply {sequence : Value} (hvector : store.heap.vector? sequence = none)
    (hstring : store.heap.string? sequence = none) :
    nreverse sequence store =
      (listLength sequence >>= fun count ↦ reverseOnto .nil count sequence) store := by
  have hread : object? sequence store = .ok (store.heap.get? sequence) store := rfl
  unfold nreverse
  refine (bind_of_ok hread).trans ?_
  unfold Heap.vector? at hvector
  unfold Heap.string? at hstring
  cases hobject : store.heap.get? sequence with
  | none => rfl
  | some object =>
    rw [hobject] at hvector hstring
    cases object with
    | vector => cases hvector
    | string => cases hstring
    | _ => rfl

/-- Where the length of a list is refused, so is its reversal, with the same error. -/
theorem nreverse_raises {sequence symbol : Value} {data : List Value}
    (hvector : store.heap.vector? sequence = none) (hstring : store.heap.string? sequence = none)
    (hraises : store.Raises (listLength sequence) symbol data) :
    store.Raises (nreverse sequence) symbol data := by
  obtain ⟨list, heap, hstops, hkept⟩ := hraises
  exact ⟨list, heap, (nreverse_apply hvector hstring).trans (bind_of_error hstops), hkept⟩

end Storage

/-- A list that ends in nil is reversed in place: the same conses, with the same items, make up the
reversed list, nothing is allocated, and no other object changes. For a list that ends in something
else, or that does not end, there is an error before anything has changed. -/
theorem nreverse_in_place (store : Store) (list : Value) :
    (∀ cells, store.heap.Path list cells .nil →
      ∃ result heap, nreverse list store = .ok result { store with heap := heap } ∧
        heap.Path result cells.reverse .nil ∧
        store.heap.ChangedAt (· ∈ cells.map Heap.Cell.address) heap) ∧
    (store.heap.HasEnd list .improper → store.heap.vector? list = none →
      store.heap.string? list = none →
      store.Raises (nreverse list) Symbols.wrongTypeArgument [Symbols.listp, list]) ∧
    (store.heap.HasEnd list .endless →
      store.Raises (nreverse list) Symbols.circularList [list]) := by
  refine ⟨fun cells hpath ↦ ?_, fun hends hvector hstring ↦ ?_, fun hends ↦ ?_⟩
  · have hlist : store.heap.vector? list = none ∧ store.heap.string? list = none := by
      cases hpath with
      | here => exact ⟨rfl, rfl⟩
      | cons hcell => exact Heap.vector?_string?_of_cons? (Heap.cons?_object.mpr hcell)
    obtain ⟨result, heap, hrun, hresult⟩ :=
      reverseOnto_of_path .nil hpath (Heap.Spine.nodup ⟨hpath, rfl⟩)
    refine ⟨result, heap, ?_, hresult⟩
    rw [nreverse_apply hlist.1 hlist.2, bind_of_ok (listLength_of_path hpath), hrun]
  · exact nreverse_raises hvector hstring (listLength_of_not_proper hends nofun)
  · obtain ⟨_, _, _, _, hpath, hlength, hcons⟩ := hends.exists_cons_after 0
    obtain rfl := List.length_eq_zero_iff.mp hlength
    cases hpath with
    | here =>
      obtain ⟨hvector, hstring⟩ := Heap.vector?_string?_of_cons? hcons
      exact nreverse_raises hvector hstring (listLength_of_not_proper hends nofun)

/-- Three conses are turned around, one of which another list leads to. A dotted pair and a circle
are refused. -/
theorem nreverse_in_place_three :
    let heap : Heap := { objects := #[.cons (.fixnum 1) (.object 1), .cons (.fixnum 2) (.object 2),
      .cons (.fixnum 3) .nil, .cons (.fixnum 4) (.object 1), .cons (.fixnum 5) (.fixnum 6),
      .cons (.fixnum 7) (.object 5)], threshold := 1 }
    let store : Store := { heap := heap }
    (∃ result after, nreverse (.object 0) store = .ok result { store with heap := after } ∧
      after.Path result [⟨2, .fixnum 3⟩, ⟨1, .fixnum 2⟩, ⟨0, .fixnum 1⟩] .nil ∧
      heap.ChangedAt (· ∈ [0, 1, 2]) after) ∧
    store.Raises (nreverse (.object 4)) Symbols.wrongTypeArgument [Symbols.listp, .object 4] ∧
    store.Raises (nreverse (.object 5)) Symbols.circularList [.object 5] := by
  intro heap store
  have hpath : heap.Path (.object 0) [⟨0, .fixnum 1⟩, ⟨1, .fixnum 2⟩, ⟨2, .fixnum 3⟩] .nil :=
    .cons rfl (.cons rfl (.cons rfl .here))
  exact ⟨(nreverse_in_place store (.object 0)).1 _ hpath,
    (nreverse_in_place store (.object 4)).2.1 (Heap.chain_eq_iff_hasEnd.mp rfl) rfl rfl,
    (nreverse_in_place store (.object 5)).2.2 (Heap.chain_eq_iff_hasEnd.mp rfl)⟩

namespace Heap

/-! ### Lists that lead one to the next -/

/-- There is a cons of the list at the address. -/
def OnList (heap : Heap) (list : Value) (address : Nat) : Prop :=
  ∃ cells tail, heap.Path list cells tail ∧ ∃ cell ∈ cells, cell.address = address

/-- The two lists have no cons in common. -/
def Apart (heap : Heap) (list other : Value) : Prop :=
  ∀ address, heap.OnList list address → ¬ heap.OnList other address

/-- The last cons of a list that comes to an end. -/
def LastCell (heap : Heap) (list : Value) (cell : Cell) : Prop :=
  ∃ front tail, heap.Spine list (front ++ [cell]) tail

/-- Lists that can be chained: all but the last of them are nil or come to an end, and no two of
them have a cons in common. -/
structure Chainable (heap : Heap) (lists : List Value) : Prop where
  ends : ∀ list ∈ lists.dropLast, list ≠ .nil → ∃ cell, heap.LastCell list cell
  apart : lists.Pairwise heap.Apart

/-- The last cons of a list that is followed by another one is at the address. -/
def LinkAt (heap : Heap) (lists : List Value) (address : Nat) : Prop :=
  ∃ list next cell, [list, next] <:+: lists ∧ heap.LastCell list cell ∧ cell.address = address

/-- Lists are chained: the last cons of each of them keeps its item and leads to the next list, and
nothing else is changed. -/
structure Chained (before : Heap) (lists : List Value) (after : Heap) : Prop where
  changed : before.ChangedAt (before.LinkAt lists) after
  leads : ∀ {list next : Value} {cell : Cell}, [list, next] <:+: lists →
    before.LastCell list cell → after.objects[cell.address]? = some (.cons cell.item next)

variable {heap before after : Heap} {address other : Nat} {item cdr value list next tail : Value}
  {cell : Cell} {cells : List Cell} {lists : List Value}

theorem Path.onList (hpath : heap.Path list cells tail) (hmem : cell ∈ cells) :
    heap.OnList list cell.address :=
  ⟨cells, tail, hpath, cell, hmem, rfl⟩

theorem OnList.of_cdr (hcell : heap.objects[address]? = some (.cons item cdr))
    (hon : heap.OnList cdr other) : heap.OnList (.object address) other := by
  obtain ⟨cells, tail, hpath, cell, hmem, rfl⟩ := hon
  exact Path.onList (.cons hcell hpath) (List.mem_cons_of_mem _ hmem)

/-- The conses of a list are among any that cannot be left by following the list. -/
theorem OnList.mem_of_closed {addresses : List Nat} (hon : heap.OnList list address)
    (hstart : ∀ first, list = .object first → first ∈ addresses)
    (hclosed : ∀ first ∈ addresses, ∀ item next,
      heap.objects[first]? = some (.cons item (.object next)) → next ∈ addresses) :
    address ∈ addresses := by
  obtain ⟨cells, tail, hpath, cell, hmem, rfl⟩ := hon
  induction hpath with
  | here => cases hmem
  | @cons first item cdr _ _ hcell _ ih =>
    have hfirst := hstart first rfl
    rcases List.mem_cons.mp hmem with rfl | hlater
    · exact hfirst
    · exact ih (fun next hcdr ↦ hclosed first hfirst item next (hcdr ▸ hcell)) hlater

theorem LastCell.onList (hlast : heap.LastCell list cell) : heap.OnList list cell.address := by
  obtain ⟨front, tail, hspine⟩ := hlast
  exact hspine.path.onList List.mem_concat_self

theorem LastCell.unique {second : Cell} (hfirst : heap.LastCell list cell)
    (hsecond : heap.LastCell list second) : cell = second := by
  obtain ⟨_, _, hspine⟩ := hfirst
  obtain ⟨_, _, hspine'⟩ := hsecond
  exact List.singleton_inj.mp (List.append_inj_right' (hspine.unique hspine').1 rfl)

/-- A cons with nothing behind it is its own last cons. -/
theorem lastCell_self (hcell : heap.objects[address]? = some (.cons item cdr))
    (hends : heap.cons? cdr = none) : heap.LastCell (.object address) ⟨address, item⟩ :=
  ⟨[], cdr, .cons hcell .here, hends⟩

theorem LastCell.exists_cons (hlast : heap.LastCell list cell) :
    ∃ cdr, heap.objects[cell.address]? = some (.cons cell.item cdr) ∧ heap.cons? cdr = none := by
  obtain ⟨front, tail, hspine⟩ := hlast
  exact ⟨tail, hspine.path.of_concat.2, hspine.ends⟩

theorem Chainable.sublist {fewer : List Value} (hlists : heap.Chainable lists)
    (hfewer : fewer.Sublist lists) : heap.Chainable fewer where
  ends list hmem :=
    have hinit : fewer.dropLast.Sublist lists.dropLast := by
      simpa only [List.tail_reverse, List.reverse_sublist] using hfewer.reverse.tail
    hlists.ends list (hinit.subset hmem)
  apart := hlists.apart.sublist hfewer

/-! ### What a changed second part leaves alone -/

section Elsewhere

variable (hcell : heap.objects[address]? = some (.cons item cdr))
include hcell

theorem cons?_setCdr_eq_none_iff :
    (heap.setCdr (.object address) value).cons? tail = none ↔ heap.cons? tail = none := by
  cases tail with
  | fixnum | symbol => exact Iff.rfl
  | object other =>
    have hafter := getElem?_setCdr hcell value other
    split_ifs at hafter with hsame
    · rw [cons?_object.mpr hafter, hsame, cons?_object.mpr hcell]
      exact iff_of_false nofun nofun
    · rw [cons?_congr hafter]

variable (hout : ¬ heap.OnList list address)
include hout

theorem path_setCdr_iff :
    (heap.setCdr (.object address) value).Path list cells tail ↔ heap.Path list cells tail := by
  refine ⟨fun hpath ↦ ?_, fun hpath ↦ hpath.transport fun cell hmem ↦ ?_⟩
  · induction hpath with
    | here => exact .here
    | @cons other first rest tail cells hfirst _ ih =>
      have hother : other ≠ address := by
        rintro rfl
        exact hout (Path.onList (.cons hcell .here) List.mem_cons_self)
      rw [getElem?_setCdr hcell, if_neg hother] at hfirst
      exact .cons hfirst (ih fun hon ↦ hout (hon.of_cdr hfirst))
  · rw [getElem?_setCdr hcell, if_neg]
    rintro rfl
    exact hout (hpath.onList hmem)

theorem onList_setCdr_iff :
    (heap.setCdr (.object address) value).OnList list other ↔ heap.OnList list other :=
  exists_congr fun _ ↦ exists_congr fun _ ↦ and_congr_left' (path_setCdr_iff hcell hout)

theorem lastCell_setCdr_iff :
    (heap.setCdr (.object address) value).LastCell list cell ↔ heap.LastCell list cell := by
  refine exists_congr fun _ ↦ exists_congr fun _ ↦ ⟨fun hspine ↦ ?_, fun hspine ↦ ?_⟩
  · exact ⟨(path_setCdr_iff hcell hout).mp hspine.path,
      (cons?_setCdr_eq_none_iff hcell).mp hspine.ends⟩
  · exact ⟨(path_setCdr_iff hcell hout).mpr hspine.path,
      (cons?_setCdr_eq_none_iff hcell).mpr hspine.ends⟩

omit hout in
theorem Chainable.setCdr (hlists : heap.Chainable lists)
    (hout : ∀ list ∈ lists, ¬ heap.OnList list address) :
    (heap.setCdr (.object address) value).Chainable lists := by
  constructor
  · intro list hmem hne
    obtain ⟨cell, hlast⟩ := hlists.ends list hmem hne
    have houtside := hout list (List.mem_of_mem_dropLast hmem)
    exact ⟨cell, (lastCell_setCdr_iff hcell houtside).mpr hlast⟩
  · refine hlists.apart.imp_of_mem fun hfirst hsecond hapart other hon hon' ↦ ?_
    rw [onList_setCdr_iff hcell (hout _ hfirst)] at hon
    rw [onList_setCdr_iff hcell (hout _ hsecond)] at hon'
    exact hapart other hon hon'

end Elsewhere

/-! ### Chaining -/

theorem adjacent_cons_iff :
    [list, next] <:+: value :: lists ↔
      list = value ∧ [next] <+: lists ∨ [list, next] <:+: lists := by
  rw [List.infix_cons_iff, List.cons_prefix_cons]

theorem chained_self (heap : Heap) (hlists : lists.length ≤ 1) : heap.Chained lists heap where
  changed := .refl heap _
  leads hadjacent := absurd (hadjacent.length_le.trans hlists) (Nat.not_succ_le_self 1)

/-- It is the same to chain something to a list or to its last cons. -/
theorem Chained.of_last (hchained : before.Chained (.object cell.address :: lists) after)
    (hlast : before.LastCell list cell) : before.Chained (list :: lists) after := by
  obtain ⟨cdr, hcell, hends⟩ := hlast.exists_cons
  have hself := lastCell_self hcell hends
  constructor
  · refine hchained.changed.mono fun address hlink ↦ ?_
    obtain ⟨first, next, other, hadjacent, hother, rfl⟩ := hlink
    rcases adjacent_cons_iff.mp hadjacent with ⟨rfl, hfollows⟩ | hlater
    · obtain rfl := hother.unique hself
      exact ⟨list, next, cell, adjacent_cons_iff.mpr (.inl ⟨rfl, hfollows⟩), hlast, rfl⟩
    · exact ⟨first, next, other, adjacent_cons_iff.mpr (.inr hlater), hother, rfl⟩
  · intro first next other hadjacent hother
    rcases adjacent_cons_iff.mp hadjacent with ⟨rfl, hfollows⟩ | hlater
    · obtain rfl := hother.unique hlast
      exact hchained.leads (adjacent_cons_iff.mpr (.inl ⟨rfl, hfollows⟩)) hself
    · exact hchained.leads (adjacent_cons_iff.mpr (.inr hlater)) hother

/-- A cons with nothing behind it is led to the first of lists that are chained then. -/
theorem Chained.cons (hcell : heap.objects[address]? = some (.cons item cdr))
    (hends : heap.cons? cdr = none)
    (hchained : (heap.setCdr (.object address) next).Chained (next :: lists) after)
    (hout : ∀ list ∈ next :: lists, ¬ heap.OnList list address) :
    heap.Chained (.object address :: next :: lists) after := by
  have hself := lastCell_self hcell hends
  constructor
  · refine .trans ((changedAt_setCdr hcell next).mono ?_) (hchained.changed.mono ?_)
    · rintro _ rfl
      exact ⟨_, next, _, (List.prefix_append [_, next] lists).isInfix, hself, rfl⟩
    · rintro _ ⟨list, other, cell, hadjacent, hlast, rfl⟩
      rw [lastCell_setCdr_iff hcell (hout list (hadjacent.subset List.mem_cons_self))] at hlast
      exact ⟨list, other, cell, adjacent_cons_iff.mpr (.inr hadjacent), hlast, rfl⟩
  · intro list other cell hadjacent hlast
    rcases adjacent_cons_iff.mp hadjacent with ⟨rfl, hfollows⟩ | hlater
    · obtain ⟨rfl, -⟩ := List.cons_prefix_cons.mp hfollows
      obtain rfl := hlast.unique hself
      rw [hchained.changed.kept, getElem?_setCdr hcell, if_pos rfl]
      -- none of the links made later is at this cons, which is on none of the lists
      rintro ⟨list, _, cell, hlinked, hlast, rfl⟩
      have houtside := hout list (hlinked.subset List.mem_cons_self)
      exact houtside ((lastCell_setCdr_iff hcell houtside).mp hlast).onList
    · have houtside := hout list (hlater.subset List.mem_cons_self)
      exact hchained.leads hlater ((lastCell_setCdr_iff hcell houtside).mpr hlast)

/-! ### Following chained lists -/

/-- At a cons of one of the lists something is changed only if it is the last. -/
theorem not_linkAt (hapart : lists.Pairwise heap.Apart) (hmem : list ∈ lists)
    (hon : heap.OnList list address)
    (hinner : ∀ cell, heap.LastCell list cell → cell.address ≠ address) :
    ¬ heap.LinkAt lists address := by
  rintro ⟨other, next, cell, hadjacent, hlast, rfl⟩
  by_cases hsame : other = list
  · exact hinner cell (hsame ▸ hlast) rfl
  · have hsymm : Std.Symm heap.Apart := ⟨fun _ _ hapart address hon hon' ↦ hapart address hon' hon⟩
    exact hapart.forall (hadjacent.subset List.mem_cons_self) hmem hsame _ hlast.onList hon

/-- Nothing is changed on the last of the lists. -/
theorem not_linkAt_last (hapart : (lists ++ [list]).Pairwise heap.Apart)
    (hon : heap.OnList list address) : ¬ heap.LinkAt (lists ++ [list]) address := by
  rintro ⟨other, next, cell, hadjacent, hlast, rfl⟩
  have hback : [next, other] <:+: list :: lists.reverse := by
    simpa using List.reverse_infix.mpr hadjacent
  have hmem : other ∈ lists := by
    rw [← List.mem_reverse]
    rcases adjacent_cons_iff.mp hback with ⟨-, hlast⟩ | hearlier
    · exact hlast.subset List.mem_cons_self
    · exact hearlier.subset (List.mem_cons_of_mem _ List.mem_cons_self)
  exact (List.pairwise_append.mp hapart).2.2 other hmem list List.mem_cons_self _ hlast.onList hon

/-- What is no cons is none after lists are chained. -/
theorem Chained.cons?_eq_none (hchained : before.Chained lists after)
    (hends : before.cons? tail = none) : after.cons? tail = none := by
  cases tail with
  | fixnum | symbol => rfl
  | object address =>
    have hkept : after.objects[address]? = before.objects[address]? := by
      refine hchained.changed.kept address ?_
      rintro ⟨_, _, cell, _, hlast, rfl⟩
      obtain ⟨cdr, hcell, -⟩ := hlast.exists_cons
      cases (cons?_object.mpr hcell).symm.trans hends
    exact (cons?_congr hkept).trans hends

/-- Through the conses of the lists, in order, one comes to the last of them. -/
theorem Chained.path {front : List Value} (hchained : before.Chained lists after)
    (hapart : lists.Pairwise before.Apart) (hsuffix : front ++ [list] <:+ lists)
    (hends : ∀ list ∈ front, ∃ cell, before.LastCell list cell) :
    ∃ spines, List.Forall₂ (fun list spine ↦ ∃ tail, before.Spine list spine tail) front spines ∧
      ∀ cells tail, before.Path list cells tail →
        after.Path ((front ++ [list]).headD .nil) (spines.flatten ++ cells) tail := by
  induction front with
  | nil =>
    obtain ⟨earlier, rfl⟩ := hsuffix
    refine ⟨[], .nil, fun cells tail hpath ↦ hpath.transport fun cell hmem ↦ ?_⟩
    exact hchained.changed.kept _ (not_linkAt_last hapart (hpath.onList hmem))
  | cons first front ih =>
    obtain ⟨spines, hspines, hpaths⟩ := ih ((List.suffix_cons _ _).trans hsuffix)
      fun other hmem ↦ hends other (List.mem_cons_of_mem _ hmem)
    obtain ⟨cell, hlast⟩ := hends first List.mem_cons_self
    obtain ⟨inner, stop, hspine⟩ := id hlast
    obtain ⟨next, rest, hnext⟩ : ∃ next rest, front ++ [list] = next :: rest :=
      List.exists_cons_of_ne_nil (by simp)
    rw [List.cons_append, hnext] at hsuffix
    have hadjacent : [first, next] <:+: lists :=
      (List.prefix_append [first, next] rest).isInfix.trans hsuffix.isInfix
    have hinner : after.Path first inner (.object cell.address) := by
      refine hspine.path.of_concat.1.transport fun other hmem ↦ hchained.changed.kept _ ?_
      refine not_linkAt hapart (hadjacent.subset List.mem_cons_self)
        (hspine.path.onList (List.mem_append_left _ hmem)) fun third hthird hsame ↦ ?_
      obtain rfl := hthird.unique hlast
      have hnodup := hspine.nodup
      rw [List.map_append, List.map_singleton, List.nodup_append] at hnodup
      exact hnodup.2.2 _ (List.mem_map_of_mem hmem) _ List.mem_cons_self hsame.symm
    have hfirst : after.Path first (inner ++ [cell]) next :=
      hinner.trans (.cons (hchained.leads hadjacent hlast) .here)
    refine ⟨(inner ++ [cell]) :: spines, .cons ⟨stop, hspine⟩ hspines, fun cells tail hpath ↦ ?_⟩
    have hrest := hpaths cells tail hpath
    rw [hnext] at hrest
    rw [List.flatten_cons, List.append_assoc]
    exact hfirst.trans hrest

end Heap

/-! ### Running along the lists -/

namespace Storage

variable {store : Store} {list result : Value} {lists : List Value} {cell : Heap.Cell}

/-- Go on to the lists that follow a list, from its last cons. -/
def chainBehind (list result : Value) (lists : List Value) : Storage Value := do
  if lists.isEmpty then return result
  let heap := (← get).heap
  if !heap.isCons list then wrongType Symbols.consp list
  match heap.lastConsWithin heap.size list with
  | some cell => chainLists (some cell) result lists
  | none => error Symbols.circularList [list]

/-- Nil is passed over. -/
theorem chainLists_nil_cons (last : Option Value) (result : Value) (lists : List Value) :
    chainLists last result (.nil :: lists) = chainLists last result lists :=
  rfl

theorem chainLists_none (hlist : list ≠ .nil) :
    chainLists none result (list :: lists) store = chainBehind list list lists store := by
  rw [chainLists, if_neg (by simpa [Value.isNil] using hlist)]
  rfl

theorem chainLists_some {last : Value} (hlist : list ≠ .nil) :
    chainLists (some last) result (list :: lists) store =
      (setCdr last list >>= fun _ ↦ chainBehind list result lists) store := by
  rw [chainLists, if_neg (by simpa [Value.isNil] using hlist)]
  rfl

theorem lastConsWithin_of_lastCell {heap : Heap} (hlast : heap.LastCell list cell) :
    heap.lastConsWithin heap.size list = some (.object cell.address) := by
  obtain ⟨front, tail, hspine⟩ := hlast
  have hlength := hspine.length_le_size
  rw [List.length_append, List.length_singleton] at hlength
  obtain ⟨bound, hbound⟩ := Nat.exists_eq_add_of_le' (Nat.le_of_succ_le hlength)
  rw [hbound]
  clear hlength hbound
  obtain ⟨hpath, hends⟩ := hspine
  induction front generalizing list with
  | nil =>
    cases hpath with
    | cons hcell hrest =>
      cases hrest with
      | here =>
        have hstop : ¬ heap.isCons tail = true := by
          rw [Heap.isCons, hends, Option.isSome_none]
          nofun
        unfold Heap.lastConsWithin
        rw [Heap.cdrSafe_object hcell, if_neg hstop]
  | cons first front ih =>
    cases hpath with
    | cons hcell hrest =>
      rw [List.length_cons, ← Nat.add_assoc, Heap.lastConsWithin, Heap.cdrSafe_object hcell,
        if_pos (hrest.isCons (by simp))]
      exact ih hrest

theorem chainBehind_of_lastCell (hlists : lists ≠ []) (hlast : store.heap.LastCell list cell) :
    chainBehind list result lists store =
      chainLists (some (.object cell.address)) result lists store := by
  have hcons : store.heap.isCons list = true := by
    obtain ⟨front, tail, hspine⟩ := hlast
    exact hspine.path.isCons (by simp)
  change (if lists.isEmpty then _ else _ : Storage Value) store = _
  rw [List.isEmpty_eq_false_iff.mpr hlists, if_neg (by decide)]
  change (if !store.heap.isCons list then _ else _ : Storage Value) store = _
  rw [hcons, lastConsWithin_of_lastCell hlast]
  rfl

/-- A list is chained to those that follow it if its last cons is. -/
theorem chainBehind_chained (hlists : store.heap.Chainable (list :: lists)) (hlist : list ≠ .nil)
    (hrest : ∀ cell, store.heap.LastCell list cell → ∃ heap,
      chainLists (some (.object cell.address)) result lists store =
        .ok result { store with heap := heap } ∧
      store.heap.Chained (list :: lists.filter (· ≠ .nil)) heap) :
    ∃ heap, chainBehind list result lists store = .ok result { store with heap := heap } ∧
      store.heap.Chained (list :: lists.filter (· ≠ .nil)) heap := by
  by_cases hnone : lists = []
  · rw [hnone]
    exact ⟨store.heap, rfl, store.heap.chained_self (Nat.le_refl 1)⟩
  · have hmem : list ∈ (list :: lists).dropLast := by
      rw [List.dropLast_cons_of_ne_nil hnone]
      exact List.mem_cons_self
    obtain ⟨cell, hlast⟩ := hlists.ends list hmem hlist
    obtain ⟨heap, hrun, hchained⟩ := hrest cell hlast
    exact ⟨heap, (chainBehind_of_lastCell hnone hlast).trans hrun, hchained⟩

/-- From the last cons of a list, the lists that follow are chained to it. -/
theorem chainLists_chained (hlists : store.heap.Chainable (list :: lists))
    (hlast : store.heap.LastCell list cell) :
    ∃ heap, chainLists (some (.object cell.address)) result lists store =
        .ok result { store with heap := heap } ∧
      store.heap.Chained (list :: lists.filter (· ≠ .nil)) heap := by
  induction lists generalizing store list cell with
  | nil => exact ⟨store.heap, rfl, store.heap.chained_self (Nat.le_refl 1)⟩
  | cons next lists ih =>
    by_cases hnext : next = .nil
    · subst hnext
      rw [chainLists_nil_cons]
      exact ih (hlists.sublist (.cons_cons list (List.sublist_cons_self _ _))) hlast
    · obtain ⟨cdr, hcell, hends⟩ := hlast.exists_cons
      have hout : ∀ other ∈ next :: lists, ¬ store.heap.OnList other cell.address :=
        fun other hmem ↦ List.rel_of_pairwise_cons hlists.apart hmem _ hlast.onList
      let linked : Store := { store with heap := store.heap.setCdr (.object cell.address) next }
      have hlater : linked.heap.Chainable (next :: lists) :=
        (hlists.sublist (List.sublist_cons_self _ _)).setCdr hcell hout
      obtain ⟨heap, hrun, hchained⟩ :=
        chainBehind_chained hlater hnext fun _ hlast ↦ ih hlater hlast
      rw [List.filter_cons_of_pos (by simpa using hnext)]
      refine ⟨heap, ?_, .of_last (.cons hcell hends hchained fun other hmem ↦ ?_) hlast⟩
      · rw [chainLists_some hnext, bind_of_ok (setCdr_apply hcell next), hrun]
      · exact hout other ((List.filter_sublist.cons_cons next).subset hmem)

theorem nconc_chained (hlists : store.heap.Chainable lists) :
    ∃ heap, nconc lists store =
        .ok ((lists.filter (· ≠ .nil)).headD .nil) { store with heap := heap } ∧
      store.heap.Chained (lists.filter (· ≠ .nil)) heap := by
  induction lists with
  | nil => exact ⟨store.heap, rfl, store.heap.chained_self (Nat.zero_le 1)⟩
  | cons list lists ih =>
    by_cases hlist : list = .nil
    · subst hlist
      rw [nconc, chainLists_nil_cons]
      exact ih (hlists.sublist (List.sublist_cons_self _ _))
    · obtain ⟨heap, hrun, hchained⟩ :=
        chainBehind_chained hlists hlist fun _ ↦ chainLists_chained hlists
      rw [List.filter_cons_of_pos (by simpa using hlist)]
      exact ⟨heap, (chainLists_none hlist).trans hrun, hchained⟩

end Storage

/-- Lists of which all but the last are nil or come to an end, without a cons in common, are chained
in place: what is given is the first that is not nil, nothing is allocated, and nothing changes but
the second parts of the last conses of those that another list follows which is not nil. Through the
conses of all of them, in order and with the same items, one then comes to where the last one leads
to. -/
theorem nconc_in_place (store : Store) (lists : List Value)
    (hlists : store.heap.Chainable lists) :
    let given := lists.filter (· ≠ .nil)
    let result := given.headD .nil
    ∃ heap, nconc lists store = .ok result { store with heap := heap } ∧
      store.heap.Chained given heap ∧
      ∀ front last, given = front ++ [last] → ∃ spines,
        List.Forall₂ (fun list spine ↦ ∃ tail, store.heap.Spine list spine tail) front spines ∧
        ∀ cells tail,
          (store.heap.Path last cells tail → heap.Path result (spines.flatten ++ cells) tail) ∧
          (store.heap.Spine last cells tail →
            heap.Spine result (spines.flatten ++ cells) tail) := by
  intro given result
  obtain ⟨heap, hrun, hchained⟩ := nconc_chained hlists
  refine ⟨heap, hrun, hchained, fun front last hgiven ↦ ?_⟩
  have hfewer : store.heap.Chainable given := hlists.sublist List.filter_sublist
  have hends : ∀ list ∈ front, ∃ cell, store.heap.LastCell list cell := by
    intro list hmem
    refine hfewer.ends list ?_ ?_
    · rwa [hgiven, List.dropLast_concat]
    · have hlist : list ∈ given := hgiven ▸ List.mem_append_left _ hmem
      simpa using (List.mem_filter.mp hlist).2
  have hsuffix : front ++ [last] <:+ given := hgiven.symm ▸ List.suffix_rfl
  obtain ⟨spines, hspines, hpaths⟩ := hchained.path hfewer.apart hsuffix hends
  rw [← hgiven] at hpaths
  exact ⟨spines, hspines, fun cells tail ↦ ⟨hpaths cells tail,
    fun hspine ↦ ⟨hpaths cells tail hspine.path, hchained.cons?_eq_none hspine.ends⟩⟩⟩

/-- The lists (1 2) and (3 . 4) are chained in front of a circle, around what is nil. -/
theorem nconc_in_place_circle :
    let heap : Heap := { objects := #[.cons (.fixnum 1) (.object 1), .cons (.fixnum 2) .nil,
      .cons (.fixnum 3) (.fixnum 4), .cons (.fixnum 5) (.object 3)], threshold := 1 }
    let store : Store := { heap := heap }
    let lists : List Value := [.nil, .object 0, .nil, .object 2, .object 3]
    heap.Chainable lists ∧
      ∃ after, nconc lists store = .ok (.object 0) { store with heap := after } ∧
        heap.Chained [.object 0, .object 2, .object 3] after ∧
        after.Path (.object 0)
          [⟨0, .fixnum 1⟩, ⟨1, .fixnum 2⟩, ⟨2, .fixnum 3⟩, ⟨3, .fixnum 5⟩] (.object 3) := by
  intro heap store lists
  have hfirst : heap.Spine (.object 0) [⟨0, .fixnum 1⟩, ⟨1, .fixnum 2⟩] .nil :=
    ⟨.cons rfl (.cons rfl .here), rfl⟩
  have hsecond : heap.Spine (.object 2) [⟨2, .fixnum 3⟩] (.fixnum 4) := ⟨.cons rfl .here, rfl⟩
  have hends : ∃ cell, heap.LastCell (.object 0) cell := ⟨_, [_], _, hfirst⟩
  have hends' : ∃ cell, heap.LastCell (.object 2) cell := ⟨_, [], _, hsecond⟩
  have hnil : ∀ address, ¬ heap.OnList .nil address := fun _ hon ↦
    List.not_mem_nil (hon.mem_of_closed nofun nofun)
  have hone : ∀ address, heap.OnList (.object 0) address → address ∈ [0, 1] := fun _ hon ↦
    hon.mem_of_closed (by simp) (by simp [heap, Value.nil])
  have htwo : ∀ address, heap.OnList (.object 2) address → address ∈ [2] := fun _ hon ↦
    hon.mem_of_closed (by simp) (by simp [heap])
  have hthree : ∀ address, heap.OnList (.object 3) address → address ∈ [3] := fun _ hon ↦
    hon.mem_of_closed (by simp) (by simp [heap])
  have hapart : heap.Apart (.object 0) (.object 2) ∧ heap.Apart (.object 0) (.object 3) ∧
      heap.Apart (.object 2) (.object 3) :=
    ⟨fun _ hon hon' ↦ (by simp : [0, 1].Disjoint [2]) (hone _ hon) (htwo _ hon'),
      fun _ hon hon' ↦ (by simp : [0, 1].Disjoint [3]) (hone _ hon) (hthree _ hon'),
      fun _ hon hon' ↦ (by simp : [2].Disjoint [3]) (htwo _ hon) (hthree _ hon')⟩
  have hchainable : heap.Chainable lists := by
    constructor
    · simp [lists, hends, hends']
    · simpa [lists, Heap.Apart, hnil, and_assoc] using hapart
  obtain ⟨after, hrun, hchained, hpaths⟩ := nconc_in_place store lists hchainable
  obtain ⟨spines, hspines, hpaths⟩ := hpaths [.object 0, .object 2] (.object 3) rfl
  refine ⟨hchainable, after, hrun, hchained, ?_⟩
  obtain _ | ⟨⟨_, hspine⟩, _ | ⟨⟨_, hspine'⟩, _ | _⟩⟩ := hspines
  obtain ⟨rfl, -⟩ := hspine.unique hfirst
  obtain ⟨rfl, -⟩ := hspine'.unique hsecond
  exact (hpaths [⟨3, .fixnum 5⟩] (.object 3)).1 (.cons rfl .here)

end LispMachine
