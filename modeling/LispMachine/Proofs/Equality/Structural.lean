import LispMachine.Proofs.Equality.Unfolding
import LispMachine.Proofs.Store.Lists
import Mathlib.Data.List.Forall2
import Mathlib.Logic.Relation

/-!
How far `equal` is structural. Two values are `equal` exactly if they unfold into the same tree and
what lies `maxEqualDepth + 1` levels below them is `eql`. Every cons of a list is one level below
the cons before it, so the limit is also one on the length of lists: the items of two lists are
compared with fewer and fewer levels, and with none left only common tails are `equal`
(`equalWithin_lists_iff`). The main statement is `equal_iff_unfolding`; that the trees alone do not
decide is `equal_cuts_long_lists`, about two lists whose items are all nil.
-/

set_option autoImplicit false

namespace LispMachine

namespace Heap

variable {heap : Heap} {listA listB : Value} {cellsA cellsB : List Cell} {levels : Nat}

/-! ### Structures without circles -/

/-- One value is a part of another. -/
def HasPart (heap : Heap) (whole part : Value) : Prop :=
  ∃ selector, heap.part? whole selector = some part

/-- No part of the value, at whatever depth, is among its own parts. -/
def Acyclic (heap : Heap) (value : Value) : Prop :=
  ∀ part, Relation.ReflTransGen heap.HasPart value part → ¬ Relation.TransGen heap.HasPart part part

theorem acyclic_of_acc {value : Value} (hacc : Acc (Function.swap heap.HasPart) value) :
    heap.Acyclic value := by
  intro part hreach
  have hpart : Acc (Function.swap heap.HasPart) part := by
    induction hreach with
    | refl => exact hacc
    | tail _ hpart ih => exact ih.inv hpart
  rw [← Relation.transGen_swap]
  -- a part among its own parts would start a descent without end
  have hdescent := hpart.transGen
  clear hreach hpart
  induction hdescent with
  | intro part _ ih => exact fun hround ↦ ih part hround hround

/-- The empty list has no parts. -/
theorem acc_nil (heap : Heap) : Acc (Function.swap heap.HasPart) .nil := by
  refine ⟨_, fun part hpart ↦ ?_⟩
  obtain ⟨selector, hselector⟩ := hpart
  cases selector <;> cases hselector

theorem acc_of_list (hlist : heap.Path listA cellsA .nil)
    (hitems : ∀ cell ∈ cellsA, Acc (Function.swap heap.HasPart) cell.item) :
    Acc (Function.swap heap.HasPart) listA := by
  induction cellsA generalizing listA with
  | nil =>
    cases hlist
    exact heap.acc_nil
  | cons cell cells ih =>
    obtain ⟨hitem, hlater⟩ := List.forall_mem_cons.mp hitems
    cases hlist with
    | @cons address item cdr _ _ hcell hrest =>
      have hcons : heap.get? (.object address) = some (.cons item cdr) := hcell
      refine ⟨_, fun part hpart ↦ ?_⟩
      obtain ⟨selector, hselector⟩ := hpart
      rcases (part?_of_cons hcons).mp hselector with ⟨-, rfl⟩ | ⟨-, rfl⟩
      · exact hitem
      · exact ih hrest hlater

/-! ### Lists -/

section Conses

variable {addressA addressB : Nat} {carA cdrA carB cdrB : Value}
  (hcellA : heap.objects[addressA]? = some (.cons carA cdrA))
  (hcellB : heap.objects[addressB]? = some (.cons carB cdrB))

include hcellA

/-- Conses are `eql` only to themselves. -/
theorem eql_conses_iff :
    heap.eql (.object addressA) (.object addressB) = true ↔ addressA = addressB := by
  rw [eql_iff, Value.object.injEq]
  refine or_iff_left ?_
  rintro ⟨x, -, hx, -⟩
  cases hcellA.symm.trans hx

include hcellB

theorem unfolding_conses_iff :
    heap.unfolding (.object addressA) = heap.unfolding (.object addressB) ↔
      heap.unfolding carA = heap.unfolding carB ∧ heap.unfolding cdrA = heap.unfolding cdrB := by
  have hA : heap.get? (.object addressA) = some (.cons carA cdrA) := hcellA
  have hB : heap.get? (.object addressB) = some (.cons carB cdrB) := hcellB
  rw [unfolding_eq_iff, partwise_cons hA hB, node_of_cons hA, node_of_cons hB]
  exact and_iff_right rfl

theorem equalWithin_conses_iff :
    heap.equalWithin (levels + 1) (.object addressA) (.object addressB) = true ↔
      heap.equalWithin levels carA carB = true ∧ heap.equalWithin levels cdrA cdrB = true := by
  have hA : heap.get? (.object addressA) = some (.cons carA cdrA) := hcellA
  have hB : heap.get? (.object addressB) = some (.cons carB cdrB) := hcellB
  rw [equalWithin_succ_iff, partwise_cons hA hB, node_of_cons hA, node_of_cons hB]
  exact and_iff_right rfl

end Conses

/-- Two lists whose items unfold into the same trees do so themselves. -/
theorem unfolding_eq_of_lists (hA : heap.Path listA cellsA .nil) (hB : heap.Path listB cellsB .nil)
    (hitems : List.Forall₂ (fun cellA cellB : Cell ↦
      heap.unfolding cellA.item = heap.unfolding cellB.item) cellsA cellsB) :
    heap.unfolding listA = heap.unfolding listB := by
  induction hitems generalizing listA listB with
  | nil =>
    cases hA
    cases hB
    rfl
  | cons hitem _ ih =>
    cases hA with
    | cons hcellA hrestA =>
      cases hB with
      | cons hcellB hrestB =>
        exact (unfolding_conses_iff hcellA hcellB).mpr ⟨hitem, ih hrestA hrestB⟩

/-- How a comparison of some levels goes along two lists of the same length: the items in each place
are compared, unless the lists have the cons there in common, with a level less for each cons before
them, and there has to be one left. -/
theorem equalWithin_lists_iff (hA : heap.Path listA cellsA .nil) (hB : heap.Path listB cellsB .nil)
    (hlength : cellsA.length = cellsB.length) :
    heap.equalWithin levels listA listB = true ↔
      ∀ (place : Nat) (cellA cellB : Cell),
        cellsA[place]? = some cellA → cellsB[place]? = some cellB →
        cellA.address ≠ cellB.address →
        place < levels ∧ heap.equalWithin (levels - (place + 1)) cellA.item cellB.item = true := by
  induction cellsA generalizing listA listB cellsB levels with
  | nil =>
    obtain rfl := List.eq_nil_of_length_eq_zero hlength.symm
    cases hA
    cases hB
    exact iff_of_true (heap.equalWithin_self levels _) nofun
  | cons cellA cellsA ih =>
    obtain _ | ⟨cellB, cellsB⟩ := cellsB
    · cases hlength
    cases hA with
    | @cons addressA itemA cdrA _ _ hcellA hrestA =>
    cases hB with
    | @cons addressB itemB cdrB _ _ hcellB hrestB =>
    by_cases haddress : addressA = addressB
    · -- from a common cons on the lists are one list
      subst haddress
      obtain ⟨hsame, -⟩ := Spine.unique ⟨.cons hcellA hrestA, rfl⟩ ⟨.cons hcellB hrestB, rfl⟩
      refine iff_of_true (heap.equalWithin_self levels _) fun place cell other hcell hother hne ↦ ?_
      rw [hsame] at hcell
      cases hcell.symm.trans hother
      exact absurd rfl hne
    · cases levels with
      | zero =>
        refine iff_of_false (fun heql ↦ haddress ((eql_conses_iff hcellA).mp heql)) fun hplaces ↦ ?_
        exact Nat.not_lt_zero _ (hplaces 0 _ _ rfl rfl haddress).1
      | succ levels =>
        rw [equalWithin_conses_iff hcellA hcellB,
          ih hrestA hrestB (Nat.succ.inj hlength)]
        constructor
        · rintro ⟨hitem, hplaces⟩ place cell other hcell hother hne
          cases place with
          | zero =>
            cases hcell
            cases hother
            exact ⟨Nat.succ_pos levels, hitem⟩
          | succ place =>
            obtain ⟨hless, hitems⟩ := hplaces place cell other hcell hother hne
            rw [Nat.succ_sub_succ]
            exact ⟨Nat.succ_lt_succ hless, hitems⟩
        · intro hplaces
          refine ⟨(hplaces 0 _ _ rfl rfl haddress).2, fun place cell other hcell hother hne ↦ ?_⟩
          obtain ⟨hless, hitems⟩ := hplaces (place + 1) cell other hcell hother hne
          rw [Nat.succ_sub_succ] at hitems
          exact ⟨Nat.lt_of_succ_lt_succ hless, hitems⟩

/-! ### Fresh lists -/

theorem ListsFrom.bound_le {bound : Nat} {list : Value} {items : List Value} {cells : List Cell}
    (hlists : heap.ListsFrom bound list items) (hpath : heap.Path list cells .nil) :
    ∀ cell ∈ cells, bound ≤ cell.address := by
  induction hlists generalizing cells with
  | nil =>
    cases hpath
    nofun
  | cons hbound hcell _ ih =>
    cases hpath with
    | cons hcell' hrest =>
      cases hcell.symm.trans hcell'
      exact List.forall_mem_cons.mpr ⟨hbound, ih hrest⟩

/-- Two fresh lists of the same items, as paths that have no cons in common. -/
theorem exists_fresh_paths (heap : Heap) (items : List Value) :
    let first := heap.list items
    let second := first.2.list items
    ∃ cellsA cellsB, second.2.Path first.1 cellsA .nil ∧ second.2.Path second.1 cellsB .nil ∧
      cellsA.map Cell.item = items ∧ cellsB.map Cell.item = items ∧
      ∀ cellA ∈ cellsA, ∀ cellB ∈ cellsB, cellA.address ≠ cellB.address := by
  intro first second
  obtain ⟨-, hlistsA⟩ := heap.list_fresh items
  obtain ⟨hkept, hlistsB⟩ := first.2.list_fresh items
  obtain ⟨cellsA, hpathA, hitemsA⟩ := hlistsA.exists_path
  obtain ⟨cellsB, hpathB, hitemsB⟩ := hlistsB.exists_path
  refine ⟨cellsA, cellsB, hpathA.transport fun cell hmem ↦ ?_, hpathB, hitemsA, hitemsB, ?_⟩
  · obtain ⟨cdr, hobject⟩ := hpathA.object_of_mem hmem
    rw [hobject]
    exact hkept _ _ hobject
  · intro cellA hmemA cellB hmemB
    obtain ⟨cdr, hobject⟩ := hpathA.object_of_mem hmemA
    have hless : cellA.address < first.2.size := (Array.getElem?_eq_some_iff.mp hobject).1
    exact Nat.ne_of_lt (Nat.lt_of_lt_of_le hless (hlistsB.bound_le hpathB cellB hmemB))

/-- Items that are the same are `equal`. -/
theorem forall₂_equal_of_map_eq (heap : Heap)
    (hsame : cellsA.map Cell.item = cellsB.map Cell.item) :
    List.Forall₂ (fun cellA cellB : Cell ↦ heap.equal cellA.item cellB.item = true)
      cellsA cellsB := by
  have hitems : List.Forall₂ (fun cellA cellB : Cell ↦ cellA.item = cellB.item) cellsA cellsB := by
    have hmaps : List.Forall₂ Eq (cellsA.map Cell.item) (cellsB.map Cell.item) := by
      rw [List.forall₂_eq_eq_eq]
      exact hsame
    exact List.forall₂_map_right_iff.mp (List.forall₂_map_left_iff.mp hmaps)
  exact hitems.imp fun cellA cellB hitem ↦ hitem ▸ heap.equalWithin_self _ cellA.item

/-- Fresh lists of the same items are `equal` as long as there is a level for every cons. -/
theorem equal_fresh_lists_iff (heap : Heap) (items : List Value) :
    let first := heap.list items
    let second := first.2.list items
    second.2.equal first.1 second.1 = true ↔ items.length ≤ maxEqualDepth + 1 := by
  intro first second
  obtain ⟨cellsA, cellsB, hA, hB, hitemsA, hitemsB, hdistinct⟩ := heap.exists_fresh_paths items
  have hlengthA : cellsA.length = items.length := by rw [← hitemsA, List.length_map]
  have hlengthB : cellsB.length = items.length := by rw [← hitemsB, List.length_map]
  unfold equal
  rw [equalWithin_lists_iff hA hB (hlengthA.trans hlengthB.symm)]
  constructor
  · intro hplaces
    refine Nat.le_of_not_lt fun hlong ↦ Nat.lt_irrefl (maxEqualDepth + 1) ?_
    have hcellA := List.getElem?_eq_getElem (hlengthA.symm ▸ hlong)
    have hcellB := List.getElem?_eq_getElem (hlengthB.symm ▸ hlong)
    exact (hplaces _ _ _ hcellA hcellB (hdistinct _ (List.mem_of_getElem? hcellA) _
      (List.mem_of_getElem? hcellB))).1
  · intro hshort place cellA cellB hcellA hcellB _
    have hplace := (List.getElem?_eq_some_iff.mp hcellA).1
    refine ⟨by omega, ?_⟩
    have hitem : cellA.item = cellB.item := by
      have hsame : (cellsA.map Cell.item)[place]? = (cellsB.map Cell.item)[place]? := by
        rw [hitemsA, hitemsB]
      rw [List.getElem?_map, List.getElem?_map, hcellA, hcellB] at hsame
      exact Option.some_inj.mp hsame
    rw [hitem]
    exact second.2.equalWithin_self _ _

/-- Fresh lists of nothing but nil are as alike as lists can be. -/
theorem fresh_nils_alike (heap : Heap) (count : Nat) :
    let items := List.replicate count Value.nil
    let first := heap.list items
    let second := first.2.list items
    (∃ cellsA cellsB, second.2.Path first.1 cellsA .nil ∧ second.2.Path second.1 cellsB .nil ∧
      List.Forall₂ (fun cellA cellB : Cell ↦ second.2.equal cellA.item cellB.item = true)
        cellsA cellsB) ∧
      second.2.Acyclic first.1 ∧ second.2.Acyclic second.1 ∧
      second.2.unfolding first.1 = second.2.unfolding second.1 := by
  intro items first second
  obtain ⟨cellsA, cellsB, hA, hB, hitemsA, hitemsB, -⟩ := heap.exists_fresh_paths items
  have hpairs := second.2.forall₂_equal_of_map_eq (hitemsA.trans hitemsB.symm)
  have hacyclic {list : Value} {cells : List Cell} (hlist : second.2.Path list cells .nil)
      (hitems : cells.map Cell.item = items) : second.2.Acyclic list := by
    refine acyclic_of_acc (acc_of_list hlist fun cell hcell ↦ ?_)
    have hnil : cell.item = .nil :=
      List.eq_of_mem_replicate (hitems ▸ List.mem_map_of_mem hcell)
    exact hnil ▸ second.2.acc_nil
  exact ⟨⟨cellsA, cellsB, hA, hB, hpairs⟩, hacyclic hA hitemsA, hacyclic hB hitemsB,
    unfolding_eq_of_lists hA hB (hpairs.imp fun _ _ hequal ↦ (equalWithin_iff.mp hequal).1)⟩

/-- `equal` tells whether two values unfold into the same tree as far down as it goes: they do so,
and what lies `maxEqualDepth + 1` levels below them in the same place is `eql`. Two lists of the
same length with pairwise `equal` items always unfold into the same tree. They are `equal` if,
wherever they do not have the cons in common, a level is left after those for the conses before it,
and the items are `equal` as far as the levels go that are left then. -/
theorem equal_iff_unfolding (heap : Heap) :
    (∀ a b, heap.equal a b = true ↔
      heap.unfolding a = heap.unfolding b ∧
        ∀ position, position.length = maxEqualDepth + 1 → ∀ x y,
          heap.partAt? position a = some x → heap.partAt? position b = some y →
          heap.eql x y = true) ∧
    ∀ listA listB cellsA cellsB, heap.Path listA cellsA .nil → heap.Path listB cellsB .nil →
      List.Forall₂ (fun cellA cellB : Cell ↦ heap.equal cellA.item cellB.item = true)
        cellsA cellsB →
      heap.unfolding listA = heap.unfolding listB ∧
      (heap.equal listA listB = true ↔
        ∀ (place : Nat) (cellA cellB : Cell),
          cellsA[place]? = some cellA → cellsB[place]? = some cellB →
          cellA.address ≠ cellB.address →
          place ≤ maxEqualDepth ∧
          heap.equalWithin (maxEqualDepth - place) cellA.item cellB.item = true) := by
  refine ⟨fun a b ↦ equalWithin_iff, fun listA listB cellsA cellsB hA hB hitems ↦ ⟨?_, ?_⟩⟩
  · exact unfolding_eq_of_lists hA hB (hitems.imp fun _ _ hequal ↦ (equalWithin_iff.mp hequal).1)
  · unfold equal
    rw [equalWithin_lists_iff hA hB hitems.length_eq]
    simp only [Nat.lt_succ_iff, Nat.add_sub_add_right]

/-- Two lists of a string and 1, with strings that are not `eql`. -/
theorem equal_iff_unfolding_strings :
    let heap : Heap := { objects := #[.string "abc", .cons (.fixnum 1) .nil,
      .cons (.object 0) (.object 1), .string "abc", .cons (.fixnum 1) .nil,
      .cons (.object 3) (.object 4)], threshold := 1 }
    let cellsA : List Cell := [⟨2, .object 0⟩, ⟨1, .fixnum 1⟩]
    let cellsB : List Cell := [⟨5, .object 3⟩, ⟨4, .fixnum 1⟩]
    heap.Path (.object 2) cellsA .nil ∧ heap.Path (.object 5) cellsB .nil ∧
      List.Forall₂ (fun cellA cellB : Cell ↦ heap.equal cellA.item cellB.item = true)
        cellsA cellsB ∧
      heap.unfolding (.object 2) = heap.unfolding (.object 5) ∧
      heap.equal (.object 2) (.object 5) = true := by
  intro heap cellsA cellsB
  have hA : heap.Path (.object 2) cellsA .nil := .cons rfl (.cons rfl .here)
  have hB : heap.Path (.object 5) cellsB .nil := .cons rfl (.cons rfl .here)
  have hstrings (levels : Nat) : heap.equalWithin (levels + 1) (.object 0) (.object 3) = true := rfl
  have hitems : List.Forall₂ (fun cellA cellB : Cell ↦ heap.equal cellA.item cellB.item = true)
      cellsA cellsB := .cons (hstrings _) (.cons (heap.equalWithin_self _ _) .nil)
  obtain ⟨hsame, hequal⟩ := (equal_iff_unfolding heap).2 _ _ cellsA cellsB hA hB hitems
  refine ⟨hA, hB, hitems, hsame, hequal.mpr fun place cellA cellB hcellA hcellB _ ↦ ?_⟩
  obtain _ | _ | place := place
  · cases hcellA
    cases hcellB
    exact ⟨Nat.zero_le _, hstrings 9999⟩
  · cases hcellA
    cases hcellB
    exact ⟨by decide, heap.equalWithin_self _ _⟩
  · cases hcellA

/-- Two fresh lists of nothing but nil with one cons more than there are levels. They are of the
same length, have pairwise `equal` items and no circles, and unfold into the same tree, but they are
not `equal`. -/
theorem equal_cuts_long_lists :
    let items := List.replicate (maxEqualDepth + 2) Value.nil
    let first := (Heap.empty 1).list items
    let second := first.2.list items
    (∃ cellsA cellsB, second.2.Path first.1 cellsA .nil ∧ second.2.Path second.1 cellsB .nil ∧
      List.Forall₂ (fun cellA cellB : Cell ↦ second.2.equal cellA.item cellB.item = true)
        cellsA cellsB) ∧
      second.2.Acyclic first.1 ∧ second.2.Acyclic second.1 ∧
      second.2.unfolding first.1 = second.2.unfolding second.1 ∧
      second.2.equal first.1 second.1 = false := by
  have hlong (count : Nat) (hcount : maxEqualDepth + 1 < count) :
      let items := List.replicate count Value.nil
      let first := (Heap.empty 1).list items
      let second := first.2.list items
      second.2.equal first.1 second.1 = false := by
    refine Bool.eq_false_iff.mpr fun hequal ↦ ?_
    have hshort := ((Heap.empty 1).equal_fresh_lists_iff _).mp hequal
    rw [List.length_replicate] at hshort
    omega
  obtain ⟨hpairs, hfirst, hsecond, hsame⟩ := (Heap.empty 1).fresh_nils_alike (maxEqualDepth + 2)
  exact ⟨hpairs, hfirst, hsecond, hsame, hlong _ (Nat.lt_succ_self _)⟩

end Heap

end LispMachine
