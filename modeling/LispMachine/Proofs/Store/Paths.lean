import LispMachine.Proofs.Store.Sound

/-!
Paths along lists. A path leads from a value to one of its tails, cons by cons, and tells of each
cons where it is and which item it holds (`Heap.Path`). The path to the end of a list, if there is
one, is its spine (`Heap.Spine`). A path that does not come through its own end meets no cons twice
(`Path.nodup`), so it is no longer than the heap has objects (`Path.length_le_size`). This is what
makes a count of objects a bound for walks along lists.
-/

set_option autoImplicit false

namespace LispMachine

namespace Heap

/-- A cons on the way along a list: its address and its first part. -/
structure Cell where
  address : Nat
  item : Value
  deriving DecidableEq

/-- The second parts of the conses `cells`, in this order, lead from a value to another. -/
inductive Path (heap : Heap) : Value → List Cell → Value → Prop where
  | here {value : Value} : Path heap value [] value
  | cons {address : Nat} {item cdr tail : Value} {cells : List Cell}
      (hcell : heap.objects[address]? = some (.cons item cdr))
      (hrest : Path heap cdr cells tail) :
      Path heap (.object address) (⟨address, item⟩ :: cells) tail

/-- The conses of a list that comes to an end, and what it ends in. -/
structure Spine (heap : Heap) (list : Value) (cells : List Cell) (tail : Value) : Prop where
  path : heap.Path list cells tail
  ends : heap.cons? tail = none

variable {heap after : Heap} {list middle tail : Value} {cells front back : List Cell}

theorem cons?_object {address : Nat} {item cdr : Value} :
    heap.cons? (.object address) = some (item, cdr) ↔
      heap.objects[address]? = some (.cons item cdr) :=
  cons?_eq_some

namespace Path

theorem of_cons? {item cdr : Value} (hcons : heap.cons? list = some (item, cdr)) :
    ∃ address, list = .object address ∧ heap.Path list [⟨address, item⟩] cdr := by
  cases list with
  | fixnum | symbol => cases hcons
  | object address => exact ⟨address, rfl, .cons (cons?_object.mp hcons) .here⟩

theorem trans (hfront : heap.Path list front middle) (hback : heap.Path middle back tail) :
    heap.Path list (front ++ back) tail := by
  induction hfront with
  | here => exact hback
  | cons hcell _ ih => exact .cons hcell (ih hback)

/-- A path can be left at any cons on it. -/
theorem split (hpath : heap.Path list (front ++ back) tail) :
    ∃ middle, heap.Path list front middle ∧ heap.Path middle back tail := by
  induction front generalizing list with
  | nil => exact ⟨list, .here, hpath⟩
  | cons cell front ih =>
    cases hpath with
    | cons hcell hrest =>
      obtain ⟨middle, hfront, hback⟩ := ih hrest
      exact ⟨middle, .cons hcell hfront, hback⟩

/-- The last cons of a path. -/
theorem of_concat {cell : Cell} (hpath : heap.Path list (front ++ [cell]) tail) :
    heap.Path list front (.object cell.address) ∧
      heap.objects[cell.address]? = some (.cons cell.item tail) := by
  obtain ⟨middle, hfront, hback⟩ := hpath.split
  cases hback with
  | cons hcell hrest =>
    cases hrest with
    | here => exact ⟨hfront, hcell⟩

/-- The objects on a path. -/
theorem object_of_mem (hpath : heap.Path list cells tail) {cell : Cell} (hmem : cell ∈ cells) :
    ∃ cdr, heap.objects[cell.address]? = some (.cons cell.item cdr) := by
  induction hpath with
  | here => cases hmem
  | cons hcell _ ih =>
    rcases List.mem_cons.mp hmem with rfl | hlater
    · exact ⟨_, hcell⟩
    · exact ih hlater

/-- A path stays where the conses on it stay as they are. -/
theorem transport (hpath : heap.Path list cells tail)
    (hsame : ∀ cell ∈ cells, after.objects[cell.address]? = heap.objects[cell.address]?) :
    after.Path list cells tail := by
  induction hpath with
  | here => exact .here
  | cons hcell _ ih =>
    refine .cons ((hsame _ List.mem_cons_self).trans hcell) (ih fun cell hmem ↦ ?_)
    exact hsame cell (List.mem_cons_of_mem _ hmem)

/-! ### Paths that meet no cons twice -/

/-- There is one way at most to a value that is not passed through. -/
theorem unique {others : List Cell} (hpath : heap.Path list cells tail)
    (hother : heap.Path list others tail) (hout : ∀ cell ∈ cells, .object cell.address ≠ tail)
    (hothers : ∀ cell ∈ others, .object cell.address ≠ tail) : cells = others := by
  induction hpath generalizing others with
  | here =>
    cases hother with
    | here => rfl
    | cons => exact absurd rfl (hothers _ List.mem_cons_self)
  | cons hcell _ ih =>
    cases hother with
    | here => exact absurd rfl (hout _ List.mem_cons_self)
    | cons hcell' hrest' =>
      cases hcell.symm.trans hcell'
      rw [ih hrest' (fun _ hmem ↦ hout _ (List.mem_cons_of_mem _ hmem))
        fun _ hmem ↦ hothers _ (List.mem_cons_of_mem _ hmem)]

/-- The rest of a path from a cons on it. -/
theorem suffix (hpath : heap.Path list cells tail) {address : Nat}
    (hmem : address ∈ cells.map Cell.address) :
    ∃ rest, heap.Path (.object address) rest tail ∧ rest <:+ cells := by
  induction hpath with
  | here => cases hmem
  | cons hcell hrest ih =>
    rcases List.mem_cons.mp hmem with rfl | hlater
    · exact ⟨_, .cons hcell hrest, List.suffix_rfl⟩
    · obtain ⟨rest, hpath, hsuffix⟩ := ih hlater
      exact ⟨rest, hpath, hsuffix.trans (List.suffix_cons _ _)⟩

theorem nodup (hpath : heap.Path list cells tail)
    (hout : ∀ cell ∈ cells, .object cell.address ≠ tail) : (cells.map Cell.address).Nodup := by
  induction hpath with
  | here => exact .nil
  | @cons address item cdr tail cells hcell hrest ih =>
    have hlater : ∀ other ∈ cells, Value.object other.address ≠ tail :=
      fun other hmem ↦ hout other (List.mem_cons_of_mem _ hmem)
    refine List.nodup_cons.mpr ⟨fun hmem ↦ ?_, ih hlater⟩
    -- from a cons that is met again there would be two ways to the end, a long and a short one
    obtain ⟨rest, hagain, hsuffix⟩ := hrest.suffix hmem
    have hsame := (Path.cons hcell hrest).unique hagain hout fun other hother ↦
      hlater other (hsuffix.subset hother)
    have hlength := hsuffix.length_le
    rw [← hsame, List.length_cons] at hlength
    omega

theorem length_le_size (hpath : heap.Path list cells tail)
    (hout : ∀ cell ∈ cells, .object cell.address ≠ tail) : cells.length ≤ heap.size := by
  have hsubset : cells.map Cell.address ⊆ List.range heap.size := by
    intro address hmem
    obtain ⟨cell, hcell, rfl⟩ := List.mem_map.mp hmem
    obtain ⟨cdr, hobject⟩ := hpath.object_of_mem hcell
    exact List.mem_range.mpr (Array.getElem?_eq_some_iff.mp hobject).1
  simpa using (hpath.nodup hout).length_le_of_subset hsubset

end Path

namespace Spine

theorem avoids (hspine : heap.Spine list cells tail) :
    ∀ cell ∈ cells, .object cell.address ≠ tail := by
  rintro cell hmem rfl
  obtain ⟨cdr, hobject⟩ := hspine.path.object_of_mem hmem
  cases (cons?_object.mpr hobject).symm.trans hspine.ends

theorem nodup (hspine : heap.Spine list cells tail) : (cells.map Cell.address).Nodup :=
  hspine.path.nodup hspine.avoids

theorem length_le_size (hspine : heap.Spine list cells tail) : cells.length ≤ heap.size :=
  hspine.path.length_le_size hspine.avoids

/-- A list has one end. -/
theorem unique {others : List Cell} {other : Value} (hspine : heap.Spine list cells tail)
    (hother : heap.Spine list others other) : cells = others ∧ tail = other := by
  obtain ⟨hpath, hends⟩ := hspine
  obtain ⟨hpath', hends'⟩ := hother
  induction hpath generalizing others with
  | here =>
    cases hpath' with
    | here => exact ⟨rfl, rfl⟩
    | cons hcell => cases (cons?_object.mpr hcell).symm.trans hends
  | cons hcell _ ih =>
    cases hpath' with
    | here => cases (cons?_object.mpr hcell).symm.trans hends'
    | cons hcell' hrest' =>
      cases hcell.symm.trans hcell'
      obtain ⟨rfl, rfl⟩ := ih hends hrest'
      exact ⟨rfl, rfl⟩

end Spine

end Heap

end LispMachine
