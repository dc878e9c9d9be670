import LispMachine.Proofs.Store.Applied
import LispMachine.Proofs.Store.Paths

/-!
Lists that come to an end. A list is read cons by cons, but no more conses than the heap has
objects, because with more of them it runs in a circle. That loses no list that comes to an end: its
spine is no longer than that (`Spine.chain_eq`), so such a list is read as a whole
(`leadingElements_of_terminates`). What its items are is said without counting conses, by `HasItem`.
-/

set_option autoImplicit false

namespace LispMachine

open Storage

namespace Heap

variable {heap : Heap} {value tail car cdr item : Value} {count : Nat}

/-- The tails of a list: the list itself, and the second part of every tail that is a cons. -/
inductive TailOf (heap : Heap) (value : Value) : Value → Prop where
  | self : TailOf heap value value
  | rest {tail car cdr : Value} (htail : TailOf heap value tail)
      (hcons : heap.cons? tail = some (car, cdr)) : TailOf heap value cdr

/-- The first part of some tail. -/
def HasItem (heap : Heap) (value item : Value) : Prop :=
  ∃ tail cdr, heap.TailOf value tail ∧ heap.cons? tail = some (item, cdr)

/-- Some tail is no cons, so the list is not circular. -/
def Terminates (heap : Heap) (value : Value) : Prop :=
  ∃ tail, heap.TailOf value tail ∧ heap.cons? tail = none

theorem TailOf.of_cdr (hcons : heap.cons? value = some (car, cdr)) (htail : heap.TailOf cdr tail) :
    heap.TailOf value tail := by
  induction htail with
  | self => exact .rest .self hcons
  | rest _ hnext ih => exact .rest ih hnext

theorem TailOf.eq_or_of_cons (htail : heap.TailOf value tail)
    (hcons : heap.cons? value = some (car, cdr)) : tail = value ∨ heap.TailOf cdr tail := by
  induction htail with
  | self => exact .inl rfl
  | rest _ hnext ih =>
    rcases ih with rfl | hlater
    · rw [hcons] at hnext
      cases hnext
      exact .inr .self
    · exact .inr (.rest hlater hnext)

theorem hasItem_cons (hcons : heap.cons? value = some (car, cdr)) :
    heap.HasItem value item ↔ item = car ∨ heap.HasItem cdr item := by
  constructor
  · rintro ⟨tail, rest, htail, hitem⟩
    rcases htail.eq_or_of_cons hcons with rfl | hlater
    · rw [hcons] at hitem
      cases hitem
      exact .inl rfl
    · exact .inr ⟨tail, rest, hlater, hitem⟩
  · rintro (rfl | ⟨tail, rest, htail, hitem⟩)
    · exact ⟨value, cdr, .self, hcons⟩
    · exact ⟨tail, rest, .of_cdr hcons htail, hitem⟩

theorem not_hasItem (hnone : heap.cons? value = none) : ¬ heap.HasItem value item := by
  rintro ⟨tail, rest, htail, hitem⟩
  have hself : tail = value := by
    clear hitem
    induction htail with
    | self => rfl
    | rest _ hnext ih =>
      rw [ih, hnone] at hnext
      cases hnext
  rw [hself, hnone] at hitem
  cases hitem

/-! ### The number of conses -/

/-- The list ends after so many conses. -/
inductive EndsIn (heap : Heap) : Nat → Value → Prop where
  | stop {value : Value} (hnone : heap.cons? value = none) : EndsIn heap 0 value
  | cons {count : Nat} {value car cdr : Value} (hcons : heap.cons? value = some (car, cdr))
      (hrest : EndsIn heap count cdr) : EndsIn heap (count + 1) value

theorem Terminates.exists_endsIn (hends : heap.Terminates value) :
    ∃ count, heap.EndsIn count value := by
  obtain ⟨tail, htail, hnone⟩ := hends
  have hback : ∀ count, heap.EndsIn count tail → ∃ more, heap.EndsIn more value := by
    clear hnone
    induction htail with
    | self => exact fun count hcount ↦ ⟨count, hcount⟩
    | rest _ hcons ih => exact fun count hcount ↦ ih (count + 1) (.cons hcons hcount)
  exact hback 0 (.stop hnone)

theorem EndsIn.exists_spine (hends : heap.EndsIn count value) :
    ∃ cells tail, heap.Spine value cells tail ∧ cells.length = count := by
  induction hends with
  | @stop value hnone => exact ⟨[], value, ⟨.here, hnone⟩, rfl⟩
  | cons hcons _ ih =>
    obtain ⟨cells, tail, hspine, rfl⟩ := ih
    obtain ⟨address, -, hfirst⟩ := Path.of_cons? hcons
    exact ⟨_, tail, ⟨hfirst.trans hspine.path, hspine.ends⟩, rfl⟩

theorem terminates_iff_exists_spine :
    heap.Terminates value ↔ ∃ cells tail, heap.Spine value cells tail := by
  constructor
  · intro hends
    obtain ⟨count, hcount⟩ := hends.exists_endsIn
    obtain ⟨cells, tail, hspine, -⟩ := hcount.exists_spine
    exact ⟨cells, tail, hspine⟩
  · rintro ⟨cells, tail, hpath, hends⟩
    refine ⟨tail, ?_, hends⟩
    clear hends
    induction hpath with
    | here => exact .self
    | cons hcell _ ih => exact ih.of_cdr (cons?_object.mpr hcell)

/-! ### Reading lists -/

variable {cells : List Cell}

theorem chainWithin_of_path (hpath : heap.Path value cells tail) (bound : Nat) :
    heap.chainWithin (bound + cells.length) value =
      (cells.map Cell.item ++ (heap.chainWithin bound tail).1,
        (heap.chainWithin bound tail).2) := by
  induction hpath with
  | here => rfl
  | cons hcell _ ih =>
    rw [List.length_cons, ← Nat.add_assoc, chainWithin, cons?_object.mpr hcell]
    dsimp only
    rw [ih]
    rfl

theorem Spine.chain_eq (hspine : heap.Spine value cells tail) :
    heap.chain value = (cells.map Cell.item, if tail = .nil then .proper else .improper) := by
  obtain ⟨bound, hbound⟩ := Nat.exists_eq_add_of_le' hspine.length_le_size
  have hstop : heap.chainWithin bound tail = ([], if tail = .nil then .proper else .improper) := by
    unfold chainWithin
    rw [hspine.ends]
    simp only [Value.isNil, beq_iff_eq]
  unfold chain
  rw [hbound, chainWithin_of_path hspine.path, hstop, List.append_nil]

theorem Spine.mem_iff_hasItem (hspine : heap.Spine value cells tail) :
    item ∈ cells.map Cell.item ↔ heap.HasItem value item := by
  obtain ⟨hpath, hends⟩ := hspine
  induction hpath with
  | here => exact iff_of_false List.not_mem_nil (not_hasItem hends)
  | cons hcell _ ih =>
    rw [List.map_cons, List.mem_cons, hasItem_cons (cons?_object.mpr hcell), ih hends]

end Heap

/-- A list that is not circular is read as a whole. -/
theorem leadingElements_of_terminates {store : Store} {value : Value}
    (hends : store.heap.Terminates value) :
    ∃ items, leadingElements value store = .ok items store ∧
      ∀ item, item ∈ items ↔ store.heap.HasItem value item := by
  obtain ⟨cells, tail, hspine⟩ := Heap.terminates_iff_exists_spine.mp hends
  rw [leadingElements_apply, hspine.chain_eq]
  refine ⟨cells.map Heap.Cell.item, ?_, fun item ↦ hspine.mem_iff_hasItem⟩
  split_ifs <;> rfl

end LispMachine
