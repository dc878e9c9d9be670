import LispMachine.Proofs.Buffer.Text
import LispMachine.Proofs.Machine.Buffers

/-!
Markers follow their text. An edit of the current buffer is an insertion, a deletion or a motion of
the point (`Edit`), and is known by what it does to the buffer (`Edit.onBuffer`) and where a
position in the buffer goes (`Edit.onPosition`). `Edit.run_apply` says that the edit of a store is
just that, whether or not there is anything to change. The main statement, `markers_follow_text`,
puts this together with what becomes of a slice: wherever two markers of the buffer go, they keep
their order, and they have between them what they had, without what was deleted and with what was
inserted behind the first and before the second.
-/

set_option autoImplicit false

namespace LispMachine

open Storage

/-! ### The position invariant -/

/-- There is a current buffer, each buffer is in order, and the lists of markers are those of the
markers that point into the buffers. -/
structure Store.Positioned (store : Store) : Prop where
  current : store.HasBuffer store.buffers.currentIndex
  ordered : ∀ index, (store.buffers.get index).Ordered
  tracked : Tracked store.heap store.buffers

theorem Machine.Reached.positioned {machine : Machine} {held : List Value}
    (hreached : machine.Reached held) : machine.toStore.Positioned :=
  have hsound := hreached.sound.1
  ⟨hsound.store.current hsound.scratch, hsound.store.buffers.get, hsound.store.tracked⟩

/-! ### Edits -/

/-- An edit of the current buffer. -/
inductive Edit where
  | insert (text : String)
  /-- Delete what is between two positions, as far as it is accessible. -/
  | delete (a b : Nat)
  | move (position : Nat)

namespace Edit

def run : Edit → Storage Unit
  | insert text => insertText text
  | delete a b => deleteBetween a b
  | move position => gotoPosition position

end Edit

/-- The position of the accessible part that is nearest to another one. -/
def Buffer.accessible (buffer : Buffer) (position : Nat) : Nat :=
  clampBetween buffer.start buffer.finish position

namespace Edit

/-- What becomes of the buffer. -/
def onBuffer : Edit → Buffer → Buffer
  | insert text, buffer => buffer.insert text.toList
  | delete a b, buffer =>
    buffer.delete (buffer.accessible (min a b)) (buffer.accessible (max a b))
  | move position, buffer => buffer.setPoint position

/-- Where a marker at a position of the buffer goes. -/
def onPosition : Edit → Buffer → Nat → Nat
  | insert text, buffer => shiftForInsertion buffer.point text.toList.length
  | delete a b, buffer =>
    shiftForDeletion (buffer.accessible (min a b)) (buffer.accessible (max a b))
  | move _, _ => id

/-- Where the markers of a store go: those in the current buffer move with it. -/
def onMarkers (edit : Edit) (buffers : BufferStore) (owner position : Nat) : Nat :=
  if owner = buffers.currentIndex then edit.onPosition buffers.current position else position

theorem onMarkers_of_idle {edit : Edit} {buffers : BufferStore}
    (hidle : ∀ position, edit.onPosition buffers.current position = position) :
    edit.onMarkers buffers = fun _ position ↦ position := by
  funext owner position
  rw [onMarkers, hidle, ite_self]

theorem markers_onBuffer (edit : Edit) (buffer : Buffer) :
    (edit.onBuffer buffer).markers = buffer.markers := by
  cases edit <;> rfl

end Edit

namespace Buffer.Ordered

variable {buffer : Buffer} (hordered : buffer.Ordered)

include hordered

theorem point_le_textEnd : buffer.point ≤ buffer.textEnd :=
  Nat.le_trans hordered.point_le hordered.finish_le

theorem point_pos : 1 ≤ buffer.point := Nat.le_trans hordered.start_pos hordered.start_le

theorem accessible (a b : Nat) :
    buffer.start ≤ buffer.accessible (min a b) ∧
      buffer.accessible (min a b) ≤ buffer.accessible (max a b) ∧
      buffer.accessible (max a b) ≤ buffer.finish :=
  hordered.region a b

theorem onBuffer (edit : Edit) : (edit.onBuffer buffer).Ordered := by
  cases edit with
  | insert text => exact hordered.insert text.toList
  | delete a b =>
    obtain ⟨hlow, hle, hhigh⟩ := hordered.accessible a b
    exact hordered.delete hlow hle hhigh
  | move position => exact hordered.setPoint position

/-- Markers stay in the text. -/
theorem onPosition (edit : Edit) {position : Nat} (hpos : 1 ≤ position)
    (hend : position ≤ buffer.textEnd) :
    1 ≤ edit.onPosition buffer position ∧
      edit.onPosition buffer position ≤ (edit.onBuffer buffer).textEnd := by
  cases edit with
  | insert text =>
    change 1 ≤ shiftForInsertion buffer.point text.toList.length position ∧
      shiftForInsertion buffer.point text.toList.length position ≤
        (buffer.insert text.toList).textEnd
    rw [textEnd_insert buffer _ hordered.point_le_textEnd]
    unfold shiftForInsertion
    split_ifs <;> omega
  | delete a b =>
    obtain ⟨hlow, hle, hhigh⟩ := hordered.accessible a b
    have hstart := Nat.le_trans hordered.start_pos hlow
    have hfinish := Nat.le_trans hhigh hordered.finish_le
    have htext := textEnd_delete buffer hstart hle hfinish
    change 1 ≤ shiftForDeletion _ _ position ∧
      shiftForDeletion _ _ position ≤ (buffer.delete _ _).textEnd
    unfold shiftForDeletion
    split_ifs <;> omega
  | move position => exact ⟨hpos, hend⟩

end Buffer.Ordered

/-! ### Edits of a store -/

theorem Buffer.insert_nil {buffer : Buffer} (hpoint : buffer.point ≤ buffer.textEnd) :
    buffer.insert [] = buffer := by
  have htext : (buffer.insert []).text = buffer.text := by
    apply Array.ext_getElem?
    intro place
    rw [getElem?_text_insert hpoint, List.length_nil, Nat.add_zero, Nat.sub_zero]
    split_ifs <;> rfl
  exact congrArg (fun text ↦ { buffer with text := text }) htext

theorem Buffer.delete_self {buffer : Buffer} {position : Nat} (hpos : 1 ≤ position)
    (hend : position ≤ buffer.textEnd) : buffer.delete position position = buffer := by
  have htext : (buffer.delete position position).text = buffer.text := by
    apply Array.ext_getElem?
    intro place
    rw [getElem?_text_delete hpos (Nat.le_refl _) hend, Nat.sub_self, Nat.add_zero, ite_self]
  have hparts : buffer.delete position position =
      { buffer with
        text := (buffer.delete position position).text
        finish := buffer.finish - (position - position)
        point := shiftForDeletion position position buffer.point } := rfl
  rw [hparts, htext, shiftForDeletion_self, Nat.sub_self]
  rfl

/-- A region that is not empty is deleted, and the markers behind it move back. -/
theorem deleteBetween_apply {a b low high : Nat} {store : Store}
    (hlow : store.buffers.current.accessible (min a b) = low)
    (hhigh : store.buffers.current.accessible (max a b) = high) :
    deleteBetween a b store =
      if low = high then .ok () store
      else .ok ()
        { store with
          heap := store.heap.moveMarkers store.buffers.current.markers (shiftForDeletion low high)
          buffers := store.buffers.updateCurrent fun buffer ↦ buffer.delete low high } := by
  subst hlow hhigh
  change (if store.buffers.current.accessible (min a b) =
    store.buffers.current.accessible (max a b) then Pure.pure () else _ : Storage Unit) store = _
  split_ifs <;> rfl

/-- The current buffer is edited and the markers in it move; nothing else happens. -/
structure Store.EditedBy (before : Store) (edit : Edit) (after : Store) : Prop where
  buffers : after.buffers = before.buffers.updateCurrent edit.onBuffer
  moves : before.heap.Moves after.heap (edit.onMarkers before.buffers)
  frame : after = { before with heap := after.heap, buffers := after.buffers }

/-- An edit that has nothing to change. -/
theorem Store.EditedBy.idle {store : Store} {edit : Edit}
    (hbuffer : edit.onBuffer store.buffers.current = store.buffers.current)
    (hposition : ∀ position, edit.onPosition store.buffers.current position = position) :
    store.EditedBy edit store :=
  ⟨(BufferStore.update_self hbuffer).symm, Edit.onMarkers_of_idle hposition ▸ .refl _, rfl⟩

namespace Store.Positioned

variable {store : Store} (hpositioned : store.Positioned)

include hpositioned

theorem run_apply (edit : Edit) :
    ∃ after, edit.run store = .ok () after ∧ store.EditedBy edit after := by
  have hordered : store.buffers.current.Ordered := hpositioned.ordered _
  cases edit with
  | insert text =>
    cases hchars : text.toList.isEmpty with
    | true =>
      have hnil : text.toList = [] := List.isEmpty_iff.mp hchars
      refine ⟨store, ?_, .idle ?_ fun position ↦ ?_⟩
      · change insertCharacters text.toList store = _
        rw [hnil]
        rfl
      · change store.buffers.current.insert text.toList = _
        rw [hnil, Buffer.insert_nil hordered.point_le_textEnd]
      · change shiftForInsertion _ text.toList.length position = position
        rw [hnil]
        exact ite_self position
    | false =>
      exact ⟨_, insertCharacters_apply hchars store, rfl,
        hpositioned.tracked.moves_moveMarkers _ _, rfl⟩
  | delete a b =>
    obtain ⟨hlow, -, hhigh⟩ := hordered.accessible a b
    by_cases hsame : store.buffers.current.accessible (min a b) =
        store.buffers.current.accessible (max a b)
    · have hpos := Nat.le_trans hordered.start_pos hlow
      have hend := Nat.le_trans hhigh hordered.finish_le
      refine ⟨store, (deleteBetween_apply rfl rfl).trans (if_pos hsame), .idle ?_ fun position ↦ ?_⟩
      · change store.buffers.current.delete _ _ = _
        rw [hsame] at hpos ⊢
        exact Buffer.delete_self hpos hend
      · change shiftForDeletion _ _ position = position
        rw [hsame]
        exact shiftForDeletion_self _ position
    · exact ⟨_, (deleteBetween_apply rfl rfl).trans (if_neg hsame), BufferStore.update_congr rfl,
        hpositioned.tracked.moves_moveMarkers _ _, rfl⟩
  | move position =>
    have hmarkers : (Edit.move position).onMarkers store.buffers = fun _ position ↦ position :=
      Edit.onMarkers_of_idle fun _ ↦ rfl
    exact ⟨_, rfl, rfl, hmarkers ▸ .refl _, rfl⟩

end Store.Positioned

namespace Store.EditedBy

variable {store after : Store} {edit : Edit} (hedited : store.EditedBy edit after)
  (hpositioned : store.Positioned)

include hedited hpositioned

theorem get (index : Nat) : after.buffers.get index =
    if index = store.buffers.currentIndex then edit.onBuffer store.buffers.current
    else store.buffers.get index := by
  rw [hedited.buffers]
  exact BufferStore.get_update hpositioned.current _ index

omit hpositioned in
theorem current_index : after.buffers.currentIndex = store.buffers.currentIndex := by
  rw [hedited.buffers]
  rfl

theorem current : after.buffers.current = edit.onBuffer store.buffers.current := by
  rw [BufferStore.current, hedited.current_index, hedited.get hpositioned, if_pos rfl]

/-- An edit keeps the position invariant. -/
theorem positioned : after.Positioned := by
  have hget := hedited.get hpositioned
  refine ⟨?_, fun index ↦ ?_, ?_⟩
  · rw [Store.HasBuffer, hedited.buffers, BufferStore.updateCurrent, BufferStore.size_update]
    exact hpositioned.current
  · rw [hget]
    split_ifs
    · exact (hpositioned.ordered _).onBuffer edit
    · exact hpositioned.ordered index
  · refine hpositioned.tracked.moved hedited.moves (fun index ↦ ?_) ?_
    · rw [hget]
      split_ifs with hindex
      · rw [hindex]
        exact edit.markers_onBuffer _
      · rfl
    · intro index position hpos hend
      rw [hget]
      unfold Edit.onMarkers
      split_ifs with hindex
      · rw [hindex] at hend
        exact (hpositioned.ordered _).onPosition edit hpos hend
      · exact ⟨hpos, hend⟩

end Store.EditedBy

/-! ### Markers and their text -/

/-- Markers in the current buffer move by `move` and keep their order, and what two of them have
between them afterwards is `between` of their positions. The other buffers and the markers in them
stay as they are. -/
structure Store.Follows (before after : Store) (move : Nat → Nat)
    (between : Nat → Nat → List Char) : Prop where
  current : after.buffers.currentIndex = before.buffers.currentIndex
  inside : ∀ {first second p q : Nat}, p ≤ q →
    before.heap.attachment? first = some (before.buffers.currentIndex, p) →
    before.heap.attachment? second = some (before.buffers.currentIndex, q) →
    after.heap.attachment? first = some (after.buffers.currentIndex, move p) ∧
      after.heap.attachment? second = some (after.buffers.currentIndex, move q) ∧
      move p ≤ move q ∧ after.buffers.current.slice (move p) (move q) = between p q
  outside : ∀ {address index position : Nat}, index ≠ before.buffers.currentIndex →
    before.heap.attachment? address = some (index, position) →
    after.heap.attachment? address = some (index, position)
  others : ∀ index, index ≠ before.buffers.currentIndex →
    after.buffers.get index = before.buffers.get index

/-- An edit whose effect on slices is known makes markers follow their text. -/
theorem Store.EditedBy.follows {store after : Store} {edit : Edit}
    {between : Nat → Nat → List Char} (hedited : store.EditedBy edit after)
    (hpositioned : store.Positioned)
    (hmono : ∀ p q, p ≤ q → edit.onPosition store.buffers.current p ≤
      edit.onPosition store.buffers.current q)
    (hslice : ∀ p q, p ≤ q → q ≤ store.buffers.current.textEnd →
      (edit.onBuffer store.buffers.current).slice (edit.onPosition store.buffers.current p)
        (edit.onPosition store.buffers.current q) = between p q) :
    store.Follows after (edit.onPosition store.buffers.current) between := by
  have hindex := hedited.current_index
  have hinside {address position : Nat}
      (hplace : store.heap.attachment? address = some (store.buffers.currentIndex, position)) :
      after.heap.attachment? address =
        some (after.buffers.currentIndex, edit.onPosition store.buffers.current position) := by
    rw [hedited.moves, hplace, Option.map_some, Edit.onMarkers, if_pos rfl, hindex]
  refine ⟨hindex, fun {first second p q} hle hfirst hsecond ↦ ?_, ?_, fun index hother ↦ ?_⟩
  · refine ⟨hinside hfirst, hinside hsecond, hmono p q hle, ?_⟩
    rw [hedited.current hpositioned]
    exact hslice p q hle (hpositioned.tracked.placed hsecond).2
  · intro address index position hother hplace
    rw [hedited.moves, hplace, Option.map_some, Edit.onMarkers, if_neg hother]
  · rw [hedited.get hpositioned, if_neg hother]

/-- Markers follow their text. From a store that satisfies the position invariant, text is always
inserted and a region always deleted, and the invariant holds again. Of two markers in the current
buffer, at `p` and at `q` behind it,

1. after an insertion at the point there is between them what was between them, with the new text at
   the point if `p ≤ point < q`, and the point is right behind the new text;
2. after a deletion there is between them what was between them before and behind the region, which
   is what was given, in either order, as far as it is accessible, and the point has moved like a
   marker.

Markers keep their order, and outside the current buffer nothing changes. -/
theorem Store.Positioned.markers_follow_text {store : Store} (hpositioned : store.Positioned) :
    let buffer := store.buffers.current
    (∀ text : String, ∃ after, insertText text store = .ok () after ∧ after.Positioned ∧
      store.Follows after (shiftForInsertion buffer.point text.length) (fun p q ↦
        if p ≤ buffer.point ∧ buffer.point < q then
          buffer.slice p buffer.point ++ text.toList ++ buffer.slice buffer.point q
        else buffer.slice p q) ∧
      after.buffers.current.point = buffer.point + text.length ∧
      after.buffers.current.slice buffer.point (buffer.point + text.length) = text.toList) ∧
    ∀ a b : Nat, ∃ after, deleteBetween a b store = .ok () after ∧ after.Positioned ∧
      let low := clampBetween buffer.start buffer.finish (min a b)
      let high := clampBetween buffer.start buffer.finish (max a b)
      store.Follows after (shiftForDeletion low high) (fun p q ↦
        buffer.slice p (min q low) ++ buffer.slice (max p high) q) ∧
      after.buffers.current.point = shiftForDeletion low high buffer.point := by
  intro buffer
  have hordered : buffer.Ordered := hpositioned.ordered _
  have hpoint := hordered.point_le_textEnd
  refine ⟨fun text ↦ ?_, fun a b ↦ ?_⟩
  · obtain ⟨after, hrun, hedited⟩ := hpositioned.run_apply (.insert text)
    have hcurrent := hedited.current hpositioned
    rw [← String.length_toList]
    refine ⟨after, hrun, hedited.positioned hpositioned, hedited.follows hpositioned ?_ ?_, ?_, ?_⟩
    · exact fun p q ↦ shiftForInsertion_mono
    · intro p q hle hend
      exact Buffer.slice_insert hordered.point_pos hpoint text.toList hle hend
    · exact congrArg Buffer.point hcurrent
    · rw [hcurrent]
      exact Buffer.slice_insert_inserted hordered.point_pos hpoint text.toList
  · obtain ⟨after, hrun, hedited⟩ := hpositioned.run_apply (.delete a b)
    obtain ⟨hlow, hle, hhigh⟩ := hordered.region a b
    refine ⟨after, hrun, hedited.positioned hpositioned, hedited.follows hpositioned ?_ ?_, ?_⟩
    · exact fun p q ↦ shiftForDeletion_mono hle
    · intro p q hpq _
      exact Buffer.slice_delete (Nat.le_trans hordered.start_pos hlow) hle
        (Nat.le_trans hhigh hordered.finish_le) hpq
    · exact congrArg Buffer.point (hedited.current hpositioned)

/-- Two markers around a buffer with the text `ab`, whose point is between the characters: an
insertion comes between the markers. -/
theorem markers_follow_text_inserted :
    let buffer : Buffer :=
      { name := "*scratch*", text := #['a', 'b'], point := 2, finish := 3, markers := [0, 1]
        object := .nil }
    let store : Store :=
      { heap := { objects := #[.marker ⟨some 0, 1⟩, .marker ⟨some 0, 3⟩], threshold := 1 }
        buffers := { buffers := #[buffer] } }
    store.Positioned ∧ ∃ after, insertText "X" store = .ok () after ∧
      after.heap.attachment? 0 = some (0, 1) ∧ after.heap.attachment? 1 = some (0, 4) ∧
      after.buffers.current.slice 1 4 = ['a', 'X', 'b'] := by
  intro buffer store
  have hordered : ∀ index, (store.buffers.get index).Ordered
    | 0 => by constructor <;> decide
    | _ + 1 => Buffer.ordered_new _ _
  have hattached : ∀ address, store.heap.attachment? address =
      if address = 0 then some (0, 1) else if address = 1 then some (0, 3) else none
    | 0 => rfl
    | 1 => rfl
    | _ + 2 => rfl
  have htracked : Tracked store.heap store.buffers := by
    refine ⟨fun address index ↦ ?_, fun index ↦ ?_, fun {address index position} hplace ↦ ?_⟩
    · rw [hattached]
      rcases index with _ | index
      · change address ∈ [0, 1] ↔ _
        split_ifs <;> simp [*]
      · change address ∈ [] ↔ _
        split_ifs <;> simp
    · rcases index with _ | index
      · exact (by decide : [0, 1].Nodup)
      · exact List.nodup_nil
    · rw [hattached] at hplace
      split_ifs at hplace <;> cases hplace <;> exact ⟨by decide, by decide⟩
  have hpositioned : store.Positioned := ⟨Nat.zero_lt_one, hordered, htracked⟩
  obtain ⟨after, hrun, -, hfollows, -⟩ := hpositioned.markers_follow_text.1 "X"
  obtain ⟨hfirst, hsecond, -, hslice⟩ := hfollows.inside (show 1 ≤ 3 by decide)
    (hattached 0) (hattached 1)
  rw [hfollows.current] at hfirst hsecond
  exact ⟨hpositioned, after, hrun, hfirst, hsecond, hslice⟩

end LispMachine
