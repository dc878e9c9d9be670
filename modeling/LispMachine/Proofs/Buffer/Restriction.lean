import LispMachine.Proofs.Buffer.Following
import LispMachine.Proofs.Run.Undoing

/-!
Saving the restriction around edits. A buffer that is not narrowed is widened when the entry is
undone, and what was inserted at its end stays accessible. The bounds of a narrowed buffer are saved
as markers, and a marker stays where it is when text is inserted at it. The lower bound does so too;
the upper bound of the buffer moves on with the text, and its marker falls behind. So what is
inserted at the end of the accessible part, or behind what was inserted there, is outside it once
the entry is undone. `Edit.appended` counts these characters. The main statement,
`saveRestriction_around`, says that the accessible part is shorter by them, that the point is moved
back to its end if it was among them, and that nothing else is different from the same edits without
the saving.
-/

set_option autoImplicit false

namespace LispMachine

open LispMachine.Action Storage Engine

/-! ### Sequences of edits -/

namespace Edit

/-- Make edits one after the other. -/
def runAll : List Edit → Storage Unit
  | [] => return ()
  | edit :: rest => do
    edit.run
    runAll rest

/-- What becomes of the buffer. -/
def onAll : List Edit → Buffer → Buffer
  | [], buffer => buffer
  | edit :: rest, buffer => onAll rest (edit.onBuffer buffer)

/-- Where a marker at a position of the buffer goes. -/
def followAll : List Edit → Buffer → Nat → Nat
  | [], _, position => position
  | edit :: rest, buffer, position =>
    followAll rest (edit.onBuffer buffer) (edit.onPosition buffer position)

/-- What becomes of the number of characters behind a position of the accessible part, up to its
end, if text that is inserted at the position comes behind it. -/
def onTail : Edit → Buffer → Nat → Nat
  | insert text, buffer, count =>
    if buffer.point + count < buffer.finish then count else count + text.toList.length
  | delete a b, buffer, count =>
    count - (buffer.accessible (max a b) -
      max (buffer.accessible (min a b)) (buffer.finish - count))
  | move _, _, count => count

/-- What becomes of the number of characters behind a position of the accessible part when edits are
made one after the other. For a position at the end it is none at first, and then counts what is
inserted there and left. -/
def appended : List Edit → Buffer → Nat → Nat
  | [], _, count => count
  | edit :: rest, buffer, count => appended rest (edit.onBuffer buffer) (edit.onTail buffer count)

/-- Whether all text is inserted before the end of the accessible part. -/
def insertsBeforeEnd : List Edit → Buffer → Bool
  | [], _ => true
  | insert text :: rest, buffer =>
    buffer.point < buffer.finish && insertsBeforeEnd rest ((insert text).onBuffer buffer)
  | edit :: rest, buffer => insertsBeforeEnd rest (edit.onBuffer buffer)

theorem appended_of_insertsBeforeEnd {edits : List Edit} {buffer : Buffer}
    (hbefore : insertsBeforeEnd edits buffer = true) : appended edits buffer 0 = 0 := by
  induction edits generalizing buffer with
  | nil => rfl
  | cons edit rest ih =>
    cases edit with
    | insert text =>
      rw [insertsBeforeEnd, Bool.and_eq_true, decide_eq_true_eq] at hbefore
      have htail : (insert text).onTail buffer 0 = 0 := if_pos hbefore.1
      rw [appended, htail]
      exact ih hbefore.2
    | delete a b =>
      have htail : (delete a b).onTail buffer 0 = 0 := Nat.zero_sub _
      rw [appended, htail]
      exact ih hbefore
    | move position => exact ih hbefore

theorem unmarked_onBuffer (edit : Edit) (buffer : Buffer) :
    (edit.onBuffer buffer).unmarked = edit.onBuffer buffer.unmarked := by
  cases edit <;> rfl

theorem unmarked_onAll (edits : List Edit) (buffer : Buffer) :
    (onAll edits buffer).unmarked = onAll edits buffer.unmarked := by
  induction edits generalizing buffer with
  | nil => rfl
  | cons edit rest ih => rw [onAll, onAll, ih, unmarked_onBuffer]

theorem followAll_unmarked (edits : List Edit) (buffer : Buffer) (position : Nat) :
    followAll edits buffer.unmarked position = followAll edits buffer position := by
  induction edits generalizing buffer position with
  | nil => rfl
  | cons edit rest ih =>
    have hplace : edit.onPosition buffer.unmarked position = edit.onPosition buffer position := by
      cases edit <;> rfl
    rw [followAll, followAll, ← unmarked_onBuffer, ih, hplace]

end Edit

/-! ### The bounds of the accessible part -/

namespace Buffer

theorem isNarrowed_eq_false {buffer : Buffer} :
    buffer.isNarrowed = false ↔ buffer.start = 1 ∧ buffer.finish = buffer.textEnd := by
  simp [isNarrowed]

namespace Ordered

variable {buffer : Buffer} (hordered : buffer.Ordered)

include hordered

/-- A marker at the lower bound stays there. -/
theorem onPosition_start (edit : Edit) :
    edit.onPosition buffer buffer.start = (edit.onBuffer buffer).start := by
  cases edit with
  | insert text => exact if_neg (Nat.not_lt.mpr hordered.start_le)
  | delete a b =>
    obtain ⟨hlow, hle, -⟩ := hordered.accessible a b
    exact shiftForDeletion_before hle hlow
  | move position => rfl

/-- A marker in the accessible part has as many characters behind it as are counted. -/
theorem onPosition_tail (edit : Edit) {count : Nat}
    (hcount : buffer.start + count ≤ buffer.finish) :
    edit.onPosition buffer (buffer.finish - count) + edit.onTail buffer count =
        (edit.onBuffer buffer).finish ∧
      (edit.onBuffer buffer).start + edit.onTail buffer count ≤ (edit.onBuffer buffer).finish := by
  cases edit with
  | insert text =>
    have hstart := hordered.start_le
    have hpoint := hordered.point_le
    change shiftForInsertion buffer.point text.toList.length (buffer.finish - count) +
        (if buffer.point + count < buffer.finish then count else count + text.toList.length) =
      buffer.finish + text.toList.length ∧ buffer.start +
        (if buffer.point + count < buffer.finish then count else count + text.toList.length) ≤
      buffer.finish + text.toList.length
    unfold shiftForInsertion
    split_ifs <;> omega
  | delete a b =>
    obtain ⟨hlow, hle, hhigh⟩ := hordered.accessible a b
    change shiftForDeletion _ _ (buffer.finish - count) + (count - (_ - max _ _)) =
      buffer.finish - _ ∧ buffer.start + (count - (_ - max _ _)) ≤ buffer.finish - _
    unfold shiftForDeletion
    split_ifs <;> omega
  | move position => exact ⟨Nat.sub_add_cancel (by omega), hcount⟩

theorem isNarrowed_onBuffer (edit : Edit) (hwhole : buffer.isNarrowed = false) :
    (edit.onBuffer buffer).isNarrowed = false := by
  rw [isNarrowed_eq_false] at hwhole ⊢
  obtain ⟨hstart, hfinish⟩ := hwhole
  cases edit with
  | insert text =>
    refine ⟨hstart, ?_⟩
    change buffer.finish + text.toList.length = (buffer.insert text.toList).textEnd
    rw [textEnd_insert buffer _ hordered.point_le_textEnd, hfinish]
  | delete a b =>
    obtain ⟨hlow, hle, hhigh⟩ := hordered.accessible a b
    have htext := textEnd_delete buffer (Nat.le_trans hordered.start_pos hlow) hle
      (Nat.le_trans hhigh hordered.finish_le)
    refine ⟨hstart, ?_⟩
    change buffer.finish - _ = (buffer.delete _ _).textEnd
    omega
  | move position => exact ⟨hstart, hfinish⟩

theorem onAll (edits : List Edit) : (Edit.onAll edits buffer).Ordered := by
  induction edits generalizing buffer with
  | nil => exact hordered
  | cons edit rest ih => exact ih (hordered.onBuffer edit)

theorem followAll_start (edits : List Edit) :
    Edit.followAll edits buffer buffer.start = (Edit.onAll edits buffer).start := by
  induction edits generalizing buffer with
  | nil => rfl
  | cons edit rest ih =>
    rw [Edit.followAll, Edit.onAll, hordered.onPosition_start, ih (hordered.onBuffer edit)]

theorem followAll_tail (edits : List Edit) {count : Nat}
    (hcount : buffer.start + count ≤ buffer.finish) :
    Edit.followAll edits buffer (buffer.finish - count) + Edit.appended edits buffer count =
        (Edit.onAll edits buffer).finish ∧
      (Edit.onAll edits buffer).start + Edit.appended edits buffer count ≤
        (Edit.onAll edits buffer).finish := by
  induction edits generalizing buffer count with
  | nil => exact ⟨Nat.sub_add_cancel (by omega), hcount⟩
  | cons edit rest ih =>
    obtain ⟨hplace, htail⟩ := hordered.onPosition_tail edit hcount
    rw [Edit.followAll, Edit.onAll, Edit.appended, Nat.eq_sub_of_add_eq hplace]
    exact ih (hordered.onBuffer edit) htail

theorem isNarrowed_onAll (edits : List Edit) (hwhole : buffer.isNarrowed = false) :
    (Edit.onAll edits buffer).isNarrowed = false := by
  induction edits generalizing buffer with
  | nil => exact hwhole
  | cons edit rest ih =>
    exact ih (hordered.onBuffer edit) (hordered.isNarrowed_onBuffer edit hwhole)

end Ordered

end Buffer

/-! ### Edits of a store -/

/-- The store with a new marker at a position of the current buffer. -/
def Store.marked (store : Store) (position : Nat) : Store :=
  { store with
    heap := (store.heap.allocate (.marker ⟨some store.buffers.currentIndex, position⟩)).2
    buffers := store.buffers.attach store.buffers.currentIndex store.heap.size }

namespace Store.Positioned

variable {store : Store} (hpositioned : store.Positioned)

include hpositioned

/-- Edits come to an end and keep the position invariant. -/
theorem runAll_apply (edits : List Edit) : ∃ after, Edit.runAll edits store = .ok () after ∧
    after.Positioned ∧ after.buffers = store.buffers.updateCurrent (Edit.onAll edits) ∧
    ∀ address position,
      store.heap.attachment? address = some (store.buffers.currentIndex, position) →
      after.heap.attachment? address = some (store.buffers.currentIndex,
        Edit.followAll edits store.buffers.current position) := by
  induction edits generalizing store with
  | nil =>
    refine ⟨store, rfl, hpositioned, ?_, fun _ _ hattached ↦ hattached⟩
    exact (BufferStore.update_self rfl).symm
  | cons edit rest ih =>
    obtain ⟨next, hrun, hedited⟩ := hpositioned.run_apply edit
    obtain ⟨after, hlater, hafter, hbuffers, hfollow⟩ := ih (hedited.positioned hpositioned)
    rw [hedited.current_index, hedited.current hpositioned] at hfollow
    refine ⟨after, (bind_of_ok hrun).trans hlater, hafter, ?_, fun address position hplace ↦ ?_⟩
    · rw [hbuffers, hedited.buffers]
      exact BufferStore.update_update _ _ _ _
    · refine hfollow address _ ?_
      rw [hedited.moves, hplace, Option.map_some, Edit.onMarkers, if_pos rfl]

theorem marked {position : Nat} (hpos : 1 ≤ position)
    (hend : position ≤ store.buffers.current.textEnd) : (store.marked position).Positioned := by
  have hsame : BufferStore.SameButMarkers store.buffers (store.marked position).buffers :=
    .update store.buffers _ (store.heap.size :: ·)
  refine ⟨?_, fun index ↦ ?_, hpositioned.tracked.attach hpositioned.current hpos hend⟩
  · change _ < (store.marked position).buffers.buffers.size
    rw [hsame.size]
    exact hpositioned.current
  · exact hsame.ordered_get (hpositioned.ordered index)

end Store.Positioned

/-! ### Saving and undoing -/

theorem Store.attachment?_marked (store : Store) (position address : Nat) :
    (store.marked position).heap.attachment? address =
      if address = store.heap.size then some (store.buffers.currentIndex, position)
      else store.heap.attachment? address :=
  Heap.attachment?_allocate _ _ _

section Saving

variable {machine : Machine}

theorem saveRestriction_of_narrowed (hnarrowed : machine.buffers.current.isNarrowed = true) :
    let first := machine.toStore.marked machine.buffers.current.start
    saveRestriction machine = .ok .nil
      { machine with
        toStore := first.marked machine.buffers.current.finish
        bindings := .restriction machine.buffers.currentIndex
          (some (.object machine.heap.size, .object first.heap.size)) :: machine.bindings } := by
  change (if machine.buffers.current.isNarrowed = true then _ else _ : Engine Value) machine = _
  rw [if_pos hnarrowed]
  rfl

theorem saveRestriction_of_whole (hwhole : machine.buffers.current.isNarrowed = false) :
    saveRestriction machine = .ok .nil
      { machine with
        bindings := .restriction machine.buffers.currentIndex none :: machine.bindings } := by
  change (if machine.buffers.current.isNarrowed = true then _ else _ : Engine Value) machine = _
  rw [hwhole]
  rfl

/-- The newest entry alone is undone. -/
theorem unbind_newest {steps : Nat} {entry : BindingEntry} {rest : BindingLog} {after : Store}
    (hlog : machine.bindings = entry :: rest)
    (hundone : undo (.bounded steps) entry { machine with bindings := rest } =
      .ok () { machine with toStore := after, bindings := rest }) :
    unbind (.bounded steps) 1 machine =
      .ok () { machine with toStore := after, bindings := rest } := by
  let undoing : Undoing :=
    ⟨entry, { machine with bindings := rest }, none,
      { machine with toStore := after, bindings := rest }⟩
  have hunwinds : Unwinds (.bounded steps) (machine.bindings.length - 1) machine [undoing]
      { machine with toStore := after, bindings := rest } := by
    rw [hlog]
    exact .undone hlog (Nat.le_refl _) rfl hundone (.done (Nat.le_refl _))
  change unbindTo (.bounded steps) (machine.bindings.length - 1) machine = _
  rw [unbindTo_of_unwinds (fun _ _ ↦ rfl) hunwinds (by rw [hlog]; exact Nat.le_add_left _ _)]
  rfl

end Saving

/-- The buffer with its accessible part ending before the last characters of it. -/
def Buffer.withoutLast (buffer : Buffer) (count : Nat) : Buffer :=
  { buffer with
    finish := buffer.finish - count
    point := min buffer.point (buffer.finish - count) }

/-- Narrowing a buffer that is narrowed already, further at the end. -/
theorem Buffer.Ordered.narrow_eq {buffer : Buffer} (hordered : buffer.Ordered) {count : Nat}
    (hcount : buffer.start + count ≤ buffer.finish) :
    buffer.narrow buffer.start (buffer.finish - count) = buffer.withoutLast count := by
  have hpos := hordered.start_pos
  have hpoint := hordered.start_le
  have hend := hordered.finish_le
  have hlow : clampBetween 1 buffer.textEnd (min buffer.start (buffer.finish - count)) =
      buffer.start := by
    unfold clampBetween
    split_ifs <;> omega
  have hhigh : clampBetween 1 buffer.textEnd (max buffer.start (buffer.finish - count)) =
      buffer.finish - count := by
    unfold clampBetween
    split_ifs <;> omega
  have hplace : clampBetween buffer.start (buffer.finish - count) buffer.point =
      min buffer.point (buffer.finish - count) := by
    unfold clampBetween
    split_ifs <;> omega
  simp only [Buffer.narrow, hlow, hhigh, hplace]
  rfl

theorem Buffer.widen_eq {buffer : Buffer} (hwhole : buffer.isNarrowed = false) :
    buffer.widen = buffer := by
  obtain ⟨hstart, hfinish⟩ := isNarrowed_eq_false.mp hwhole
  unfold widen
  rw [← hstart, ← hfinish]

theorem Buffer.Ordered.withoutLast_zero {buffer : Buffer} (hordered : buffer.Ordered) :
    buffer.withoutLast 0 = buffer := by
  have hpoint : min buffer.point (buffer.finish - 0) = buffer.point :=
    Nat.min_eq_left hordered.point_le
  unfold Buffer.withoutLast
  rw [hpoint]
  rfl

/-- Make edits after saving the restriction, and undo the newest entry of the log. -/
def editsSaved (edits : List Edit) (steps : Nat) : Engine Unit := do
  let _ ← saveRestriction
  Edit.runAll edits
  unbind (.bounded steps) 1

/-- With two new markers at the ends of the accessible part, nothing else has changed. -/
theorem Store.Positioned.marked_ends {store : Store} (hpositioned : store.Positioned) :
    let buffer := store.buffers.current
    let first := store.marked buffer.start
    let second := first.marked buffer.finish
    second.Positioned ∧ BufferStore.SameButMarkers store.buffers second.buffers ∧
      second.heap.attachment? store.heap.size =
        some (store.buffers.currentIndex, buffer.start) ∧
      second.heap.attachment? first.heap.size =
        some (store.buffers.currentIndex, buffer.finish) := by
  intro buffer first second
  have hordered : buffer.Ordered := hpositioned.ordered _
  have hstart : buffer.start ≤ buffer.textEnd :=
    Nat.le_trans hordered.start_le hordered.point_le_textEnd
  have hfinish : 1 ≤ buffer.finish := Nat.le_trans hordered.point_pos hordered.point_le
  have hmarked : BufferStore.SameButMarkers store.buffers first.buffers :=
    .update store.buffers _ (store.heap.size :: ·)
  refine ⟨?_, hmarked.trans (.update first.buffers _ (first.heap.size :: ·)), ?_, ?_⟩
  · refine (hpositioned.marked hordered.start_pos hstart).marked hfinish ?_
    change buffer.finish ≤ (first.buffers.get store.buffers.currentIndex).textEnd
    rw [hmarked.textEnd]
    exact hordered.finish_le
  · have hne : store.heap.size ≠ first.heap.size :=
      Nat.ne_of_lt (Nat.lt_of_lt_of_eq (Nat.lt_succ_self _) (Array.size_push _).symm)
    rw [Store.attachment?_marked, if_neg hne, Store.attachment?_marked, if_pos rfl]
  · rw [Store.attachment?_marked, if_pos rfl]
    rfl

section Around

variable {machine : Machine} (hpositioned : machine.toStore.Positioned) (edits : List Edit)
  (steps : Nat)

include hpositioned

/-- In a buffer that is narrowed, the accessible part ends where the marker at its end has gone. -/
theorem editsSaved_of_narrowed (hnarrowed : machine.buffers.current.isNarrowed = true) :
    ∃ saved : Store, editsSaved edits steps machine = .ok () { machine with toStore := saved } ∧
      BufferStore.SameButMarkers
        ((machine.buffers.updateCurrent (Edit.onAll edits)).updateCurrent fun buffer ↦
          buffer.withoutLast (Edit.appended edits machine.buffers.current 0)) saved.buffers := by
  let store := machine.toStore
  let buffer := store.buffers.current
  let first := store.marked buffer.start
  let second := first.marked buffer.finish
  have hordered : buffer.Ordered := hpositioned.ordered _
  obtain ⟨hsecond, hsame, hlow, hhigh⟩ : second.Positioned ∧ _ := hpositioned.marked_ends
  obtain ⟨edited, hrun, -, hbuffers, hfollow⟩ := hsecond.runAll_apply edits
  -- where the two markers are after the edits
  have hunmarked : second.buffers.current.unmarked = buffer.unmarked := hsame.get _
  have hplace (position : Nat) : Edit.followAll edits second.buffers.current position =
      Edit.followAll edits buffer position := by
    rw [← Edit.followAll_unmarked, hunmarked, Edit.followAll_unmarked]
  have hwhole : buffer.start + 0 ≤ buffer.finish := hordered.start_le_finish
  obtain ⟨htail, hroom⟩ := hordered.followAll_tail edits hwhole
  have hstart' : edited.heap.positionOf? (.object store.heap.size) =
      some (Edit.onAll edits buffer).start := by
    rw [Heap.positionOf?_object, hfollow _ _ hlow, hplace, hordered.followAll_start]
    rfl
  have hfinish' : edited.heap.positionOf? (.object first.heap.size) =
      some ((Edit.onAll edits buffer).finish - Edit.appended edits buffer 0) := by
    rw [Heap.positionOf?_object, hfollow _ _ hhigh, hplace, ← Nat.eq_sub_of_add_eq htail]
    rfl
  obtain ⟨saved, hundone, hrestored, -⟩ := restoreBounds_apply store.buffers.currentIndex
    (.object store.heap.size) (.object first.heap.size) edited
  rw [hstart', hfinish', Option.getD_some, Option.getD_some] at hrestored
  refine ⟨saved, ?_, ?_⟩
  · refine (bind_of_ok (saveRestriction_of_narrowed hnarrowed)).trans ?_
    refine (bind_of_ok (liftM_of_ok hrun)).trans ?_
    exact unbind_newest rfl (liftM_of_ok hundone)
  · have hedited : BufferStore.SameButMarkers (store.buffers.updateCurrent (Edit.onAll edits))
        edited.buffers := hbuffers ▸ hsame.changed _ (Edit.unmarked_onAll edits)
    have hcurrent := BufferStore.current_updateCurrent hpositioned.current (Edit.onAll edits)
    have hbounds : (store.buffers.updateCurrent (Edit.onAll edits)).updateCurrent
          (fun buffer' ↦ buffer'.narrow (Edit.onAll edits buffer).start
            ((Edit.onAll edits buffer).finish - Edit.appended edits buffer 0)) =
        (store.buffers.updateCurrent (Edit.onAll edits)).updateCurrent
          fun buffer' ↦ buffer'.withoutLast (Edit.appended edits buffer 0) := by
      refine BufferStore.update_congr ?_
      change (store.buffers.updateCurrent (Edit.onAll edits)).current.narrow _ _ =
        (store.buffers.updateCurrent (Edit.onAll edits)).current.withoutLast _
      rw [hcurrent]
      exact (hordered.onAll edits).narrow_eq hroom
    rw [← hbounds]
    refine BufferStore.SameButMarkers.trans (hedited.changed _ ?_) hrestored
    exact fun _ ↦ rfl

/-- A buffer that is not narrowed is widened again, and has not been narrowed in between. -/
theorem editsSaved_of_whole (hwhole : machine.buffers.current.isNarrowed = false) :
    ∃ saved : Store, editsSaved edits steps machine = .ok () { machine with toStore := saved } ∧
      saved.buffers = machine.buffers.updateCurrent (Edit.onAll edits) := by
  have hordered : machine.buffers.current.Ordered := hpositioned.ordered _
  obtain ⟨edited, hrun, -, hbuffers, -⟩ := hpositioned.runAll_apply edits
  have hwidened : edited.buffers.update machine.buffers.currentIndex Buffer.widen =
      edited.buffers := by
    rw [hbuffers]
    refine BufferStore.update_self ?_
    change (machine.buffers.updateCurrent (Edit.onAll edits)).current.widen =
      (machine.buffers.updateCurrent (Edit.onAll edits)).current
    rw [BufferStore.current_updateCurrent hpositioned.current]
    exact Buffer.widen_eq (hordered.isNarrowed_onAll edits hwhole)
  let entry : BindingEntry := .restriction machine.buffers.currentIndex none
  have hedited : (liftM (Edit.runAll edits) : Engine Unit)
        { machine with bindings := entry :: machine.bindings } =
      .ok () { machine with toStore := edited, bindings := entry :: machine.bindings } :=
    liftM_of_ok hrun
  refine ⟨{ edited with
    buffers := edited.buffers.update machine.buffers.currentIndex Buffer.widen }, ?_,
    hwidened.trans hbuffers⟩
  refine (bind_of_ok (saveRestriction_of_whole hwhole)).trans ?_
  exact (bind_of_ok hedited).trans (unbind_newest rfl rfl)

end Around

/-- Saving the restriction around edits. From a machine that satisfies the position invariant, the
edits alone and the edits between the saving and the undoing of its entry both come to an end, and
leave everything but the store as it was. Let `lost` be the number of characters that were inserted
at the end of the accessible part, or behind such characters, and are left there, or zero if the
buffer was not narrowed. Then the buffers differ in the lists of markers and, in the current one, in

1. the end of the accessible part, which is `lost` characters earlier, and
2. the point, which is moved back to that end if it was behind it.

So they are the same but for the markers if and only if nothing is lost, and nothing is lost when
all text is inserted before the end of the accessible part. -/
theorem saveRestriction_around {machine : Machine} (hpositioned : machine.toStore.Positioned)
    (edits : List Edit) (steps : Nat) :
    let buffer := machine.buffers.current
    let lost := if buffer.isNarrowed then Edit.appended edits buffer 0 else 0
    ∃ plain saved : Store,
      (Edit.runAll edits : Engine Unit) machine = .ok () { machine with toStore := plain } ∧
      editsSaved edits steps machine = .ok () { machine with toStore := saved } ∧
      BufferStore.SameButMarkers
        (plain.buffers.updateCurrent fun buffer ↦ buffer.withoutLast lost) saved.buffers ∧
      (BufferStore.SameButMarkers plain.buffers saved.buffers ↔ lost = 0) ∧
      (Edit.insertsBeforeEnd edits buffer = true → lost = 0) := by
  intro buffer lost
  have hordered : buffer.Ordered := hpositioned.ordered _
  obtain ⟨plain, hrun, hpositioned', hplain, -⟩ := hpositioned.runAll_apply edits
  have hcurrent := BufferStore.current_updateCurrent hpositioned.current (Edit.onAll edits)
  have hsame (hnone : lost = 0) :
      plain.buffers.updateCurrent (fun buffer ↦ buffer.withoutLast lost) = plain.buffers := by
    refine BufferStore.update_self ?_
    change plain.buffers.current.withoutLast lost = plain.buffers.current
    rw [hnone, hplain, hcurrent, (hordered.onAll edits).withoutLast_zero]
  have hsaved : ∃ saved : Store,
      editsSaved edits steps machine = .ok () { machine with toStore := saved } ∧
        BufferStore.SameButMarkers
          (plain.buffers.updateCurrent fun buffer ↦ buffer.withoutLast lost) saved.buffers := by
    cases hnarrowed : buffer.isNarrowed with
    | true =>
      have hlost : lost = Edit.appended edits buffer 0 := if_pos hnarrowed
      rw [hplain, hlost]
      exact editsSaved_of_narrowed hpositioned edits steps hnarrowed
    | false =>
      have hlost : lost = 0 := if_neg (Bool.not_eq_true _ ▸ hnarrowed)
      obtain ⟨saved, hedits, hbuffers⟩ := editsSaved_of_whole hpositioned edits steps hnarrowed
      rw [hsame hlost, hplain, ← hbuffers]
      exact ⟨saved, hedits, .refl _⟩
  obtain ⟨saved, hedits, hbuffers⟩ := hsaved
  refine ⟨plain, saved, liftM_of_ok hrun, hedits, hbuffers, ⟨fun hall ↦ ?_, fun hnone ↦ ?_⟩, ?_⟩
  · have hfinish : (Edit.onAll edits buffer).finish = (Edit.onAll edits buffer).finish - lost := by
      have hboth := (hall.get plain.buffers.currentIndex).symm.trans (hbuffers.get _)
      change plain.buffers.current.unmarked =
        (plain.buffers.updateCurrent fun buffer ↦ buffer.withoutLast lost).current.unmarked at hboth
      rw [BufferStore.current_updateCurrent hpositioned'.current, hplain, hcurrent] at hboth
      exact congrArg Buffer.finish hboth
    have hroom : (Edit.onAll edits buffer).start + lost ≤ (Edit.onAll edits buffer).finish := by
      have hwhole : buffer.start + 0 ≤ buffer.finish := hordered.start_le_finish
      change _ + (if _ then _ else _) ≤ _
      split_ifs
      · exact (hordered.followAll_tail edits hwhole).2
      · exact (hordered.onAll edits).start_le_finish
    have hpos := (hordered.onAll edits).start_pos
    omega
  · rwa [hsame hnone] at hbuffers
  · intro hbefore
    change (if _ then _ else _) = 0
    rw [Edit.appended_of_insertsBeforeEnd hbefore, ite_self]

/-- A buffer with the text `abc` that is narrowed to the `b`, with the point behind it. -/
def narrowedMachine : Machine :=
  { heap := Heap.empty 1
    settings := {}
    buffers :=
      { buffers := #[{ name := "*scratch*", text := #['a', 'b', 'c'], point := 3, start := 2
                       finish := 3, object := .nil }] } }

theorem narrowedMachine_positioned : narrowedMachine.toStore.Positioned := by
  refine ⟨Nat.zero_lt_one, ?_, ?_⟩
  · rintro (_ | index)
    · constructor <;> decide
    · exact Buffer.ordered_new _ _
  · have hnone (address : Nat) : narrowedMachine.heap.attachment? address = none := rfl
    have hmarkers (index : Nat) : (narrowedMachine.buffers.get index).markers = [] := by
      cases index <;> rfl
    constructor
    · intro address index
      rw [hmarkers, hnone]
      simp
    · intro index
      rw [hmarkers]
      exact List.nodup_nil
    · intro address index position hattached
      rw [hnone] at hattached
      cases hattached

/-- Text that is inserted before the `b` is accessible with and without the saving. -/
theorem saveRestriction_around_inside :
    let edits : List Edit := [.move 2, .insert "X"]
    narrowedMachine.toStore.Positioned ∧ ∃ plain saved : Store,
      (Edit.runAll edits : Engine Unit) narrowedMachine =
        .ok () { narrowedMachine with toStore := plain } ∧
      editsSaved edits 1 narrowedMachine = .ok () { narrowedMachine with toStore := saved } ∧
      BufferStore.SameButMarkers plain.buffers saved.buffers := by
  intro edits
  obtain ⟨plain, saved, hplain, hsaved, -, hsame, hbefore⟩ :=
    saveRestriction_around narrowedMachine_positioned edits 1
  have hinside : Edit.insertsBeforeEnd edits narrowedMachine.buffers.current = true := by decide
  exact ⟨narrowedMachine_positioned, plain, saved, hplain, hsaved, hsame.mpr (hbefore hinside)⟩

/-- Text that is inserted behind the `b` is accessible without the saving only. -/
theorem saveRestriction_shortens :
    let edits : List Edit := [.insert "X"]
    narrowedMachine.toStore.Positioned ∧ ∃ plain saved : Store,
      (Edit.runAll edits : Engine Unit) narrowedMachine =
        .ok () { narrowedMachine with toStore := plain } ∧
      editsSaved edits 1 narrowedMachine = .ok () { narrowedMachine with toStore := saved } ∧
      (plain.buffers.current.contents = "bX" ∧ plain.buffers.current.finish = 4 ∧
        plain.buffers.current.point = 4) ∧
      saved.buffers.current.contents = "b" ∧ saved.buffers.current.finish = 3 ∧
        saved.buffers.current.point = 3 := by
  intro edits
  refine ⟨narrowedMachine_positioned, _, _, rfl, rfl, ?_, ?_⟩
  · decide
  · decide

end LispMachine
