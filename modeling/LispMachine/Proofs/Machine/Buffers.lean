import LispMachine.Proofs.Machine.Reached
import LispMachine.Proofs.Run.Progress
import Mathlib.Data.List.Nodup

/-!
The buffers of a machine that is reached: point and accessible part lie in order in the text, the
indices of buffers name buffers, and each buffer lists exactly the markers that point into it.

So no reader of a buffer goes outside the text. To say this, the readers are given once more with
every access to the text checked (`lineStart?`, `lineEnd?`, `slice?`, `columnAt?`), and in the
accessible part of a buffer in order the checked readers give what the others give.
-/

set_option autoImplicit false

namespace LispMachine

open Engine Storage

/-! ### Readers that check every access -/

namespace Buffer

variable {buffer : Buffer}

/-- The character before a position of the whole text. -/
def charBefore? (buffer : Buffer) (position : Nat) : Option Char :=
  if 2 ≤ position then buffer.text[position - 2]? else none

/-- The character after a position of the whole text. -/
def charAfter? (buffer : Buffer) (position : Nat) : Option Char :=
  if 1 ≤ position then buffer.text[position - 1]? else none

/-- The start of the accessible line around a position, `none` if a character is missing. -/
def lineStart? (buffer : Buffer) : Nat → Option Nat
  | 0 => none
  | position + 1 => do
    if buffer.start < position + 1 then
      if (← buffer.charBefore? (position + 1)) != '\n' then buffer.lineStart? position
      else return position + 1
    else return position + 1

/-- The end of the line, going at most `room` characters on, `none` if a character is missing. -/
def lineEndWithin? (buffer : Buffer) : Nat → Nat → Option Nat
  | 0, position => some position
  | room + 1, position => do
    if (← buffer.charAfter? position) != '\n' then buffer.lineEndWithin? room (position + 1)
    else return position

/-- The end of the accessible line around a position, `none` if a character is missing. -/
def lineEnd? (buffer : Buffer) (position : Nat) : Option Nat :=
  buffer.lineEndWithin? (buffer.finish - position) position

/-- The characters between two positions, `none` if some of them are missing. -/
def slice? (buffer : Buffer) (low high : Nat) : Option (List Char) :=
  if 1 ≤ low ∧ low ≤ high ∧ high ≤ buffer.textEnd then some (buffer.slice low high) else none

/-- The column of a position in its accessible line, `none` if a character is missing. -/
def columnAt? (buffer : Buffer) (position : Nat) : Option Nat := do
  let chars ← buffer.slice? (← buffer.lineStart? position) position
  return chars.foldl nextColumn 0

namespace Ordered

variable (hordered : buffer.Ordered)

include hordered

/-- Behind the start of the accessible part there is a character before each position. -/
theorem charBefore?_eq {position : Nat} (hlow : buffer.start < position)
    (hhigh : position ≤ buffer.finish) : ∃ c, buffer.text[position - 2]? = some c ∧
      buffer.charBefore? position = some c := by
  have hstart := hordered.start_pos
  have hfinish : buffer.finish ≤ buffer.text.size + 1 := hordered.finish_le
  have hindex : position - 2 < buffer.text.size := by omega
  have hchar := Array.getElem?_eq_getElem hindex
  refine ⟨_, hchar, ?_⟩
  unfold charBefore?
  rw [if_pos (by omega), hchar]

/-- Before the end of the accessible part there is a character after each position. -/
theorem charAfter?_eq {position : Nat} (hlow : buffer.start ≤ position)
    (hhigh : position < buffer.finish) : ∃ c, buffer.text[position - 1]? = some c ∧
      buffer.charAfter? position = some c := by
  have hstart := hordered.start_pos
  have hfinish : buffer.finish ≤ buffer.text.size + 1 := hordered.finish_le
  have hindex : position - 1 < buffer.text.size := by omega
  have hchar := Array.getElem?_eq_getElem hindex
  refine ⟨_, hchar, ?_⟩
  unfold charAfter?
  rw [if_pos (by omega), hchar]

theorem lineStart?_eq {position : Nat} (hlow : buffer.start ≤ position)
    (hhigh : position ≤ buffer.finish) :
    buffer.lineStart? position = some (buffer.lineStart position) ∧
      buffer.start ≤ buffer.lineStart position ∧ buffer.lineStart position ≤ position := by
  induction position with
  | zero =>
    have hstart := hordered.start_pos
    omega
  | succ position ih =>
    unfold lineStart? lineStart
    by_cases hbehind : buffer.start < position + 1
    · obtain ⟨c, hchar, hbefore⟩ := hordered.charBefore?_eq hbehind hhigh
      have hplace : position + 1 - 2 = position - 1 := by omega
      rw [hplace] at hchar
      rw [if_pos hbehind, hbefore, hchar]
      by_cases hline : c = '\n'
      · simpa [hline] using hlow
      · obtain ⟨hsame, hstart, hend⟩ := ih (by omega) (by omega)
        simpa [hline, hbehind, hsame] using ⟨hstart, Nat.le_succ_of_le hend⟩
    · simpa [hbehind] using hlow

theorem lineEndWithin?_eq {room position : Nat} (hlow : buffer.start ≤ position)
    (hhigh : position + room ≤ buffer.finish) :
    buffer.lineEndWithin? room position = some (buffer.lineEndWithin room position) ∧
      position ≤ buffer.lineEndWithin room position ∧
      buffer.lineEndWithin room position ≤ position + room := by
  induction room generalizing position with
  | zero => exact ⟨rfl, Nat.le_refl _, Nat.le_refl _⟩
  | succ room ih =>
    obtain ⟨c, hchar, hafter⟩ := hordered.charAfter?_eq hlow (by omega)
    unfold lineEndWithin? lineEndWithin
    rw [hafter, hchar]
    by_cases hline : c = '\n'
    · simp [hline]
    · have hnext : position + 1 + room ≤ buffer.finish := by omega
      obtain ⟨hsame, hstart, hend⟩ := ih (Nat.le_add_right_of_le hlow) hnext
      simpa [hline, hsame] using And.intro (Nat.le_of_succ_le hstart) (by omega)

theorem slice?_eq {low high : Nat} (hlow : buffer.start ≤ low) (hle : low ≤ high)
    (hhigh : high ≤ buffer.finish) : buffer.slice? low high = some (buffer.slice low high) :=
  if_pos ⟨Nat.le_trans hordered.start_pos hlow, hle, Nat.le_trans hhigh hordered.finish_le⟩

theorem columnAt?_eq {position : Nat} (hlow : buffer.start ≤ position)
    (hhigh : position ≤ buffer.finish) :
    buffer.columnAt? position = some (buffer.columnAt position) := by
  obtain ⟨hline, hstart, hend⟩ := hordered.lineStart?_eq hlow hhigh
  unfold columnAt? columnAt
  rw [hline]
  change (buffer.slice? (buffer.lineStart position) position).bind _ = _
  rw [hordered.slice?_eq hstart hend hhigh]
  rfl

theorem lineEnd?_eq {position : Nat} (hlow : buffer.start ≤ position)
    (hhigh : position ≤ buffer.finish) :
    buffer.lineEnd? position = some (buffer.lineEnd position) :=
  (hordered.lineEndWithin?_eq hlow (by omega)).1

/-- In the accessible part each position but the last has a character after it. -/
theorem charAt?_eq {position : Nat} (hlow : buffer.start ≤ position)
    (hhigh : position < buffer.finish) :
    ∃ c, buffer.charAfter? position = some c ∧ buffer.charAt? position = some c := by
  obtain ⟨c, hchar, hafter⟩ := hordered.charAfter?_eq hlow hhigh
  refine ⟨c, hafter, ?_⟩
  unfold charAt?
  rw [if_pos (by simp [hlow, hhigh]), hchar]

end Ordered

/-- For positions in the accessible part every reader that checks its accesses to the text gives
what the reader that does not check them gives. -/
structure ReadsInside (buffer : Buffer) : Prop where
  lineStart : ∀ position, buffer.start ≤ position → position ≤ buffer.finish →
    buffer.lineStart? position = some (buffer.lineStart position)
  lineEnd : ∀ position, buffer.start ≤ position → position ≤ buffer.finish →
    buffer.lineEnd? position = some (buffer.lineEnd position)
  column : ∀ position, buffer.start ≤ position → position ≤ buffer.finish →
    buffer.columnAt? position = some (buffer.columnAt position)
  char : ∀ position, buffer.start ≤ position → position < buffer.finish →
    ∃ c, buffer.charAfter? position = some c ∧ buffer.charAt? position = some c
  slice : ∀ low high, buffer.start ≤ low → low ≤ high → high ≤ buffer.finish →
    buffer.slice? low high = some (buffer.slice low high)

theorem Ordered.readsInside (hordered : buffer.Ordered) : buffer.ReadsInside where
  lineStart _ hlow hhigh := (hordered.lineStart?_eq hlow hhigh).1
  lineEnd _ hlow hhigh := hordered.lineEnd?_eq hlow hhigh
  column _ hlow hhigh := hordered.columnAt?_eq hlow hhigh
  char _ hlow hhigh := hordered.charAt?_eq hlow hhigh
  slice _ _ hlow hle hhigh := hordered.slice?_eq hlow hle hhigh

end Buffer

/-- Two positions that are accepted as a region lie in the accessible part, in order. -/
theorem Storage.regionArguments_eq_ok {start finish : Value} {store after : Store} {low high : Nat}
    (hrun : regionArguments start finish store = .ok (low, high) after) :
    after.buffers.current.start ≤ low ∧ low ≤ high ∧ high ≤ after.buffers.current.finish := by
  obtain ⟨a, first, -, hrun⟩ := Action.bind_eq_ok hrun
  obtain ⟨b, second, -, hrun⟩ := Action.bind_eq_ok hrun
  obtain ⟨buffer, third, hbuffer, hrun⟩ := Action.bind_eq_ok hrun
  cases hbuffer
  split_ifs at hrun with hrange
  · obtain ⟨_, _, hstop, -⟩ := Action.bind_eq_ok hrun
    cases hstop
  · cases hrun
    omega

/-! ### Markers and the lists of the buffers -/

/-- A marker that points into a buffer stands once in its list and in no other. -/
theorem Tracked.count_markers {heap : Heap} {buffers : BufferStore}
    (htracked : Tracked heap buffers) {address index position : Nat}
    (hattached : heap.attachment? address = some (index, position)) (other : Nat) :
    (buffers.get other).markers.count address = if other = index then 1 else 0 := by
  split_ifs with hsame
  · subst hsame
    have hmem := (htracked.listed address other).mpr ⟨position, hattached⟩
    exact List.count_eq_one_of_mem (htracked.once other) hmem
  · refine List.count_eq_zero.mpr fun hmem ↦ hsame ?_
    obtain ⟨place, hplace⟩ := (htracked.listed address other).mp hmem
    rw [hattached] at hplace
    cases hplace
    rfl

/-- The buffer that a marker points into exists. -/
theorem Tracked.hasBuffer {store : Store} (htracked : Tracked store.heap store.buffers)
    {address index position : Nat}
    (hattached : store.heap.attachment? address = some (index, position)) :
    store.HasBuffer index := by
  have hmem := (htracked.listed address index).mpr ⟨position, hattached⟩
  by_contra hnone
  rw [BufferStore.get_of_size_le (Nat.le_of_not_lt hnone)] at hmem
  cases hmem

/-! ### The buffers of a machine that is reached -/

namespace Machine.Reached

variable {machine : Machine} {held : List Value}

/-- The buffers are in order. In a machine that is reached,

1. in every buffer, `1 ≤ start ≤ point ≤ finish ≤ textEnd`;
2. there is a current buffer, the objects that stand for buffers stand for buffers that exist, and
   no two buffers share a name;
3. a marker that points into a buffer points to a position of its text, and stands exactly once in
   the list of that buffer and in no other list, and the lists hold nothing else;
4. so the readers of a buffer never go outside the text. They are given the point, which is in the
   accessible part, or a region, which is accepted only if it lies in the accessible part. -/
theorem buffers_in_order (hreached : machine.Reached held) :
    (∀ buffer ∈ machine.buffers.buffers,
      1 ≤ buffer.start ∧ buffer.start ≤ buffer.point ∧ buffer.point ≤ buffer.finish ∧
        buffer.finish ≤ buffer.textEnd) ∧
      (machine.toStore.HasBuffer machine.buffers.currentIndex ∧
        (∀ (address index : Nat), machine.heap.objects[address]? = some (.buffer index) →
          machine.toStore.HasBuffer index) ∧
        (machine.buffers.buffers.toList.map Buffer.name).Nodup) ∧
      ((∀ (address index position : Nat),
          machine.heap.objects[address]? = some (.marker ⟨some index, position⟩) →
          machine.toStore.HasBuffer index ∧
            1 ≤ position ∧ position ≤ (machine.buffers.get index).textEnd ∧
            ∀ other, (machine.buffers.get other).markers.count address =
              if other = index then 1 else 0) ∧
        ∀ index, ∀ address ∈ (machine.buffers.get index).markers, ∃ position,
          machine.heap.objects[address]? = some (.marker ⟨some index, position⟩)) ∧
      (∀ buffer ∈ machine.buffers.buffers, buffer.ReadsInside) ∧
      ∀ start finish after low high,
        regionArguments start finish machine.toStore = .ok (low, high) after →
        after.buffers.current.start ≤ low ∧ low ≤ high ∧
          high ≤ after.buffers.current.finish := by
  obtain ⟨hsound, -⟩ := hreached.sound
  have hordered := hsound.store.buffers.ordered
  have htracked := hsound.store.tracked
  refine ⟨fun buffer hmem ↦ ?_, ⟨?_, ?_, hsound.store.buffers.distinct⟩, ⟨?_, ?_⟩, ?_, ?_⟩
  · obtain ⟨hstart, hpoint, hfinish, hend⟩ := hordered buffer hmem
    exact ⟨hstart, hpoint, hfinish, hend⟩
  · exact hsound.store.current hsound.scratch
  · intro address index hobject
    exact hsound.store.objects _ (Array.mem_of_getElem? hobject)
  · intro address index position hmarker
    have hattached := Heap.attachment?_eq_some.mpr hmarker
    exact ⟨htracked.hasBuffer hattached, (htracked.placed hattached).1,
      (htracked.placed hattached).2, htracked.count_markers hattached⟩
  · intro index address hmem
    obtain ⟨position, hattached⟩ := (htracked.listed address index).mp hmem
    exact ⟨position, Heap.attachment?_eq_some.mp hattached⟩
  · exact fun buffer hmem ↦ (hordered buffer hmem).readsInside
  · exact fun _ _ _ _ _ hrun ↦ regionArguments_eq_ok hrun

/-- A program that inserts text and narrows the buffer to a part of it has been loaded and run. -/
theorem buffers_in_order_after_narrowing :
    let machine := Machine.afterProgram
      (.mk none (.bytes #[192, 99, 136, 193, 194, 125, 135]) [.string "abc", .int 2, .int 3] none
        none []) 9
    ∃ held, machine.Reached held ∧ machine.toStore.HasBuffer machine.buffers.currentIndex ∧
      (machine.buffers.buffers.toList.map Buffer.name).Nodup ∧
      ∀ buffer ∈ machine.buffers.buffers,
        (1 ≤ buffer.start ∧ buffer.start ≤ buffer.point ∧ buffer.point ≤ buffer.finish ∧
          buffer.finish ≤ buffer.textEnd) ∧ buffer.ReadsInside := by
  obtain ⟨held, hreached⟩ := afterProgram _ _
  obtain ⟨hordered, ⟨hcurrent, -, hnames⟩, -, hreads, -⟩ := buffers_in_order hreached
  exact ⟨held, hreached, hcurrent, hnames,
    fun buffer hmem ↦ ⟨hordered buffer hmem, hreads buffer hmem⟩⟩

end Machine.Reached

end LispMachine
