import LispMachine.Proofs.Store.Markers

/-!
The text between two positions, before and after a change. A slice is known by its characters
(`getElem?_slice`), and so is a changed text: characters before the point stay where they are when
something is inserted, those behind it move on (`getElem?_text_insert`), and a deletion takes the
characters behind it back (`getElem?_text_delete`). What becomes of a slice then depends on where
its two ends lie.
-/

set_option autoImplicit false

namespace LispMachine

/-! ### Where positions go -/

theorem shiftForInsertion_mono {place count first second : Nat} (hle : first ≤ second) :
    shiftForInsertion place count first ≤ shiftForInsertion place count second := by
  unfold shiftForInsertion
  split_ifs <;> omega

section Shifting

variable {low high : Nat} (hle : low ≤ high) {position : Nat}

include hle

theorem shiftForDeletion_before (hposition : position ≤ low) :
    shiftForDeletion low high position = position := by
  unfold shiftForDeletion
  rw [if_neg (by omega), if_neg (by omega)]

omit hle in
theorem shiftForDeletion_inside (hlow : low ≤ position) (hhigh : position ≤ high) :
    shiftForDeletion low high position = low := by
  unfold shiftForDeletion
  split_ifs <;> omega

theorem shiftForDeletion_behind (hposition : high ≤ position) :
    shiftForDeletion low high position = position - (high - low) := by
  unfold shiftForDeletion
  split_ifs <;> omega

omit hle in
theorem shiftForDeletion_self (place position : Nat) :
    shiftForDeletion place place position = position := by
  unfold shiftForDeletion
  split_ifs <;> omega

theorem le_shiftForDeletion (hposition : low ≤ position) :
    low ≤ shiftForDeletion low high position := by
  unfold shiftForDeletion
  split_ifs <;> omega

theorem shiftForDeletion_mono {first second : Nat} (hfirst : first ≤ second) :
    shiftForDeletion low high first ≤ shiftForDeletion low high second := by
  unfold shiftForDeletion
  split_ifs <;> omega

end Shifting

namespace Buffer

variable (buffer : Buffer)

/-! ### Slices -/

theorem getElem?_slice (low high place : Nat) :
    (buffer.slice low high)[place]? =
      if low - 1 + place < high - 1 then buffer.text[low - 1 + place]? else none := by
  unfold slice
  rw [Array.getElem?_toList, Array.getElem?_extract]
  split_ifs with hmin hhigh hhigh
  · rfl
  · omega
  · exact (Array.getElem?_eq_none (by omega)).symm
  · rfl

theorem slice_eq_nil {low high : Nat} (hle : high ≤ low) : buffer.slice low high = [] := by
  apply List.ext_getElem?
  intro place
  rw [getElem?_slice, if_neg (by omega)]
  rfl

theorem length_slice {low high : Nat} (hhigh : high ≤ buffer.textEnd) :
    (buffer.slice low high).length = high - 1 - (low - 1) := by
  unfold textEnd at hhigh
  unfold slice
  rw [Array.length_toList, Array.size_extract, Nat.min_eq_left (by omega)]

/-- Neighbouring slices make one slice. -/
theorem slice_append {low middle high : Nat} (hlow : low ≤ middle) (hhigh : middle ≤ high)
    (hend : middle ≤ buffer.textEnd) :
    buffer.slice low middle ++ buffer.slice middle high = buffer.slice low high := by
  apply List.ext_getElem?
  intro place
  rw [List.getElem?_append, length_slice buffer hend]
  simp only [getElem?_slice]
  by_cases hplace : place < middle - 1 - (low - 1)
  · rw [if_pos hplace, if_pos (by omega), if_pos (by omega)]
  · have hsame : middle - 1 + (place - (middle - 1 - (low - 1))) = low - 1 + place := by omega
    rw [if_neg hplace, hsame]

/-! ### Insertion -/

variable {buffer}

/-- The characters from a place of the text on. -/
theorem getElem?_extract_from (text : Array Char) (start place : Nat) :
    (text.extract start text.size)[place]? = text[start + place]? := by
  rw [Array.getElem?_extract, Nat.min_self]
  split_ifs with hplace
  · rfl
  · exact (Array.getElem?_eq_none (by omega)).symm

theorem getElem?_text_insert (hpoint : buffer.point ≤ buffer.textEnd) (chars : List Char)
    (place : Nat) :
    (buffer.insert chars).text[place]? =
      if place < buffer.point - 1 then buffer.text[place]?
      else if place < buffer.point - 1 + chars.length then chars[place - (buffer.point - 1)]?
      else buffer.text[place - chars.length]? := by
  unfold textEnd at hpoint
  have hfront : (buffer.text.extract 0 (buffer.point - 1)).size = buffer.point - 1 := by
    rw [Array.size_extract]
    omega
  have hmiddle : (buffer.text.extract 0 (buffer.point - 1) ++ chars.toArray).size =
      buffer.point - 1 + chars.length := by
    rw [Array.size_append, hfront, List.size_toArray]
  unfold insert
  dsimp only
  rw [Array.getElem?_append, hmiddle, Array.getElem?_append, hfront, getElem?_extract_from]
  by_cases hbefore : place < buffer.point - 1
  · rw [if_pos (by omega), if_pos hbefore, if_pos hbefore, Array.getElem?_extract,
      if_pos (by omega), Nat.zero_add]
  · rw [if_neg hbefore, if_neg hbefore, List.getElem?_toArray]
    split_ifs with hinside
    · rfl
    · have hsame : buffer.point - 1 + (place - (buffer.point - 1 + chars.length)) =
          place - chars.length := by omega
      rw [hsame]

theorem slice_insert_before (hpoint : buffer.point ≤ buffer.textEnd) (chars : List Char)
    {low high : Nat} (hhigh : high ≤ buffer.point) :
    (buffer.insert chars).slice low high = buffer.slice low high := by
  apply List.ext_getElem?
  intro place
  rw [getElem?_slice, getElem?_slice, getElem?_text_insert hpoint]
  split_ifs <;> first | rfl | omega

/-- The inserted text lies before the point, which has moved behind it. -/
theorem slice_insert_inserted (hpos : 1 ≤ buffer.point) (hpoint : buffer.point ≤ buffer.textEnd)
    (chars : List Char) :
    (buffer.insert chars).slice buffer.point (buffer.point + chars.length) = chars := by
  apply List.ext_getElem?
  intro place
  rw [getElem?_slice, getElem?_text_insert hpoint]
  by_cases hplace : place < chars.length
  · rw [if_pos (by omega), if_neg (by omega), if_pos (by omega), Nat.add_sub_cancel_left]
  · rw [if_neg (by omega), List.getElem?_eq_none (Nat.le_of_not_lt hplace)]

theorem slice_insert_behind (hpos : 1 ≤ buffer.point) (hpoint : buffer.point ≤ buffer.textEnd)
    (chars : List Char) {low high : Nat} (hlow : buffer.point ≤ low) :
    (buffer.insert chars).slice (low + chars.length) (high + chars.length) =
      buffer.slice low high := by
  apply List.ext_getElem?
  intro place
  rw [getElem?_slice, getElem?_slice, getElem?_text_insert hpoint]
  by_cases hplace : low - 1 + place < high - 1
  · have hsame : low + chars.length - 1 + place - chars.length = low - 1 + place := by omega
    rw [if_pos (by omega), if_neg (by omega), if_neg (by omega), if_pos hplace, hsame]
  · rw [if_neg (by omega), if_neg hplace]

/-- Inserted text comes between two positions when the point was at the lower one or behind it,
and before the upper one. -/
theorem slice_insert (hpos : 1 ≤ buffer.point) (hpoint : buffer.point ≤ buffer.textEnd)
    (chars : List Char) {low high : Nat} (hle : low ≤ high) (hend : high ≤ buffer.textEnd) :
    (buffer.insert chars).slice (shiftForInsertion buffer.point chars.length low)
        (shiftForInsertion buffer.point chars.length high) =
      if low ≤ buffer.point ∧ buffer.point < high then
        buffer.slice low buffer.point ++ chars ++ buffer.slice buffer.point high
      else buffer.slice low high := by
  unfold shiftForInsertion
  by_cases hlow : buffer.point < low
  · -- both positions lie behind the point
    rw [if_pos hlow, if_pos (by omega), if_neg (by omega)]
    exact slice_insert_behind hpos hpoint chars (Nat.le_of_lt hlow)
  · rw [if_neg hlow]
    by_cases hhigh : buffer.point < high
    · have htext := textEnd_insert buffer chars hpoint
      rw [if_pos hhigh, if_pos ⟨Nat.le_of_not_lt hlow, hhigh⟩,
        ← slice_append _ (Nat.le_of_not_lt hlow) (show buffer.point ≤ high + chars.length by omega)
          (by omega),
        ← slice_append _ (Nat.le_add_right buffer.point chars.length)
          (Nat.add_le_add_right (Nat.le_of_lt hhigh) _) (by omega),
        slice_insert_before hpoint chars (Nat.le_refl _), slice_insert_inserted hpos hpoint,
        slice_insert_behind hpos hpoint chars (Nat.le_refl _), List.append_assoc]
    · -- neither of them does
      rw [if_neg hhigh, if_neg (by omega)]
      exact slice_insert_before hpoint chars (Nat.le_of_not_lt hhigh)

/-! ### Deletion -/

theorem getElem?_text_delete {low high : Nat} (hlow : 1 ≤ low) (hle : low ≤ high)
    (hend : low ≤ buffer.textEnd) (place : Nat) :
    (buffer.delete low high).text[place]? =
      if place < low - 1 then buffer.text[place]?
      else buffer.text[place + (high - low)]? := by
  unfold textEnd at hend
  have hfront : (buffer.text.extract 0 (low - 1)).size = low - 1 := by
    rw [Array.size_extract]
    omega
  unfold delete
  dsimp only
  rw [Array.getElem?_append, hfront, getElem?_extract_from]
  by_cases hbefore : place < low - 1
  · rw [if_pos hbefore, if_pos hbefore, Array.getElem?_extract, if_pos (by omega), Nat.zero_add]
  · have hsame : high - 1 + (place - (low - 1)) = place + (high - low) := by omega
    rw [if_neg hbefore, if_neg hbefore, hsame]

section Deleting

variable {low high : Nat} (hlow : 1 ≤ low) (hle : low ≤ high) (hend : high ≤ buffer.textEnd)

include hlow hle hend

theorem slice_delete_before {first second : Nat} (hsecond : second ≤ low) :
    (buffer.delete low high).slice first second = buffer.slice first second := by
  apply List.ext_getElem?
  intro place
  rw [getElem?_slice, getElem?_slice, getElem?_text_delete hlow hle (Nat.le_trans hle hend)]
  split_ifs <;> first | rfl | omega

theorem slice_delete_behind {first second : Nat} (hfirst : high ≤ first) :
    (buffer.delete low high).slice (first - (high - low)) (second - (high - low)) =
      buffer.slice first second := by
  apply List.ext_getElem?
  intro place
  rw [getElem?_slice, getElem?_slice, getElem?_text_delete hlow hle (Nat.le_trans hle hend)]
  by_cases hplace : first - 1 + place < second - 1
  · have hsame : first - (high - low) - 1 + place + (high - low) = first - 1 + place := by omega
    rw [if_pos (by omega), if_neg (by omega), if_pos hplace, hsame]
  · rw [if_neg (by omega), if_neg hplace]

/-- What is left between two positions is what was between them before the deleted text and what
was between them behind it. -/
theorem slice_delete {first second : Nat} (hfirst : first ≤ second) :
    (buffer.delete low high).slice (shiftForDeletion low high first)
        (shiftForDeletion low high second) =
      buffer.slice first (min second low) ++ buffer.slice (max first high) second := by
  by_cases hbefore : second ≤ low
  · -- nothing is deleted between them, or behind the first one
    rw [shiftForDeletion_before hle hbefore,
      shiftForDeletion_before hle (Nat.le_trans hfirst hbefore), Nat.min_eq_left hbefore,
      slice_eq_nil buffer (show second ≤ max first high by omega), List.append_nil]
    exact slice_delete_before hlow hle hend hbefore
  rw [Nat.min_eq_right (Nat.le_of_not_le hbefore)]
  have hsecond : low ≤ shiftForDeletion low high second :=
    le_shiftForDeletion hle (Nat.le_of_not_le hbefore)
  have hrest : (buffer.delete low high).slice low (shiftForDeletion low high second) =
      buffer.slice high second := by
    by_cases hinside : second ≤ high
    · rw [shiftForDeletion_inside (Nat.le_of_not_le hbefore) hinside,
        slice_eq_nil _ (Nat.le_refl low), slice_eq_nil _ hinside]
    · have hback : high - (high - low) = low := Nat.sub_sub_self hle
      have hsame : (buffer.delete low high).slice (high - (high - low)) (second - (high - low)) =
          buffer.slice high second := slice_delete_behind hlow hle hend (Nat.le_refl high)
      rw [hback] at hsame
      rwa [shiftForDeletion_behind hle (Nat.le_of_not_le hinside)]
  rcases Nat.lt_or_ge low first with hfront | hfront
  · rw [slice_eq_nil buffer (Nat.le_of_lt hfront), List.nil_append]
    rcases Nat.le_total first high with hinside | hbehind
    · rw [shiftForDeletion_inside (Nat.le_of_lt hfront) hinside, hrest, Nat.max_eq_right hinside]
    · rw [shiftForDeletion_behind hle hbehind,
        shiftForDeletion_behind hle (Nat.le_trans hbehind hfirst), Nat.max_eq_left hbehind]
      exact slice_delete_behind hlow hle hend hbehind
  · have htext := textEnd_delete buffer hlow hle hend
    rw [shiftForDeletion_before hle hfront, Nat.max_eq_right (Nat.le_trans hfront hle),
      ← slice_append _ hfront hsecond (by omega),
      slice_delete_before hlow hle hend (Nat.le_refl low), hrest]

end Deleting

end Buffer

end LispMachine
