import LispMachine.Primitive.Editing
import LispMachine.Proofs.Buffer.Text
import LispMachine.Proofs.Store.Applied

/-!
Moving by lines. Both directions are scans that go one character at a time and count the ends of
lines that they cross, so each is described by an induction on the room that is left: a scan stops
right behind the end of a line that it was looking for, with nothing missing, or at the end of the
room, with as many missing as the text between has too few (`LandsForward`, `LandsBackward`). Going
backward looks for one end of a line more than there are lines to go, because the present line has
to be left first; that end is not crossed when it is found. The main statement,
`moveByLines_lands`, says where the point is after a motion and what the motion gives, in terms of
the ends of lines between two positions (`Buffer.lineEnds`) alone.
-/

set_option autoImplicit false

namespace LispMachine

open Storage

namespace Buffer

/-! ### Ends of lines -/

/-- How many ends of lines are between two positions. -/
def lineEnds (buffer : Buffer) (low high : Nat) : Nat := (buffer.slice low high).count '\n'

variable {buffer : Buffer}

theorem lineEnds_self (position : Nat) : buffer.lineEnds position position = 0 := by
  unfold lineEnds
  rw [slice_eq_nil buffer (Nat.le_refl _), List.count_nil]

theorem lineEnds_append {low middle high : Nat} (hlow : low ≤ middle) (hhigh : middle ≤ high)
    (hend : middle ≤ buffer.textEnd) :
    buffer.lineEnds low high = buffer.lineEnds low middle + buffer.lineEnds middle high := by
  unfold lineEnds
  rw [← List.count_append, slice_append buffer hlow hhigh hend]

/-- The character behind a position is the end of a line or not. -/
theorem lineEnds_succ {position : Nat} (hpos : 1 ≤ position) (hstart : buffer.start ≤ position)
    (hfinish : position < buffer.finish) :
    buffer.lineEnds position (position + 1) =
      if buffer.charAt? position = some '\n' then 1 else 0 := by
  have hslice : buffer.slice position (position + 1) = (buffer.charAt? position).toList := by
    have hchar : buffer.charAt? position = buffer.text[position - 1]? := by
      unfold charAt?
      simp [hstart, hfinish]
    apply List.ext_getElem?
    intro place
    rw [getElem?_slice, hchar]
    cases place with
    | zero =>
      rw [if_pos (by omega)]
      cases buffer.text[position - 1]? <;> rfl
    | succ place =>
      rw [if_neg (by omega)]
      cases buffer.text[position - 1]? <;> rfl
  unfold lineEnds
  rw [hslice]
  cases buffer.charAt? position with
  | none => rfl
  | some c => by_cases hc : c = '\n' <;> simp [hc]

/-! ### Scans -/

/-- Where a scan forward for a number of ends of lines stops, and how many it misses. -/
inductive LandsForward (buffer : Buffer) (position wanted : Nat) : Nat × Nat → Prop where
  /-- Right behind the last of them. -/
  | behind {place : Nat} (hfront : position ≤ place) (hfinish : place ≤ buffer.finish)
      (hcount : buffer.lineEnds position place = wanted)
      (hbehind : position < place → buffer.charAt? (place - 1) = some '\n') :
      LandsForward buffer position wanted (place, 0)
  /-- At the end of the accessible part, which has fewer. -/
  | atFinish {missing : Nat} (hmissing : 0 < missing)
      (hcount : buffer.lineEnds position buffer.finish + missing = wanted) :
      LandsForward buffer position wanted (buffer.finish, missing)

/-- Where a scan backward for a number of ends of lines stops, and how many it misses. The last one
that it finds is not crossed. -/
inductive LandsBackward (buffer : Buffer) (position wanted : Nat) : Nat × Nat → Prop where
  /-- Right behind the last of them. -/
  | behind {place : Nat} (hstart : buffer.start ≤ place) (hback : place ≤ position)
      (hcount : buffer.lineEnds place position + 1 = wanted)
      (hbehind : buffer.charAt? (place - 1) = some '\n') :
      LandsBackward buffer position wanted (place, 0)
  /-- At the start of the accessible part, before which there are fewer. -/
  | atStart {missing : Nat} (hmissing : 0 < missing)
      (hcount : buffer.lineEnds buffer.start position + missing = wanted) :
      LandsBackward buffer position wanted (buffer.start, missing)

namespace Ordered

variable (hordered : buffer.Ordered)

include hordered

/-- A character is crossed before a scan forward goes on. -/
theorem cross_forward {position wanted : Nat} {landing : Nat × Nat}
    (hlands : buffer.LandsForward (position + 1) wanted landing)
    (hstart : buffer.start ≤ position) (hfinish : position < buffer.finish)
    (hwanted : 0 < wanted + buffer.lineEnds position (position + 1)) :
    buffer.LandsForward position (wanted + buffer.lineEnds position (position + 1)) landing := by
  have hpos := Nat.le_trans hordered.start_pos hstart
  have hcross {high : Nat} (hhigh : position + 1 ≤ high) :
      buffer.lineEnds position high =
        buffer.lineEnds position (position + 1) + buffer.lineEnds (position + 1) high :=
    lineEnds_append (Nat.le_succ position) hhigh (Nat.le_trans hfinish hordered.finish_le)
  cases hlands with
  | @behind place hfront hplace hcount hbehind =>
    refine .behind (Nat.le_of_succ_le hfront) hplace ?_ fun _ ↦ ?_
    · rw [hcross hfront, hcount, Nat.add_comm]
    · rcases Nat.eq_or_lt_of_le hfront with rfl | hlater
      · -- nothing else is crossed, so the character is what was wanted
        rw [lineEnds_self] at hcount
        rw [← hcount, Nat.zero_add, lineEnds_succ hpos hstart hfinish] at hwanted
        split_ifs at hwanted with hend
        · exact hend
        · exact absurd hwanted (Nat.lt_irrefl 0)
      · exact hbehind hlater
  | atFinish hmissing hcount =>
    refine .atFinish hmissing ?_
    rw [hcross hfinish]
    omega

theorem linesForward_lands {room wanted position : Nat} (hstart : buffer.start ≤ position)
    (hroom : position + room = buffer.finish) :
    buffer.LandsForward position wanted (buffer.linesForward room wanted position) := by
  induction room generalizing wanted position with
  | zero =>
    unfold linesForward
    obtain rfl : position = buffer.finish := hroom
    rcases Nat.eq_zero_or_pos wanted with rfl | hwanted
    · exact .behind (Nat.le_refl _) (Nat.le_refl _) (lineEnds_self _) (absurd · (Nat.lt_irrefl _))
    · exact .atFinish hwanted (by rw [lineEnds_self, Nat.zero_add])
  | succ room ih =>
    have hfinish : position < buffer.finish := by omega
    have hrest (wanted : Nat) : buffer.LandsForward (position + 1) wanted
        (buffer.linesForward room wanted (position + 1)) :=
      ih (Nat.le_succ_of_le hstart) (by omega)
    have hcrossed := lineEnds_succ (Nat.le_trans hordered.start_pos hstart) hstart hfinish
    unfold linesForward
    split_ifs with hnone hend
    · exact .behind (Nat.le_refl _) (Nat.le_of_lt hfinish) (hnone ▸ lineEnds_self _)
        (absurd · (Nat.lt_irrefl _))
    · rw [if_pos hend] at hcrossed
      have hcross := hordered.cross_forward (hrest (wanted - 1)) hstart hfinish (by omega)
      rwa [hcrossed, Nat.sub_add_cancel (Nat.pos_of_ne_zero hnone)] at hcross
    · rw [if_neg hend] at hcrossed
      have hcross := hordered.cross_forward (hrest wanted) hstart hfinish (by omega)
      rwa [hcrossed] at hcross

/-- A character is crossed before a scan backward goes on. -/
theorem cross_backward {position wanted : Nat} {landing : Nat × Nat}
    (hlands : buffer.LandsBackward position wanted landing)
    (hstart : buffer.start ≤ position) (hfinish : position < buffer.finish) :
    buffer.LandsBackward (position + 1) (wanted + buffer.lineEnds position (position + 1))
      landing := by
  have hcross {low : Nat} (hlow : low ≤ position) :
      buffer.lineEnds low (position + 1) =
        buffer.lineEnds low position + buffer.lineEnds position (position + 1) :=
    lineEnds_append hlow (Nat.le_succ position)
      (Nat.le_trans (Nat.le_of_lt hfinish) hordered.finish_le)
  cases hlands with
  | behind hplace hback hcount hbehind =>
    refine .behind hplace (Nat.le_succ_of_le hback) ?_ hbehind
    rw [hcross hback]
    omega
  | atStart hmissing hcount =>
    refine .atStart hmissing ?_
    rw [hcross hstart]
    omega

theorem linesBackward_lands {room wanted position : Nat} (hwanted : 0 < wanted)
    (hroom : buffer.start + room = position) (hfinish : position ≤ buffer.finish) :
    buffer.LandsBackward position wanted (buffer.linesBackward room wanted position) := by
  induction room generalizing wanted position with
  | zero =>
    unfold linesBackward
    obtain rfl : buffer.start = position := hroom
    exact .atStart hwanted (by rw [lineEnds_self, Nat.zero_add])
  | succ room ih =>
    obtain rfl : position = buffer.start + room + 1 := hroom.symm
    have hstart : buffer.start ≤ buffer.start + room := Nat.le_add_right _ _
    have hrest {wanted : Nat} (hwanted : 0 < wanted) :=
      ih hwanted rfl (Nat.le_of_succ_le hfinish)
    have hcrossed := lineEnds_succ (Nat.le_trans hordered.start_pos hstart) hstart hfinish
    unfold linesBackward
    rw [Nat.add_sub_cancel]
    split_ifs with hend hlast
    · refine .behind (Nat.le_succ_of_le hstart) (Nat.le_refl _) ?_ hend
      rw [lineEnds_self, hlast]
    · rw [if_pos hend] at hcrossed
      have hmore : 0 < wanted - 1 := by omega
      have hcross := hordered.cross_backward (hrest hmore) hstart hfinish
      rwa [hcrossed, Nat.sub_add_cancel hwanted] at hcross
    · rw [if_neg hend] at hcrossed
      have hcross := hordered.cross_backward (hrest hwanted) hstart hfinish
      rwa [hcrossed] at hcross

/-- Zero or a negative count goes back. -/
theorem moveLines_of_nonpos {count : Int} (hcount : count ≤ 0) :
    ∃ place missing, buffer.moveLines count buffer.point = (place, missing) ∧
      buffer.start ≤ place ∧ place ≤ buffer.point ∧
      (place = buffer.start ∨ buffer.charAt? (place - 1) = some '\n') ∧
      missing ≤ 0 ∧
      (buffer.lineEnds place buffer.point : Int) = count.natAbs - missing.natAbs ∧
      (missing < 0 → place = buffer.start) := by
  have hwanted : 0 < (1 - count).toNat := by omega
  have hlands := hordered.linesBackward_lands hwanted
    (Nat.add_sub_cancel' hordered.start_le) hordered.point_le
  have hmoved : buffer.moveLines count buffer.point =
      ((buffer.linesBackward (buffer.point - buffer.start) (1 - count).toNat buffer.point).1,
        -(((buffer.linesBackward (buffer.point - buffer.start) (1 - count).toNat
          buffer.point).2 - 1 : Nat) : Int)) :=
    if_neg (Int.not_lt.mpr hcount)
  rw [hmoved]
  generalize buffer.linesBackward _ _ _ = landing at hlands
  cases hlands with
  | @behind place hstart hback hfound hbehind =>
    exact ⟨place, 0, rfl, hstart, hback, .inr hbehind, Int.le_refl 0, by omega,
      (absurd · (Int.lt_irrefl 0))⟩
  | @atStart missing hmissing hfound =>
    exact ⟨buffer.start, _, rfl, Nat.le_refl _, hordered.start_le, .inl rfl, by omega, by omega,
      fun _ ↦ rfl⟩

/-- A positive count goes forward. -/
theorem moveLines_of_pos {count : Int} (hcount : 0 < count) :
    ∃ place missing, buffer.moveLines count buffer.point = (place, missing) ∧
      buffer.point ≤ place ∧ place ≤ buffer.finish ∧
      (count ≤ buffer.lineEnds buffer.point buffer.finish →
        buffer.point < place ∧ buffer.lineEnds buffer.point place = count ∧
        buffer.charAt? (place - 1) = some '\n' ∧ missing = 0) ∧
      (buffer.lineEnds buffer.point buffer.finish < count →
        place = buffer.finish ∧
        missing = count - buffer.lineEnds buffer.point buffer.finish -
          if buffer.point < place ∧ buffer.charAt? (place - 1) ≠ some '\n' then 1 else 0) := by
  have hlands : buffer.LandsForward buffer.point count.toNat
      (buffer.linesForward (buffer.finish - buffer.point) count.toNat buffer.point) :=
    hordered.linesForward_lands hordered.start_le (Nat.add_sub_cancel' hordered.point_le)
  unfold moveLines
  rw [if_pos hcount]
  generalize buffer.linesForward _ _ _ = landing at hlands
  cases hlands with
  | @behind place hfront hplace hfound hbehind =>
    have hahead : buffer.point < place := by
      refine Nat.lt_of_le_of_ne hfront ?_
      rintro rfl
      rw [lineEnds_self] at hfound
      omega
    have hall := lineEnds_append hfront hplace (Nat.le_trans hplace hordered.finish_le)
    refine ⟨place, 0, rfl, hfront, hplace, fun _ ↦ ?_, fun hfew ↦ by omega⟩
    exact ⟨hahead, by omega, hbehind hahead, rfl⟩
  | @atFinish missing hmissing hfound =>
    refine ⟨buffer.finish, _, rfl, hordered.point_le, Nat.le_refl _, fun hmany ↦ by omega,
      fun _ ↦ ⟨rfl, ?_⟩⟩
    have hleft : (missing : Int) = count - buffer.lineEnds buffer.point buffer.finish := by omega
    have hpartial : (0 < missing && buffer.start < buffer.finish && buffer.finish != buffer.point &&
          buffer.charAt? (buffer.finish - 1) != some '\n') = true ↔
        buffer.point < buffer.finish ∧ buffer.charAt? (buffer.finish - 1) ≠ some '\n' := by
      simp only [Bool.and_eq_true, decide_eq_true_eq, bne_iff_ne]
      constructor
      · rintro ⟨⟨-, hmoved⟩, hlast⟩
        exact ⟨Nat.lt_of_le_of_ne hordered.point_le hmoved.symm, hlast⟩
      · rintro ⟨hmoved, hlast⟩
        have hroom := Nat.lt_of_le_of_lt hordered.start_le hmoved
        exact ⟨⟨⟨hmissing, hroom⟩, Nat.ne_of_gt hmoved⟩, hlast⟩
    rw [hleft]
    simp only [hpartial]

end Ordered

end Buffer

theorem Buffer.setPoint_eq {buffer : Buffer} {position : Nat} (hstart : buffer.start ≤ position)
    (hfinish : position ≤ buffer.finish) :
    buffer.setPoint position = { buffer with point := position } := by
  have hplace : clampBetween buffer.start buffer.finish position = position := by
    unfold clampBetween
    rw [if_neg (Nat.not_lt.mpr hstart), if_neg (Nat.not_lt.mpr hfinish)]
  unfold setPoint
  rw [hplace]

/-- Moving by lines. From a buffer that is in order the motion moves its point within the accessible
part and does nothing else; it always comes to an end, and as a primitive it gives the same number.

* Zero or a negative count goes back to the start of the accessible part or right behind the end of
  a line. The ends of lines that are crossed are as many as the count says without what is missing,
  and something is missing only at the start of the accessible part.
* A positive count for which there are enough ends of lines goes right behind the last of them, and
  nothing is missing.
* Otherwise the motion goes to the end of the accessible part, and the ends of lines that were not
  there are missing, less one if the last character that was crossed does not end a line. -/
theorem moveByLines_lands {store : Store} (hordered : store.buffers.current.Ordered)
    (count : Int) :
    let buffer := store.buffers.current
    let moved (place : Nat) : Store :=
      { store with
        buffers := store.buffers.updateCurrent fun buffer ↦ { buffer with point := place } }
    ∃ (place : Nat) (missing : Int),
      moveByLines count store = .ok missing (moved place) ∧
      forwardLine (.fixnum count) store = .ok (.ofInt missing) (moved place) ∧
      (buffer.start ≤ place ∧ place ≤ buffer.finish) ∧
      (count ≤ 0 →
        place ≤ buffer.point ∧
        (place = buffer.start ∨ buffer.charAt? (place - 1) = some '\n') ∧
        missing ≤ 0 ∧
        (buffer.lineEnds place buffer.point : Int) = count.natAbs - missing.natAbs ∧
        (missing < 0 → place = buffer.start)) ∧
      (0 < count → count ≤ buffer.lineEnds buffer.point buffer.finish →
        buffer.point < place ∧ buffer.lineEnds buffer.point place = count ∧
        buffer.charAt? (place - 1) = some '\n' ∧ missing = 0) ∧
      (0 < count → buffer.lineEnds buffer.point buffer.finish < count →
        place = buffer.finish ∧
        missing = count - buffer.lineEnds buffer.point buffer.finish -
          if buffer.point < place ∧ buffer.charAt? (place - 1) ≠ some '\n' then 1 else 0) := by
  intro buffer moved
  have hruns {place : Nat} {missing : Int}
      (hmoves : buffer.moveLines count buffer.point = (place, missing))
      (hstart : buffer.start ≤ place) (hfinish : place ≤ buffer.finish) :
      moveByLines count store = .ok missing (moved place) ∧
        forwardLine (.fixnum count) store = .ok (.ofInt missing) (moved place) := by
    have hrun : moveByLines count store = .ok missing (moved place) := by
      have hpoint : store.buffers.updateCurrent (·.setPoint place) = (moved place).buffers :=
        BufferStore.update_congr (Buffer.setPoint_eq hstart hfinish)
      change EStateM.Result.ok (buffer.moveLines count buffer.point).2 { store with
        buffers := store.buffers.updateCurrent
          (·.setPoint (buffer.moveLines count buffer.point).1) } = _
      rw [hmoves, hpoint]
    have hprimitive : forwardLine (.fixnum count) store =
        (do return .ofInt (← moveByLines count) : Storage Value) store := rfl
    exact ⟨hrun, hprimitive.trans (Action.bind_of_ok hrun)⟩
  by_cases hforward : 0 < count
  · obtain ⟨place, missing, hmoves, hpoint, hfinish, henough, hfew⟩ :=
      hordered.moveLines_of_pos hforward
    have hstart := Nat.le_trans hordered.start_le hpoint
    obtain ⟨hrun, hprimitive⟩ := hruns hmoves hstart hfinish
    exact ⟨place, missing, hrun, hprimitive, ⟨hstart, hfinish⟩,
      fun hnone ↦ absurd hforward (Int.not_lt.mpr hnone), fun _ ↦ henough, fun _ ↦ hfew⟩
  · obtain ⟨place, missing, hmoves, hstart, hpoint, hback⟩ :=
      hordered.moveLines_of_nonpos (Int.not_lt.mp hforward)
    have hfinish := Nat.le_trans hpoint hordered.point_le
    obtain ⟨hrun, hprimitive⟩ := hruns hmoves hstart hfinish
    exact ⟨place, missing, hrun, hprimitive, ⟨hstart, hfinish⟩, fun _ ↦ ⟨hpoint, hback⟩,
      (absurd · hforward), (absurd · hforward)⟩

/-- The last two lines of the text are accessible, and the point is at the start of the first of
them. Of three lines one is missing, as the last line counts, though it has no end. -/
theorem moveByLines_lands_last :
    let buffer : Buffer :=
      { name := "*scratch*", text := #['a', '\n', 'b', '\n', 'c'], point := 3, start := 3
        finish := 6, object := .nil }
    let store : Store := { heap := Heap.empty 1, buffers := { buffers := #[buffer] } }
    store.buffers.current.Ordered ∧
      moveByLines 3 store = .ok 1 { store with
        buffers := store.buffers.updateCurrent fun buffer ↦ { buffer with point := 6 } } := by
  intro buffer store
  have hordered : store.buffers.current.Ordered := by constructor <;> decide
  obtain ⟨place, missing, hrun, -, -, -, -, hfew⟩ := moveByLines_lands hordered 3
  have hends : store.buffers.current.lineEnds store.buffers.current.point
      store.buffers.current.finish = 1 := by decide
  obtain ⟨rfl, hmissing⟩ := hfew (by decide) (by rw [hends]; decide)
  have hone : missing = 1 := hmissing.trans (by rw [hends]; decide)
  rw [hone] at hrun
  exact ⟨hordered, hrun⟩

end LispMachine
