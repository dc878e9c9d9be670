import LispMachine.Proofs.OperandStack.BoundedList
import LispMachine.Proofs.Store.Applied

/-!
The slots of an operand stack and its values. `SlotStack.Holds` says which slots an operand stack
stands for: the array has one more slot than the stack can have values, the cursor is at the depth,
and the slots above the first hold the values from the bottom up and then what popped slots still
hold. Every command does the same to both (`SlotStack.Holds.obey`). A command fails on the slots
exactly when it fails on the stack, with the same fault, and the array and the cursor are then what
they were; only a need that is too great for a size stops it before.

The main statement is `SlotStack.reports_eq_boundedList`: as long as the cursor is never put above the
current depth and no need is too great to be counted, nobody who uses the slots can tell them from a
list with a bound on its length.
-/

set_option autoImplicit false

namespace LispMachine

open LispMachine.Action

/-! ### The contents of all slots -/

namespace OperandStack

variable {stack : OperandStack}

/-- What is in the slot at a place above the bottom: a value, or what was last stored there. -/
def content (stack : OperandStack) (place : Nat) : Value :=
  (stack.values ++ stack.spent).getD place .nil

theorem content_of_lt {place : Nat} (hplace : place < stack.depth) :
    stack.values[place]? = some (stack.content place) := by
  have hlength : place < stack.values.length := length_values.symm ▸ hplace
  rw [content, List.getD_eq_getElem?_getD, List.getElem?_append_left hlength,
    List.getElem?_eq_getElem hlength]
  rfl

theorem slot_eq_content {n : Nat} (hdepth : n < stack.depth) :
    stack.slot n = stack.content (stack.depth - (n + 1)) := by
  have hplace : stack.depth - (n + 1) < stack.depth := by omega
  rw [slot_eq_getD hdepth, List.getD_eq_getElem?_getD, length_values, content_of_lt hplace]
  rfl

theorem content_lower (n : Nat) : (stack.lower n).content = stack.content := by
  have hslots : (stack.lower n).values ++ (stack.lower n).spent = stack.values ++ stack.spent := by
    simp only [values, lower]
    rw [← List.append_assoc, ← List.reverse_append, List.take_append_drop]
  unfold content
  rw [hslots]

theorem content_extend (value : Value) (place : Nat) :
    (stack.extend value).content place =
      if place = stack.depth then value else stack.content place := by
  have hlength : stack.values.length = stack.depth := length_values
  have hspent : (stack.extend value).spent = stack.spent.tail := rfl
  simp only [content, values_extend, hspent, List.getD_eq_getElem?_getD]
  grind

theorem content_overwrite {n : Nat} (hdepth : n < stack.depth) (value : Value) (place : Nat) :
    (stack.overwrite n value).content place =
      if place = stack.depth - (n + 1) then value else stack.content place := by
  have hlength : stack.values.length = stack.depth := length_values
  have hspent : (stack.overwrite n value).spent = stack.spent := rfl
  simp only [content, values_overwrite hdepth, hspent, List.getD_eq_getElem?_getD, hlength]
  grind

theorem content_raise (n : Nat) : (stack.raise n).content = stack.content := by
  induction n generalizing stack with
  | zero => rfl
  | succ n ih =>
    rw [raise, ih]
    funext place
    simp only [content, values, List.getD_eq_getElem?_getD]
    cases stack.spent <;> grind

theorem content_atDepth (depth : Nat) : (stack.atDepth depth).content = stack.content := by
  unfold atDepth
  split_ifs
  · exact content_lower _
  · exact content_raise _

end OperandStack

namespace SlotStack

variable {slots : SlotStack}

/-! ### Actions -/

theorem read_of_eq_some {index : Size} {value : Value}
    (hslot : slots.slots[index.toNat]? = some value) : read index slots = .ok value slots := by
  change (sized slots.slots[index.toNat]? : SlotAction Value) slots = _
  rw [hslot]
  rfl

theorem write_of_lt {index : Size} (hindex : index.toNat < slots.slots.size) (value : Value) :
    write index value slots =
      .ok () { slots with slots := slots.slots.setIfInBounds index.toNat value } := by
  change (if _ then _ else _ : SlotAction Unit) slots = _
  rw [if_pos hindex]
  rfl

theorem exists_below {n : Size} (hdepth : n.toNat ≤ slots.cursor.toNat) :
    ∃ index, index.toNat = slots.cursor.toNat - n.toNat ∧ below n slots = .ok index slots := by
  obtain ⟨index, hindex, hvalue⟩ := Size.exists_of_le hdepth
  refine ⟨index, hvalue, ?_⟩
  change (sized (slots.cursor.subtract? n) : SlotAction Size) slots = _
  rw [hindex]
  rfl

theorem require_of_le {needed : Size} (hdepth : needed.toNat ≤ slots.cursor.toNat) :
    require needed slots = .ok () slots := by
  have hless : ¬ slots.cursor < needed := fun hless ↦
    absurd (UInt64.lt_iff_toNat_lt.mp hless) (Nat.not_lt.mpr hdepth)
  change (if _ then _ else _ : SlotAction Unit) slots = _
  rw [if_neg hless]
  rfl

theorem require_of_lt {needed : Size} (hdepth : slots.cursor.toNat < needed.toNat) :
    require needed slots =
      .error (.signal (.stackUnderflow slots.cursor.toNat needed.toNat)) slots := by
  change (if _ then _ else _ : SlotAction Unit) slots = _
  rw [if_pos (UInt64.lt_iff_toNat_lt.mpr hdepth)]
  rfl

theorem requireSlot_eq_require {n : Size} (hcounted : n.toNat + 1 < UInt64.size) :
    ∃ needed : Size, needed.toNat = n.toNat + 1 ∧ requireSlot n = require needed := by
  obtain ⟨needed, hneeded, hvalue⟩ := Size.exists_of_add_lt (m := n) (n := 1) hcounted
  refine ⟨needed, hvalue, ?_⟩
  unfold requireSlot
  rw [hneeded]
  rfl

theorem requireSlot_of_lt {n : Size} (hdepth : n.toNat < slots.cursor.toNat) :
    requireSlot n slots = .ok () slots := by
  have hcounted : n.toNat + 1 < UInt64.size := Nat.lt_of_le_of_lt hdepth slots.cursor.toNat_lt
  obtain ⟨needed, hvalue, hrequire⟩ := requireSlot_eq_require hcounted
  rw [hrequire]
  exact require_of_le (hvalue.trans_le hdepth)

theorem requireSlot_of_le {n : Size} (hcounted : n.toNat + 1 < UInt64.size)
    (hdepth : slots.cursor.toNat ≤ n.toNat) :
    requireSlot n slots =
      .error (.signal (.stackUnderflow slots.cursor.toNat (n.toNat + 1))) slots := by
  obtain ⟨needed, hvalue, hrequire⟩ := requireSlot_eq_require hcounted
  rw [hrequire, ← hvalue]
  exact require_of_lt (hvalue ▸ Nat.lt_succ_of_le hdepth)

theorem requireSlot_of_uncounted {n : Size} (hcounted : UInt64.size ≤ n.toNat + 1) :
    requireSlot n slots = .error (.exhausted .sizes) slots := by
  unfold requireSlot
  rw [Size.add?_of_le hcounted]
  rfl

/-! ### Slots and values -/

/-- The slots hold what an operand stack holds: the one at the bottom is unused, those above it up to
the cursor hold the values, and the others hold what was last stored in them. -/
structure Holds (slots : SlotStack) (stack : OperandStack) : Prop where
  size_eq : slots.slots.size = stack.limit + 1
  limit_lt : stack.limit < Size.maxValues
  cursor_eq : slots.cursor.toNat = stack.depth
  depth_le : stack.depth ≤ stack.limit
  unused : slots.slots[0]? = some .nil
  slot_eq : ∀ place < stack.limit, slots.slots[place + 1]? = some (stack.content place)

theorem make?_of_lt {limit : Size} (hlimit : limit.toNat < Size.maxValues) :
    ∃ slots, make? limit = some slots ∧ slots.Holds (.empty limit.toNat) := by
  have hcounted : limit.toNat + 1 < UInt64.size :=
    Nat.lt_of_le_of_lt hlimit (by decide)
  obtain ⟨count, hcount, hvalue⟩ := Size.exists_of_add_lt (m := limit) (n := 1) hcounted
  have hvalue : count.toNat = limit.toNat + 1 := hvalue
  refine ⟨⟨Array.replicate count.toNat .nil, 0⟩, ?_, ?_⟩
  · unfold make?
    rw [hcount]
    exact if_pos (hvalue.trans_le hlimit)
  · refine ⟨(Array.size_replicate ..).trans hvalue, hlimit, rfl, Nat.zero_le _, ?_, fun place hplace ↦ ?_⟩
    · rw [Array.getElem?_replicate, if_pos (by omega)]
    · have hplace : place < limit.toNat := hplace
      rw [Array.getElem?_replicate, if_pos (by omega)]
      rfl

theorem make?_of_le {limit : Size} (hlimit : Size.maxValues ≤ limit.toNat) :
    make? limit = none := by
  by_cases hcounted : limit.toNat + 1 < UInt64.size
  · obtain ⟨count, hcount, hvalue⟩ := Size.exists_of_add_lt (m := limit) (n := 1) hcounted
    have hvalue : count.toNat = limit.toNat + 1 := hvalue
    unfold make?
    rw [hcount]
    exact if_neg (by omega)
  · unfold make?
    rw [Size.add?_of_le (Nat.le_of_not_lt hcounted)]
    rfl

namespace Holds

variable {stack after : OperandStack} (hholds : slots.Holds stack)

include hholds

theorem maxDepth_eq : slots.maxDepth.toNat = stack.limit := by
  have hsmall : stack.limit < UInt64.size :=
    Nat.lt_trans hholds.limit_lt (by decide)
  rw [maxDepth, hholds.size_eq, Nat.add_sub_cancel]
  exact UInt64.toNat_ofNat_of_lt' hsmall

theorem extract_eq {first last : Nat} (hlast : last ≤ stack.depth) :
    (slots.slots.extract (first + 1) (last + 1)).toList = (stack.values.take last).drop first := by
  refine List.ext_getElem? fun place ↦ ?_
  have hlimit := hholds.depth_le
  rw [Array.getElem?_toList, Array.getElem?_extract, List.getElem?_drop, List.getElem?_take]
  have hsize := hholds.size_eq
  by_cases hplace : first + place < last
  · rw [if_pos (by omega), if_pos hplace, OperandStack.content_of_lt (by omega),
      show first + 1 + place = first + place + 1 by omega]
    exact hholds.slot_eq _ (by omega)
  · rw [if_neg (by omega), if_neg hplace]

theorem values_eq : slots.values = stack.values := by
  have hlength : stack.values.length = stack.depth := OperandStack.length_values
  rw [values, hholds.cursor_eq]
  have hextract : (slots.slots.extract (0 + 1) (stack.depth + 1)).toList =
      (stack.values.take stack.depth).drop 0 := hholds.extract_eq (Nat.le_refl _)
  rw [List.drop_zero, ← hlength, List.take_length] at hextract
  rw [← hlength]
  exact hextract

/-- Where the cursor moves, the slots keep what they hold. -/
theorem moved {cursor : Size} (hcursor : cursor.toNat = after.depth)
    (hlimit : after.limit = stack.limit) (hdepth : after.depth ≤ stack.limit)
    (hcontent : after.content = stack.content) :
    Holds { slots with cursor := cursor } after where
  size_eq := hlimit ▸ hholds.size_eq
  limit_lt := hlimit ▸ hholds.limit_lt
  cursor_eq := hcursor
  depth_le := hlimit ▸ hdepth
  unused := hholds.unused
  slot_eq := hlimit ▸ hcontent ▸ hholds.slot_eq

/-- Where a value is stored, the other slots keep what they hold. -/
theorem stored {index : Size} {place : Nat} {value : Value} (hindex : index.toNat = place + 1)
    (hplace : place < stack.limit) (hcursor : after.depth = stack.depth)
    (hlimit : after.limit = stack.limit)
    (hcontent : ∀ other, after.content other = if other = place then value else stack.content other) :
    Holds { slots with slots := slots.slots.setIfInBounds index.toNat value } after where
  size_eq := (Array.size_setIfInBounds ..).trans (hlimit ▸ hholds.size_eq)
  limit_lt := hlimit ▸ hholds.limit_lt
  cursor_eq := hcursor ▸ hholds.cursor_eq
  depth_le := hlimit ▸ hcursor ▸ hholds.depth_le
  unused := by
    rw [Array.getElem?_setIfInBounds_ne (by omega)]
    exact hholds.unused
  slot_eq other hother := by
    rw [hindex, hcontent]
    split_ifs with hsame
    · subst hsame
      exact Array.getElem?_setIfInBounds_self_of_lt (by rw [hholds.size_eq]; omega)
    · rw [Array.getElem?_setIfInBounds_ne (by omega)]
      exact hholds.slot_eq other (hlimit ▸ hother)

/-! ### Operations that succeed -/

theorem peek_of_lt {n : Size} (hdepth : n.toNat < stack.depth) :
    peek n slots = .ok (stack.slot n.toNat) slots := by
  have hcursor := hholds.cursor_eq
  have hbelow : n.toNat ≤ slots.cursor.toNat := by omega
  obtain ⟨index, hindex, hbelow⟩ := exists_below hbelow
  have hslot : slots.slots[index.toNat]? = some (stack.slot n.toNat) := by
    rw [OperandStack.slot_eq_content hdepth,
      show index.toNat = stack.depth - (n.toNat + 1) + 1 by omega]
    exact hholds.slot_eq _ (by have := hholds.depth_le; omega)
  refine (bind_of_ok (requireSlot_of_lt (by omega))).trans ?_
  exact (bind_of_ok hbelow).trans (read_of_eq_some hslot)

/-- Moving the cursor down takes values off the stack. -/
theorem below_moved {n : Size} (hdepth : n.toNat ≤ stack.depth) :
    ∃ index, below n slots = .ok index slots ∧
      Holds { slots with cursor := index } (stack.lower n.toNat) := by
  obtain ⟨index, hindex, hbelow⟩ := exists_below (hholds.cursor_eq.symm ▸ hdepth)
  refine ⟨index, hbelow, hholds.moved ?_ rfl ?_ (OperandStack.content_lower _)⟩
  · rw [hindex, hholds.cursor_eq, OperandStack.depth_lower]
  · rw [OperandStack.depth_lower]
    exact Nat.le_trans (Nat.sub_le _ _) hholds.depth_le

theorem pop_of_pos (hdepth : 0 < stack.depth) :
    ∃ after, pop slots = .ok (stack.slot 0) after ∧ after.Holds (stack.lower 1) := by
  have htop : top slots = .ok (stack.slot 0) slots := hholds.peek_of_lt hdepth
  obtain ⟨index, hbelow, hmoved⟩ := hholds.below_moved (n := 1) hdepth
  exact ⟨_, (bind_of_ok htop).trans (bind_of_ok hbelow), hmoved⟩

theorem store_of_lt {n : Size} (hdepth : n.toNat < stack.depth) (value : Value) :
    ∃ after, store n value slots = .ok () after ∧
      after.Holds (stack.overwrite n.toNat value) := by
  have hcursor := hholds.cursor_eq
  have hlimit := hholds.depth_le
  have hbelow : n.toNat ≤ slots.cursor.toNat := by omega
  obtain ⟨index, hindex, hbelow⟩ := exists_below hbelow
  have hplace : index.toNat = stack.depth - (n.toNat + 1) + 1 := by omega
  have hinside : index.toNat < slots.slots.size := by
    rw [hholds.size_eq]
    omega
  refine ⟨_, ?_, hholds.stored hplace (by omega) (OperandStack.depth_overwrite _ _) rfl
    (OperandStack.content_overwrite hdepth value)⟩
  refine (bind_of_ok (requireSlot_of_lt (by omega))).trans ?_
  exact (bind_of_ok hbelow).trans (write_of_lt hinside value)

theorem discard_of_le {n : Size} (hdepth : n.toNat ≤ stack.depth) :
    ∃ after, discard n slots = .ok () after ∧ after.Holds (stack.lower n.toNat) := by
  obtain ⟨index, hbelow, hmoved⟩ := hholds.below_moved hdepth
  have hrequire : require n slots = .ok () slots := require_of_le (hholds.cursor_eq.symm ▸ hdepth)
  exact ⟨_, (bind_of_ok hrequire).trans (bind_of_ok hbelow), hmoved⟩

theorem popSlice_of_le {n : Size} (hdepth : n.toNat ≤ stack.depth) :
    ∃ after, popSlice n slots = .ok (stack.slots n.toNat) after ∧
      after.Holds (stack.lower n.toNat) := by
  obtain ⟨index, hbelow, hmoved⟩ := hholds.below_moved hdepth
  have hindex : index.toNat = stack.depth - n.toNat :=
    hmoved.cursor_eq.trans (OperandStack.depth_lower _)
  have hlimit := hholds.depth_le
  have hcounted : stack.limit + 1 < UInt64.size := Nat.lt_of_le_of_lt hholds.limit_lt (by decide)
  obtain ⟨first, hfirst, hfirst_eq⟩ :=
    Size.exists_of_add_lt (m := index) (n := 1) (show index.toNat + 1 < _ by omega)
  have hfirst_eq : first.toNat = stack.depth - n.toNat + 1 := hindex ▸ hfirst_eq
  obtain ⟨last, hlast, hlast_eq⟩ := Size.exists_of_add_lt (m := first) (n := n) (by omega)
  have hlast_eq : last.toNat = stack.depth + 1 := by omega
  have hinside : last.toNat ≤ slots.slots.size := by
    rw [hholds.size_eq]
    omega
  have hvalues : (slots.slots.extract first.toNat last.toNat).toList = stack.slots n.toNat := by
    have hlength : stack.values.length = stack.depth := OperandStack.length_values
    rw [hfirst_eq, hlast_eq, hholds.extract_eq (Nat.le_refl _), ← hlength, List.take_length,
      OperandStack.slots_eq_rtake, List.rtake]
  have hrequire : require n slots = .ok () slots := require_of_le (hholds.cursor_eq.symm ▸ hdepth)
  refine ⟨_, (bind_of_ok hrequire).trans ((bind_of_ok hbelow).trans ?_), hmoved⟩
  change (sized (index.add? 1) >>= _ : SlotAction (List Value)) { slots with cursor := index } = _
  rw [hfirst]
  change (sized (first.add? n) >>= _ : SlotAction (List Value)) { slots with cursor := index } = _
  rw [hlast]
  change (if _ then _ else _ : SlotAction (List Value)) { slots with cursor := index } = _
  rw [if_pos hinside, hvalues]
  rfl

theorem push_of_lt (hdepth : stack.depth < stack.limit) (value : Value) :
    ∃ after, push value slots = .ok () after ∧ after.Holds (stack.extend value) := by
  have hcursor := hholds.cursor_eq
  have hmax := hholds.maxDepth_eq
  have hsmall : slots.cursor.toNat + 1 < UInt64.size :=
    Nat.lt_of_le_of_lt (hcursor ▸ hdepth) (Nat.lt_trans hholds.limit_lt (by decide))
  obtain ⟨cursor, hnext, hvalue⟩ := Size.exists_of_add_lt (m := slots.cursor) (n := 1) hsmall
  have hvalue : cursor.toNat = stack.depth + 1 := hvalue.trans (congrArg (· + 1) hcursor)
  -- The slot above the top holds what was last stored there until the value is written.
  have hmoved : Holds { slots with cursor := cursor } (stack.raise 1) :=
    hholds.moved (hvalue.trans (OperandStack.depth_raise 1).symm) (OperandStack.limit_raise 1)
      ((OperandStack.depth_raise 1).trans_le hdepth) (OperandStack.content_raise 1)
  have hcontent (other : Nat) : (stack.extend value).content other =
      if other = stack.depth then value else (stack.raise 1).content other := by
    rw [OperandStack.content_extend, OperandStack.content_raise]
  have hroom : ¬ slots.maxDepth ≤ slots.cursor := fun hless ↦ by
    have hless := UInt64.le_iff_toNat_le.mp hless
    omega
  have hindex : cursor.toNat < ({ slots with cursor := cursor } : SlotStack).slots.size := by
    rw [hmoved.size_eq, hvalue]
    exact Nat.succ_lt_succ hdepth
  refine ⟨_, ?_, hmoved.stored hvalue hdepth rfl rfl hcontent⟩
  change (if _ then _ else _ : SlotAction Unit) slots = _
  rw [if_neg hroom, hnext]
  change write cursor value { slots with cursor := cursor } = _
  exact write_of_lt hindex value

theorem resetTo_of_le {depth : Size} (hdepth : depth.toNat ≤ stack.limit) :
    ∃ after, resetTo depth slots = .ok () after ∧ after.Holds (stack.atDepth depth.toNat) := by
  have hroom : ¬ slots.maxDepth < depth := fun hless ↦
    absurd (hholds.maxDepth_eq ▸ UInt64.lt_iff_toNat_lt.mp hless) (Nat.not_lt.mpr hdepth)
  have hatDepth : (stack.atDepth depth.toNat).depth = depth.toNat := OperandStack.depth_atDepth _
  refine ⟨{ slots with cursor := depth }, ?_, hholds.moved hatDepth.symm
    (OperandStack.limit_atDepth _) (hatDepth.trans_le hdepth) (OperandStack.content_atDepth _)⟩
  change (if _ then _ else _ : SlotAction Unit) slots = _
  rw [if_neg hroom]
  rfl

end Holds

/-! ### Commands -/

/-- A need that is too great for a size stops a command for good. -/
theorem obey_of_uncounted {command : StackCommand} (hcounted : UInt64.size ≤ command.needed) :
    obey command slots = .error (.exhausted .sizes) slots := by
  cases command with
  | peek n => exact bind_of_error (bind_of_error (requireSlot_of_uncounted hcounted))
  | set n value => exact bind_of_error (bind_of_error (requireSlot_of_uncounted hcounted))
  | discard n | popSlice n => exact absurd hcounted (Nat.not_le.mpr n.toNat_lt)
  | push | resetTo => exact absurd hcounted (show ¬ UInt64.size ≤ 0 by decide)
  | pop | top | setTop => exact absurd hcounted (show ¬ UInt64.size ≤ 1 by decide)

namespace Holds

variable {stack : OperandStack} (hholds : slots.Holds stack) {command : StackCommand}

include hholds

theorem obey_of_lt (hcounted : command.needed < UInt64.size) (hneeded : stack.depth < command.needed) :
    obey command slots = .error (.signal (.stackUnderflow stack.depth command.needed)) slots := by
  rw [← hholds.cursor_eq] at hneeded ⊢
  have hslot {n : Size} (hcounted : n.toNat + 1 < UInt64.size)
      (hneeded : slots.cursor.toNat < n.toNat + 1) :
      requireSlot n slots =
        .error (.signal (.stackUnderflow slots.cursor.toNat (n.toNat + 1))) slots :=
    requireSlot_of_le hcounted (Nat.le_of_lt_succ hneeded)
  cases command with
  | push | resetTo => exact absurd hneeded (Nat.not_lt_zero _)
  | pop =>
    have htop : top slots = _ := bind_of_error (hslot (n := 0) hcounted hneeded)
    exact bind_of_error (bind_of_error htop)
  | top => exact bind_of_error (bind_of_error (hslot (n := 0) hcounted hneeded))
  | peek n => exact bind_of_error (bind_of_error (hslot hcounted hneeded))
  | set n value => exact bind_of_error (bind_of_error (hslot hcounted hneeded))
  | setTop value => exact bind_of_error (bind_of_error (hslot (n := 0) hcounted hneeded))
  | discard n | popSlice n => exact bind_of_error (bind_of_error (require_of_lt hneeded))

theorem obey_of_limit_lt (hroom : stack.limit < command.room stack.depth) :
    obey command slots = .error (.signal (.stackOverflow stack.limit)) slots := by
  have hmax := hholds.maxDepth_eq
  cases command with
  | push value =>
    have hfull : slots.maxDepth ≤ slots.cursor :=
      UInt64.le_iff_toNat_le.mpr (hmax ▸ hholds.cursor_eq ▸ Nat.le_of_lt_succ hroom)
    have hpush : push value slots = .error (.signal (.stackOverflow stack.limit)) slots := by
      change (if _ then _ else _ : SlotAction Unit) slots = _
      rw [if_pos hfull, hmax]
      rfl
    exact bind_of_error hpush
  | resetTo depth =>
    have habove : slots.maxDepth < depth := UInt64.lt_iff_toNat_lt.mpr (hmax ▸ hroom)
    have hreset : resetTo depth slots = .error (.signal (.stackOverflow stack.limit)) slots := by
      change (if _ then _ else _ : SlotAction Unit) slots = _
      rw [if_pos habove, hmax]
      rfl
    exact bind_of_error hreset
  | _ => exact absurd hroom (Nat.not_lt_zero _)

theorem obey_of_le (hneeded : command.needed ≤ stack.depth)
    (hroom : command.room stack.depth ≤ stack.limit) :
    ∃ after, obey command slots = .ok (command.answer stack.values) after ∧
      after.Holds (stack.carry command) := by
  cases command with
  | push value =>
    obtain ⟨after, hpush, hafter⟩ := hholds.push_of_lt hroom value
    exact ⟨after, bind_of_ok hpush, hafter⟩
  | pop =>
    obtain ⟨after, hpop, hafter⟩ := hholds.pop_of_pos hneeded
    rw [OperandStack.slot_zero_eq_getLastD] at hpop
    exact ⟨after, bind_of_ok hpop, hafter⟩
  | top =>
    have htop : top slots = .ok (stack.slot 0) slots := hholds.peek_of_lt hneeded
    rw [OperandStack.slot_zero_eq_getLastD] at htop
    exact ⟨slots, bind_of_ok htop, hholds⟩
  | peek n =>
    have hpeek := hholds.peek_of_lt hneeded
    rw [OperandStack.slot_eq_getD hneeded] at hpeek
    exact ⟨slots, bind_of_ok hpeek, hholds⟩
  | set n value =>
    obtain ⟨after, hstore, hafter⟩ := hholds.store_of_lt hneeded value
    exact ⟨after, bind_of_ok hstore, hafter⟩
  | setTop value =>
    obtain ⟨after, hstore, hafter⟩ := hholds.store_of_lt (n := 0) hneeded value
    exact ⟨after, bind_of_ok hstore, hafter⟩
  | discard n =>
    obtain ⟨after, hdiscard, hafter⟩ := hholds.discard_of_le hneeded
    exact ⟨after, bind_of_ok hdiscard, hafter⟩
  | popSlice n =>
    obtain ⟨after, hpop, hafter⟩ := hholds.popSlice_of_le hneeded
    rw [OperandStack.slots_eq_rtake] at hpop
    exact ⟨after, bind_of_ok hpop, hafter⟩
  | resetTo depth =>
    obtain ⟨after, hreset, hafter⟩ := hholds.resetTo_of_le hroom
    exact ⟨after, bind_of_ok hreset, hafter⟩

/-- A command whose need is a size does the same to the slots as to the stack that they hold. Where it
fails on the stack, it fails on the slots with the same fault and leaves them as they were. -/
theorem obey (hcounted : command.needed < UInt64.size) :
    (∀ answer after, stack.perform command = .ok (answer, after) →
      ∃ slots', SlotStack.obey command slots = .ok answer slots' ∧ slots'.Holds after) ∧
    ∀ reason, stack.perform command = .error reason →
      SlotStack.obey command slots = .error (.signal reason) slots := by
  rw [OperandStack.perform_eq]
  split_ifs with hneeded hroom
  · refine ⟨nofun, ?_⟩
    rintro _ ⟨⟩
    exact hholds.obey_of_lt hcounted hneeded
  · refine ⟨nofun, ?_⟩
    rintro _ ⟨⟩
    exact hholds.obey_of_limit_lt hroom
  · refine ⟨?_, nofun⟩
    rintro _ _ ⟨⟩
    exact hholds.obey_of_le (Nat.le_of_not_lt hneeded) (Nat.le_of_not_lt hroom)

end Holds

/-! ### The slots as a list -/

/-- What an operation has given or the fault that it has raised, with the slots as it has left them,
unless it has stopped for good. -/
def outcome :
    EStateM.Result (Stop Fault) SlotStack StackAnswer → Option (Except Fault StackAnswer × SlotStack)
  | .ok answer after => some (.ok answer, after)
  | .error (.signal reason) after => some (.error reason, after)
  | .error (.exhausted _) _ => none

/-- What can be seen of slots that are given commands, after each of them, unless one of them stops
for good. -/
def reports (slots : SlotStack) : List StackCommand → Option (List StackReport)
  | [] => some []
  | command :: commands =>
    (outcome (obey command slots)).bind fun ended =>
      (ended.2.reports commands).map
        (⟨ended.1, ended.2.values, ended.2.cursor.toNat⟩ :: ·)

/-- Slots hold the values of a list and have room for as many as the list can have. -/
def HoldsList {limit : Nat} (slots : SlotStack) (list : BoundedList limit) : Prop :=
  ∃ stack : OperandStack, slots.Holds stack ∧ stack.limit = limit ∧ stack.values = list.values

namespace HoldsList

variable {limit : Nat} {list : BoundedList limit} {command : StackCommand}

theorem values_eq (hholds : slots.HoldsList list) : slots.values = list.values := by
  obtain ⟨stack, hstack, -, hvalues⟩ := hholds
  exact hstack.values_eq.trans hvalues

theorem cursor_eq (hholds : slots.HoldsList list) : slots.cursor.toNat = list.values.length := by
  obtain ⟨stack, hstack, -, hvalues⟩ := hholds
  rw [hstack.cursor_eq, ← hvalues, OperandStack.length_values]

/-- Slots and a list that hold the same values give the same answer to a command that can be counted
and does not put the cursor above the current depth, and hold the same values afterwards. -/
theorem obey (hholds : slots.HoldsList list) (hcounted : command.needed < UInt64.size)
    (hraises : command.raises limit list.values.length = false) :
    ∃ after, outcome (SlotStack.obey command slots) = some ((list.obey command).1, after) ∧
      after.HoldsList (list.obey command).2 := by
  obtain ⟨stack, hstack, rfl, hvalues⟩ := hholds
  have hdepth : stack.depth = list.values.length :=
    OperandStack.length_values.symm.trans (congrArg List.length hvalues)
  obtain ⟨hdone, hfailed⟩ := hstack.obey hcounted
  rw [OperandStack.perform_eq, hdepth, hvalues] at hdone hfailed
  unfold BoundedList.obey
  split_ifs at hdone hfailed ⊢ with hneeded hroom
  · refine ⟨slots, ?_, stack, hstack, rfl, hvalues⟩
    rw [hfailed _ rfl]
    rfl
  · refine ⟨slots, ?_, stack, hstack, rfl, hvalues⟩
    rw [hfailed _ rfl]
    rfl
  · obtain ⟨after, hobey, hafter⟩ := hdone _ _ rfl
    refine ⟨after, ?_, _, hafter, OperandStack.limit_carry command, ?_⟩
    · rw [hobey]
      rfl
    · rw [← hdepth] at hneeded hroom hraises
      rw [OperandStack.values_carry (Nat.le_of_not_lt hneeded) (Nat.le_of_not_lt hroom) hraises,
        hvalues]

end HoldsList

theorem reports_eq_of_holdsList {limit : Nat} {list : BoundedList limit}
    {commands : List StackCommand} (hholds : slots.HoldsList list)
    (hraised : list.neverRaised commands = true) :
    slots.reports commands =
      if ∀ command ∈ commands, command.needed < UInt64.size then some (list.reports commands)
      else none := by
  induction commands generalizing slots list with
  | nil => rfl
  | cons command commands ih =>
    rw [BoundedList.neverRaised, Bool.and_eq_true, Bool.not_eq_true'] at hraised
    by_cases hcounted : command.needed < UInt64.size
    · obtain ⟨after, houtcome, hafter⟩ := hholds.obey hcounted hraised.1
      have hrest := ih hafter hraised.2
      simp only [reports, houtcome, Option.bind_some, hrest, List.forall_mem_cons, hcounted,
        true_and, BoundedList.reports, hafter.values_eq, hafter.cursor_eq]
      split_ifs <;> rfl
    · have hall : ¬ ∀ other ∈ command :: commands, other.needed < UInt64.size :=
        fun hall ↦ hcounted (hall command List.mem_cons_self)
      rw [reports, obey_of_uncounted (Nat.le_of_not_lt hcounted), if_neg hall]
      rfl

/-- The slots are a list of bounded length. Slots can be made for a limit unless they are too many for
an array. Whatever operations new slots are given, if none puts the cursor above the current depth,
then each of them gives what it gives on a list that can have as many values, or fails in the same
way where the list has too few values or no room, with the depth and the need, and leaves the same
values behind: those that there were, if it has failed. That is so if the need of each of them is a
size; one whose need is not stops for good. -/
theorem reports_eq_boundedList (limit : Size) (commands : List StackCommand)
    (hraised : (BoundedList.empty limit.toNat).neverRaised commands = true) :
    (limit.toNat < Size.maxValues → ∃ slots, make? limit = some slots ∧
      ((∀ command ∈ commands, command.needed < UInt64.size) →
        slots.reports commands = some ((BoundedList.empty limit.toNat).reports commands)) ∧
      ((¬ ∀ command ∈ commands, command.needed < UInt64.size) →
        slots.reports commands = none)) ∧
    (Size.maxValues ≤ limit.toNat → make? limit = none) := by
  refine ⟨fun hlimit ↦ ?_, make?_of_le⟩
  obtain ⟨slots, hmake, hholds⟩ := make?_of_lt hlimit
  have hlist : slots.HoldsList (BoundedList.empty limit.toNat) := ⟨_, hholds, rfl, rfl⟩
  have hreports := reports_eq_of_holdsList hlist hraised
  refine ⟨slots, hmake, fun hcounted ↦ ?_, fun hcounted ↦ ?_⟩
  · rw [hreports, if_pos hcounted]
  · rw [hreports, if_neg hcounted]

/-- Slots for three values are given one too many, are asked for more than there are, and have the
cursor put at three depths, of which one is above the limit. -/
theorem reports_eq_boundedList_of_three :
    let commands : List StackCommand :=
      [.push (.fixnum 1), .push (.fixnum 2), .push (.fixnum 3), .push (.fixnum 4),
        .set 1 (.fixnum 20), .peek 3, .popSlice 2, .resetTo 4, .resetTo 1, .push (.fixnum 5),
        .resetTo 0, .pop]
    (BoundedList.empty 3).neverRaised commands = true ∧
      (∀ command ∈ commands, command.needed < UInt64.size) ∧
      ∃ slots, make? 3 = some slots ∧ slots.reports commands = some
        [⟨.ok .done, [.fixnum 1], 1⟩,
          ⟨.ok .done, [.fixnum 1, .fixnum 2], 2⟩,
          ⟨.ok .done, [.fixnum 1, .fixnum 2, .fixnum 3], 3⟩,
          ⟨.error (.stackOverflow 3), [.fixnum 1, .fixnum 2, .fixnum 3], 3⟩,
          ⟨.ok .done, [.fixnum 1, .fixnum 20, .fixnum 3], 3⟩,
          ⟨.error (.stackUnderflow 3 4), [.fixnum 1, .fixnum 20, .fixnum 3], 3⟩,
          ⟨.ok (.values [.fixnum 20, .fixnum 3]), [.fixnum 1], 1⟩,
          ⟨.error (.stackOverflow 3), [.fixnum 1], 1⟩,
          ⟨.ok .done, [.fixnum 1], 1⟩,
          ⟨.ok .done, [.fixnum 1, .fixnum 5], 2⟩,
          ⟨.ok .done, [], 0⟩,
          ⟨.error (.stackUnderflow 0 1), [], 0⟩] := by
  intro commands
  have hraised : (BoundedList.empty 3).neverRaised commands = true := by decide
  have hcounted : ∀ command ∈ commands, command.needed < UInt64.size := by decide
  obtain ⟨slots, hmake, hreports, -⟩ := (reports_eq_boundedList 3 commands hraised).1 (by decide)
  exact ⟨hraised, hcounted, slots, hmake, (hreports hcounted).trans rfl⟩

/-- The greatest size as the distance from the top needs more values than can be counted. A list
refuses it like any distance that is too great, and is as it was. Slots stop for good. As the limit
of the values it needs more slots than there can be. -/
theorem peek_of_greatest_size :
    let greatest : Size := 0xFFFFFFFFFFFFFFFF
    (BoundedList.empty 3).neverRaised [.peek greatest] = true ∧
      (BoundedList.empty 3).reports [.peek greatest] =
        [⟨.error (.stackUnderflow 0 0x10000000000000000), [], 0⟩] ∧
      (∃ slots, make? 3 = some slots ∧ slots.reports [.peek greatest] = none) ∧
      make? greatest = none := by
  intro greatest
  have hneeded : (StackCommand.peek greatest).needed = 0x10000000000000000 := by decide
  have huncounted : UInt64.size ≤ (StackCommand.peek greatest).needed := by decide
  refine ⟨by decide, ?_, ⟨⟨Array.replicate 4 .nil, 0⟩, rfl, ?_⟩, make?_of_le (by decide)⟩
  · have hlist : (BoundedList.empty 3).obey (.peek greatest) =
        (.error (.stackUnderflow 0 0x10000000000000000), .empty 3) := by
      rw [BoundedList.obey, hneeded]
      exact if_pos (by decide)
    rw [BoundedList.reports, hlist]
    rfl
  · rw [reports, obey_of_uncounted huncounted]
    rfl

end SlotStack

end LispMachine
