import LispMachine.Proofs.OperandStack
import LispMachine.SlotStack
import Mathlib.Data.List.DropRight

/-!
The operand stack and a bounded list. An operation of the stack checks that there are as many values
as it needs and room for as many as it leaves, and then does to the slots what it would do unchecked
(`OperandStack.perform_eq`). What it does to the slots is seen on the values as an operation on a
plain list in the order of pushing (`OperandStack.values_carry`), unless it puts the top above the
current depth: then the values that popped slots still hold come back
(`OperandStack.values_atDepth`).
-/

set_option autoImplicit false

namespace LispMachine

/-! ### Commands -/

/-- What can be seen when an operation is over: what it has given or the fault that it has raised,
and what the stack holds now. -/
structure StackReport where
  answer : Except Fault StackAnswer
  values : List Value
  depth : Nat

namespace OperandStack

/-- Do what a command says. -/
def perform (stack : OperandStack) : StackCommand → Except Fault (StackAnswer × OperandStack)
  | .push value => do return (.done, ← stack.push value)
  | .pop => do
    let (value, rest) ← stack.pop
    return (.value value, rest)
  | .top => do return (.value (← stack.top), stack)
  | .peek n => do return (.value (← stack.peek n.toNat), stack)
  | .set n value => do return (.done, ← stack.set n.toNat value)
  | .setTop value => do return (.done, ← stack.setTop value)
  | .discard n => do return (.done, ← stack.discard n.toNat)
  | .popSlice n => do
    let (values, rest) ← stack.popSlice n.toNat
    return (.values values, rest)
  | .resetTo depth => do return (.done, ← stack.resetTo depth.toNat)

end OperandStack

/-! ### Commands to a list -/

namespace StackCommand

/-- How many values there must be. -/
def needed : StackCommand → Nat
  | .pop | .top | .setTop _ => 1
  | .peek n | .set n _ => n.toNat + 1
  | .discard n | .popSlice n => n.toNat
  | .push _ | .resetTo _ => 0

/-- How many values there must be room for, if there are `depth` values before. -/
def room (depth : Nat) : StackCommand → Nat
  | .push _ => depth + 1
  | .resetTo goal => goal.toNat
  | _ => 0

/-- What a list of values, in the order in which they were pushed, gives. -/
def answer (values : List Value) : StackCommand → StackAnswer
  | .pop | .top => .value (values.getLastD .nil)
  | .peek n => .value (values.getD (values.length - (n.toNat + 1)) .nil)
  | .popSlice n => .values (values.rtake n.toNat)
  | _ => .done

/-- What is left of a list of values. -/
def leaves (values : List Value) : StackCommand → List Value
  | .push value => values ++ [value]
  | .pop => values.dropLast
  | .top | .peek _ => values
  | .set n value => values.set (values.length - (n.toNat + 1)) value
  | .setTop value => values.set (values.length - 1) value
  | .discard n | .popSlice n => values.rdrop n.toNat
  | .resetTo depth => values.take depth.toNat

theorem length_leaves_le {limit : Nat} {values : List Value} (hvalues : values.length ≤ limit)
    {command : StackCommand} (hroom : command.room values.length ≤ limit) :
    (command.leaves values).length ≤ limit := by
  cases command with
  | push value =>
    rw [leaves, List.length_append, List.length_singleton]
    exact hroom
  | _ =>
    simp only [leaves, List.length_set, List.length_dropLast, List.rdrop, List.length_take]
    omega

/-- Whether the command puts the top above `depth`, on a stack that holds at most `limit` values. -/
def raises (limit depth : Nat) : StackCommand → Bool
  | .resetTo goal => depth < goal.toNat && goal.toNat ≤ limit
  | _ => false

end StackCommand

/-- A list of at most `limit` values, in the order in which they were pushed. -/
structure BoundedList (limit : Nat) where
  values : List Value
  length_le : values.length ≤ limit

namespace BoundedList

variable {limit : Nat}

def empty (limit : Nat) : BoundedList limit := ⟨[], Nat.zero_le limit⟩

/-- The answer to a command and the list after it. A command fails if there are not as many values
as it needs, or more than there may be when it is done, and then the list is as it was. -/
def obey (list : BoundedList limit) (command : StackCommand) :
    Except Fault StackAnswer × BoundedList limit :=
  if list.values.length < command.needed then
    (.error (.stackUnderflow list.values.length command.needed), list)
  else if hroom : limit < command.room list.values.length then
    (.error (.stackOverflow limit), list)
  else
    (.ok (command.answer list.values),
      ⟨command.leaves list.values,
        command.length_leaves_le list.length_le (Nat.le_of_not_lt hroom)⟩)

/-- What can be seen of a list that is given commands, after each of them. -/
def reports (list : BoundedList limit) : List StackCommand → List StackReport
  | [] => []
  | command :: commands =>
    let after := (list.obey command).2
    ⟨(list.obey command).1, after.values, after.values.length⟩ :: after.reports commands

/-- No command puts the top above the number of values that there are when it is given. -/
def neverRaised (list : BoundedList limit) : List StackCommand → Bool
  | [] => true
  | command :: commands =>
    !command.raises limit list.values.length && (list.obey command).2.neverRaised commands

end BoundedList

namespace OperandStack

variable {stack : OperandStack}

/-! ### Values in slots -/

theorem values_extend (value : Value) : (stack.extend value).values = stack.values ++ [value] :=
  List.reverse_cons

theorem values_lower (n : Nat) : (stack.lower n).values = stack.values.rdrop n := by
  rw [List.rdrop_eq_reverse_drop_reverse, values, values, List.reverse_reverse]
  rfl

theorem slots_eq_rtake (n : Nat) : stack.slots n = stack.values.rtake n := by
  rw [List.rtake_eq_reverse_take_reverse, values, List.reverse_reverse]
  rfl

theorem slot_eq_getD {n : Nat} (hdepth : n < stack.depth) :
    stack.slot n = stack.values.getD (stack.values.length - (n + 1)) .nil := by
  have hless : n < stack.live.length := hdepth
  have hplace : stack.live.length - (n + 1) < stack.live.length := by omega
  have hindex : stack.live.length - 1 - (stack.live.length - (n + 1)) = n := by omega
  rw [slot, List.getD_eq_getElem?_getD, List.getD_eq_getElem?_getD, values, List.length_reverse,
    List.getElem?_reverse hplace, hindex]

theorem slot_zero_eq_getLastD : stack.slot 0 = stack.values.getLastD .nil := by
  rw [slot, values, List.getLastD_eq_getLast?, List.getLast?_reverse, List.getD_eq_getElem?_getD,
    List.head?_eq_getElem?]

theorem values_overwrite {n : Nat} (hdepth : n < stack.depth) (value : Value) :
    (stack.overwrite n value).values =
      stack.values.set (stack.values.length - (n + 1)) value := by
  have hless : n < stack.live.length := hdepth
  refine List.ext_getElem? fun place ↦ ?_
  simp only [values, overwrite]
  grind

theorem take_append_replicate {α : Type} {m n : Nat} (hless : n ≤ m) (items : List α) (item : α) :
    (items ++ List.replicate m item).take n = (items ++ List.replicate n item).take n := by
  simp only [List.take_append, List.take_replicate]
  congr 2
  omega

theorem values_raise (n : Nat) :
    (stack.raise n).values =
      stack.values ++ (stack.spent ++ List.replicate n Value.nil).take n := by
  induction n generalizing stack with
  | zero => simp [raise]
  | succ n ih =>
    rw [raise, ih]
    cases hspent : stack.spent with
    | nil => simp [values, List.replicate_succ]
    | cons value rest =>
      simp only [values, List.headD_cons, List.tail_cons, List.reverse_cons, List.append_assoc,
        List.cons_append, List.nil_append, List.take_succ_cons]
      rw [take_append_replicate (Nat.le_succ n)]

/-- The values of a stack whose top is put at a depth, up or down: the slots keep their contents,
and those that were never written hold nil. -/
theorem values_atDepth (depth : Nat) :
    (stack.atDepth depth).values =
      (stack.values ++ stack.spent ++ List.replicate depth Value.nil).take depth := by
  have hlength : stack.values.length = stack.depth := length_values
  unfold atDepth
  split_ifs with hless
  · rw [values_lower, List.rdrop, hlength, Nat.sub_sub_self hless, List.append_assoc,
      List.take_append_of_le_length (hlength ▸ hless)]
  · have hall : stack.values.length ≤ depth := by omega
    have hsplit : (stack.values ++ (stack.spent ++ List.replicate depth Value.nil)).take depth =
        stack.values ++ (stack.spent ++ List.replicate depth Value.nil).take
          (depth - stack.depth) := by
      rw [List.take_append, List.take_of_length_le hall, hlength]
    rw [values_raise, List.append_assoc, hsplit,
      take_append_replicate (Nat.sub_le depth stack.depth)]

/-- Two popped values come back when the top is put above them. -/
example : (((OperandStack.empty 3).extend (.fixnum 7)).extend (.fixnum 8) |>.atDepth 0
    |>.atDepth 3).values = [.fixnum 7, .fixnum 8, .nil] := rfl

theorem values_atDepth_of_le {depth : Nat} (hless : depth ≤ stack.depth) :
    (stack.atDepth depth).values = stack.values.take depth := by
  have hlength : depth ≤ stack.values.length := hless.trans_eq length_values.symm
  rw [values_atDepth, List.append_assoc, List.take_append_of_le_length hlength]

/-! ### Operations on slots -/

/-- What an operation does to the slots when it is not checked. -/
def carry (stack : OperandStack) : StackCommand → OperandStack
  | .push value => stack.extend value
  | .pop => stack.lower 1
  | .top | .peek _ => stack
  | .set n value => stack.overwrite n.toNat value
  | .setTop value => stack.overwrite 0 value
  | .discard n | .popSlice n => stack.lower n.toNat
  | .resetTo depth => stack.atDepth depth.toNat

theorem limit_carry (command : StackCommand) : (stack.carry command).limit = stack.limit := by
  cases command with
  | resetTo depth => exact limit_atDepth depth.toNat
  | _ => rfl

/-- What an operation does to the slots is seen on the values as what it does to a list, unless it
puts the top above the current depth. -/
theorem values_carry {command : StackCommand} (hneeded : command.needed ≤ stack.depth)
    (hroom : command.room stack.depth ≤ stack.limit)
    (hraises : command.raises stack.limit stack.depth = false) :
    (stack.carry command).values = command.leaves stack.values := by
  cases command with
  | push value => exact values_extend value
  | pop => rw [carry, values_lower]; exact List.dropLast_eq_take.symm
  | top | peek => rfl
  | set n value => exact values_overwrite hneeded value
  | setTop value => exact values_overwrite hneeded value
  | discard n | popSlice n => exact values_lower n.toNat
  | resetTo depth =>
    refine values_atDepth_of_le (Nat.le_of_not_lt fun hless ↦ ?_)
    have hgoal : depth.toNat ≤ stack.limit := hroom
    simp [StackCommand.raises, hless, hgoal] at hraises

/-! ### Checked operations -/

theorem require_of_lt {n : Nat} (hdepth : stack.depth < n) :
    stack.require n = .error (.stackUnderflow stack.depth n) := if_pos hdepth

theorem peek_of_le {n : Nat} (hdepth : stack.depth ≤ n) :
    stack.peek n = .error (.stackUnderflow stack.depth (n + 1)) := by
  rw [peek, List.getElem?_eq_none hdepth]

theorem pop_of_eq_zero (hdepth : stack.depth = 0) :
    stack.pop = .error (.stackUnderflow stack.depth 1) := by
  have hempty : stack.live = [] := List.length_eq_zero_iff.mp hdepth
  rw [pop, hempty, hdepth]

theorem set_of_le {n : Nat} (hdepth : stack.depth ≤ n) (value : Value) :
    stack.set n value = .error (.stackUnderflow stack.depth (n + 1)) := by
  rw [set, require_of_lt (Nat.lt_succ_of_le hdepth)]
  rfl

theorem discard_of_lt {n : Nat} (hdepth : stack.depth < n) :
    stack.discard n = .error (.stackUnderflow stack.depth n) := by
  rw [discard, require_of_lt hdepth]
  rfl

theorem popSlice_of_lt {n : Nat} (hdepth : stack.depth < n) :
    stack.popSlice n = .error (.stackUnderflow stack.depth n) := by
  rw [popSlice, require_of_lt hdepth]
  rfl

theorem push_of_limit_le (hdepth : stack.limit ≤ stack.depth) (value : Value) :
    stack.push value = .error (.stackOverflow stack.limit) := if_pos hdepth

theorem resetTo_of_limit_lt {depth : Nat} (hdepth : stack.limit < depth) :
    stack.resetTo depth = .error (.stackOverflow stack.limit) := if_pos hdepth

theorem perform_of_lt {command : StackCommand} (hneeded : stack.depth < command.needed) :
    stack.perform command = .error (.stackUnderflow stack.depth command.needed) := by
  have hbelow {n : Nat} (hless : stack.depth < n + 1) : stack.depth ≤ n := Nat.le_of_lt_succ hless
  cases command with
  | push | resetTo => exact absurd hneeded (Nat.not_lt_zero _)
  | pop => rw [perform, pop_of_eq_zero (Nat.lt_one_iff.mp hneeded)]; rfl
  | top => rw [perform, top, peek_of_le (hbelow hneeded)]; rfl
  | peek n => rw [perform, peek_of_le (hbelow hneeded)]; rfl
  | set n value => rw [perform, set_of_le (hbelow hneeded)]; rfl
  | setTop value => rw [perform, setTop, set_of_le (hbelow hneeded)]; rfl
  | discard n => rw [perform, discard_of_lt (show stack.depth < n.toNat from hneeded)]; rfl
  | popSlice n => rw [perform, popSlice_of_lt (show stack.depth < n.toNat from hneeded)]; rfl

theorem perform_of_limit_lt {command : StackCommand}
    (hroom : stack.limit < command.room stack.depth) :
    stack.perform command = .error (.stackOverflow stack.limit) := by
  cases command with
  | push value => rw [perform, push_of_limit_le (Nat.le_of_lt_succ hroom)]; rfl
  | resetTo depth => rw [perform, resetTo_of_limit_lt (show stack.limit < depth.toNat from hroom)]; rfl
  | _ => exact absurd hroom (Nat.not_lt_zero _)

theorem perform_of_le {command : StackCommand} (hneeded : command.needed ≤ stack.depth)
    (hroom : command.room stack.depth ≤ stack.limit) :
    stack.perform command = .ok (command.answer stack.values, stack.carry command) := by
  cases command with
  | push value => rw [perform, push_of_lt hroom]; rfl
  | pop => rw [perform, pop_of_pos hneeded, slot_zero_eq_getLastD]; rfl
  | top => rw [perform, top_of_pos hneeded, slot_zero_eq_getLastD]; rfl
  | peek n => rw [perform, peek_of_lt hneeded, slot_eq_getD hneeded]; rfl
  | set n value => rw [perform, set_of_lt hneeded]; rfl
  | setTop value => rw [perform, setTop, set_of_lt hneeded]; rfl
  | discard n => rw [perform, discard_of_le (show n.toNat ≤ stack.depth from hneeded)]; rfl
  | popSlice n =>
    rw [perform, popSlice_of_le (show n.toNat ≤ stack.depth from hneeded), slots_eq_rtake]
    rfl
  | resetTo depth => rw [perform, resetTo_of_le (show depth.toNat ≤ stack.limit from hroom)]; rfl

/-- An operation fails unless there are as many values as it needs and room for as many as there
have to be. Otherwise it does to the slots what it does unchecked, and gives what a list of the
values gives. -/
theorem perform_eq (command : StackCommand) :
    stack.perform command =
      if stack.depth < command.needed then
        .error (.stackUnderflow stack.depth command.needed)
      else if stack.limit < command.room stack.depth then .error (.stackOverflow stack.limit)
      else .ok (command.answer stack.values, stack.carry command) := by
  split_ifs with hneeded hroom
  · exact perform_of_lt hneeded
  · exact perform_of_limit_lt hroom
  · exact perform_of_le (Nat.le_of_not_lt hneeded) (Nat.le_of_not_lt hroom)

end OperandStack

end LispMachine
