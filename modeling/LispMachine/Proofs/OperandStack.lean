import LispMachine.Execution.Interpreter
import Mathlib.Tactic.SplitIfs

/-!
The operations of the operand stack. Each succeeds exactly when the stack has the values, or the
room, that it needs, and then does to the slots what it would do unchecked. The lemmas named
`_of_` say that an operation succeeds, those named `_eq_ok` what follows when it has.
-/

set_option autoImplicit false

namespace LispMachine

namespace OperandStack

variable {stack : OperandStack}

/-! ### Depths -/

theorem length_values : stack.values.length = stack.depth := List.length_reverse

theorem depth_overwrite (n : Nat) (value : Value) :
    (stack.overwrite n value).depth = stack.depth := by
  simp [depth, overwrite]

theorem depth_lower (n : Nat) : (stack.lower n).depth = stack.depth - n := by
  simp [depth, lower]

theorem depth_raise (n : Nat) : (stack.raise n).depth = stack.depth + n := by
  induction n generalizing stack with
  | zero => rfl
  | succ n ih =>
    rw [raise, ih]
    simp only [depth, List.length_cons]
    omega

theorem limit_raise (n : Nat) : (stack.raise n).limit = stack.limit := by
  induction n generalizing stack with
  | zero => rfl
  | succ n ih => rw [raise, ih]

theorem depth_atDepth (depth : Nat) : (stack.atDepth depth).depth = depth := by
  unfold atDepth
  split_ifs with hdepth
  · rw [depth_lower]
    omega
  · rw [depth_raise]
    omega

theorem limit_atDepth (depth : Nat) : (stack.atDepth depth).limit = stack.limit := by
  unfold atDepth
  split_ifs
  · rfl
  · exact limit_raise _

/-- What takes values off the stack, or finds room on it, can push. -/
theorem depth_lower_lt {n : Nat} (hdepth : n ≤ stack.depth)
    (hroom : stack.depth + (if n = 0 then 1 else 0) ≤ stack.limit) :
    (stack.lower n).depth < (stack.lower n).limit := by
  rw [depth_lower]
  change stack.depth - n < stack.limit
  split_ifs at hroom <;> omega

/-! ### Operations that succeed -/

theorem peek_of_lt {n : Nat} (hdepth : n < stack.depth) : stack.peek n = .ok (stack.slot n) := by
  unfold peek slot
  rw [List.getD_eq_getElem?_getD, List.getElem?_eq_getElem hdepth]
  rfl

theorem top_of_pos (hdepth : 0 < stack.depth) : stack.top = .ok (stack.slot 0) :=
  peek_of_lt hdepth

theorem push_of_lt (hdepth : stack.depth < stack.limit) (value : Value) :
    stack.push value = .ok (stack.extend value) := by
  rw [push, if_neg (Nat.not_le.mpr hdepth)]

theorem require_of_le {n : Nat} (hdepth : n ≤ stack.depth) : stack.require n = .ok () := by
  rw [require, if_neg (Nat.not_lt.mpr hdepth)]

theorem pop_of_pos (hdepth : 0 < stack.depth) :
    stack.pop = .ok (stack.slot 0, stack.lower 1) := by
  obtain ⟨limit, live, spent⟩ := stack
  cases live with
  | nil => exact absurd hdepth (Nat.lt_irrefl 0)
  | cons value rest => rfl

theorem set_of_lt {n : Nat} (hdepth : n < stack.depth) (value : Value) :
    stack.set n value = .ok (stack.overwrite n value) := by
  rw [set, require_of_le hdepth]
  rfl

theorem discard_of_le {n : Nat} (hdepth : n ≤ stack.depth) :
    stack.discard n = .ok (stack.lower n) := by
  rw [discard, require_of_le hdepth]
  rfl

theorem popSlice_of_le {n : Nat} (hdepth : n ≤ stack.depth) :
    stack.popSlice n = .ok (stack.slots n, stack.lower n) := by
  rw [popSlice, require_of_le hdepth]
  rfl

theorem resetTo_of_le {depth : Nat} (hdepth : depth ≤ stack.limit) :
    stack.resetTo depth = .ok (stack.atDepth depth) := by
  rw [resetTo, if_neg (Nat.not_lt.mpr hdepth)]

theorem discardUnder_of_lt {n : Nat} (hdepth : n < stack.depth) :
    stack.discardUnder n = .ok ((stack.overwrite n (stack.slot 0)).lower n) := by
  unfold discardUnder
  rw [top_of_pos (Nat.zero_lt_of_lt hdepth)]
  change (stack.set n (stack.slot 0) >>= fun stack ↦ stack.discard n) = _
  rw [set_of_lt hdepth]
  change (stack.overwrite n (stack.slot 0)).discard n = _
  have hoverwritten : n ≤ (stack.overwrite n (stack.slot 0)).depth := by
    rw [depth_overwrite]
    exact Nat.le_of_lt hdepth
  exact discard_of_le hoverwritten

/-! ### Operations that have succeeded -/

theorem push_eq_ok {value : Value} {pushed : OperandStack} (hpush : stack.push value = .ok pushed) :
    pushed.depth = stack.depth + 1 ∧ pushed.limit = stack.limit := by
  unfold push at hpush
  split_ifs at hpush
  cases hpush
  exact ⟨rfl, rfl⟩

theorem lt_of_push_eq_ok {value : Value} {pushed : OperandStack}
    (hpush : stack.push value = .ok pushed) : stack.depth < stack.limit := by
  unfold push at hpush
  split_ifs at hpush with hfull
  exact Nat.lt_of_not_le hfull

theorem lt_of_peek_eq_ok {n : Nat} {value : Value} (hpeek : stack.peek n = .ok value) :
    n < stack.depth := by
  unfold peek at hpeek
  cases hslot : stack.live[n]? with
  | none =>
    rw [hslot] at hpeek
    cases hpeek
  | some found => exact (List.getElem?_eq_some_iff.mp hslot).1

theorem pop_eq_ok {value : Value} {rest : OperandStack} (hpop : stack.pop = .ok (value, rest)) :
    rest.depth + 1 = stack.depth ∧ rest.limit = stack.limit := by
  obtain ⟨limit, live, spent⟩ := stack
  cases live with
  | nil => cases hpop
  | cons first live =>
    cases hpop
    exact ⟨rfl, rfl⟩

theorem require_bind_eq_ok {α : Type} {n : Nat} {next : Unit → Except Fault α} {result : α}
    (hrun : (stack.require n >>= next) = .ok result) : n ≤ stack.depth ∧ next () = .ok result := by
  unfold require at hrun
  split_ifs at hrun with hless
  · cases hrun
  · exact ⟨Nat.le_of_not_lt hless, hrun⟩

theorem popSlice_eq_ok {n : Nat} {values : List Value} {rest : OperandStack}
    (hpop : stack.popSlice n = .ok (values, rest)) :
    rest.depth + n = stack.depth ∧ rest.limit = stack.limit := by
  obtain ⟨hdepth, hrest⟩ := require_bind_eq_ok hpop
  cases hrest
  rw [depth_lower]
  exact ⟨Nat.sub_add_cancel hdepth, rfl⟩

theorem discard_eq_ok {n : Nat} {rest : OperandStack} (hdiscard : stack.discard n = .ok rest) :
    rest.depth + n = stack.depth ∧ rest.limit = stack.limit := by
  obtain ⟨hdepth, hrest⟩ := require_bind_eq_ok hdiscard
  cases hrest
  rw [depth_lower]
  exact ⟨Nat.sub_add_cancel hdepth, rfl⟩

theorem set_eq_ok {n : Nat} {value : Value} {changed : OperandStack}
    (hset : stack.set n value = .ok changed) :
    changed.depth = stack.depth ∧ changed.limit = stack.limit := by
  obtain ⟨-, hchanged⟩ := require_bind_eq_ok hset
  cases hchanged
  exact ⟨depth_overwrite n value, rfl⟩

theorem lt_of_set_eq_ok {n : Nat} {value : Value} {changed : OperandStack}
    (hset : stack.set n value = .ok changed) : n < stack.depth :=
  (require_bind_eq_ok hset).1

theorem exists_of_discardUnder_eq_ok {n : Nat} {rest : OperandStack}
    (hdiscard : stack.discardUnder n = .ok rest) :
    ∃ top changed, stack.set n top = .ok changed ∧ changed.discard n = .ok rest := by
  unfold discardUnder at hdiscard
  cases htop : stack.top with
  | error fault =>
    rw [htop] at hdiscard
    cases hdiscard
  | ok top =>
    rw [htop] at hdiscard
    change (stack.set n top >>= fun stack ↦ stack.discard n) = _ at hdiscard
    cases hset : stack.set n top with
    | error fault =>
      rw [hset] at hdiscard
      cases hdiscard
    | ok changed =>
      rw [hset] at hdiscard
      exact ⟨top, changed, hset, hdiscard⟩

theorem discardUnder_eq_ok {n : Nat} {rest : OperandStack}
    (hdiscard : stack.discardUnder n = .ok rest) :
    rest.depth + n = stack.depth ∧ rest.limit = stack.limit := by
  obtain ⟨top, changed, hset, hrest⟩ := exists_of_discardUnder_eq_ok hdiscard
  have hchanged := set_eq_ok hset
  have hrest := discard_eq_ok hrest
  exact ⟨hrest.1.trans hchanged.1, hrest.2.trans hchanged.2⟩

theorem lt_of_discardUnder_eq_ok {n : Nat} {rest : OperandStack}
    (hdiscard : stack.discardUnder n = .ok rest) : n < stack.depth := by
  obtain ⟨top, changed, hset, -⟩ := exists_of_discardUnder_eq_ok hdiscard
  exact lt_of_set_eq_ok hset

theorem resetTo_eq_ok {depth : Nat} {reset : OperandStack}
    (hreset : stack.resetTo depth = .ok reset) :
    reset.depth = depth ∧ reset.limit = stack.limit := by
  unfold resetTo at hreset
  split_ifs at hreset
  cases hreset
  exact ⟨depth_atDepth depth, limit_atDepth depth⟩

end OperandStack

/-- Whether a branch is taken with the given value on top of the stack. -/
def BranchKind.isTaken (kind : BranchKind) (top : Value) : Bool :=
  !kind.isConditional || top.isNil == kind.onNil

/-- A conditional branch tests the top and leaves it on the stack at most when it is taken. -/
theorem BranchKind.test_of_conditional {kind : BranchKind} (hkind : kind.isConditional = true)
    {stack : OperandStack} (hdepth : 0 < stack.depth) :
    kind.test stack = .ok (if (stack.slot 0).isNil == kind.onNil then
      (true, if kind.isElsePop then stack else stack.lower 1) else (false, stack.lower 1)) := by
  have hpop := OperandStack.pop_of_pos hdepth
  have htop := OperandStack.top_of_pos hdepth
  cases kind with
  | goto => cases hkind
  | _ =>
    cases hnil : (stack.slot 0).isNil <;>
      simp [test, hpop, htop, hnil, isElsePop, onNil, bind, Except.bind, pure, Except.pure]

/-- A test that has a result is that of a branch that is always taken, or it found a value and
decided by it. -/
theorem BranchKind.test_cases {kind : BranchKind} {stack rest : OperandStack} {taken : Bool}
    (htest : kind.test stack = .ok (taken, rest)) :
    (kind = .goto ∧ taken = true ∧ rest = stack) ∨
      (kind.isConditional = true ∧ 0 < stack.depth ∧ taken = kind.isTaken (stack.slot 0) ∧
        rest = if taken && kind.isElsePop then stack else stack.lower 1) := by
  by_cases hkind : kind.isConditional = true
  · by_cases hdepth : 0 < stack.depth
    · rw [test_of_conditional hkind hdepth] at htest
      refine .inr ⟨hkind, hdepth, ?_⟩
      rw [isTaken, hkind, Bool.not_true, Bool.false_or]
      cases htaken : (stack.slot 0).isNil == kind.onNil with
      | true =>
        rw [if_pos htaken] at htest
        cases htest
        exact ⟨rfl, rfl⟩
      | false =>
        rw [if_neg (Bool.eq_false_iff.mp htaken)] at htest
        cases htest
        exact ⟨rfl, rfl⟩
    · obtain ⟨limit, live, spent⟩ := stack
      cases live with
      | nil =>
        cases kind with
        | goto => cases hkind
        | _ => cases htest
      | cons => exact absurd (Nat.zero_lt_succ _) hdepth
  · cases kind with
    | goto =>
      cases htest
      exact .inl ⟨rfl, rfl, rfl⟩
    | _ => exact absurd rfl hkind

/-- What a branch leaves on the stack: one value less, unless it jumps always or keeps what it
tested. -/
theorem BranchKind.test_eq_ok {kind : BranchKind} {stack rest : OperandStack} {taken : Bool}
    (htest : kind.test stack = .ok (taken, rest)) :
    rest.limit = stack.limit ∧
      (taken = true → rest.depth =
        if kind.isConditional && !kind.isElsePop then stack.depth - 1 else stack.depth) ∧
      (taken = false → kind.isConditional = true ∧ rest.depth + 1 = stack.depth) := by
  obtain ⟨rfl, rfl, rfl⟩ | ⟨hkind, hdepth, -, rfl⟩ := test_cases htest
  · exact ⟨rfl, fun _ ↦ rfl, nofun⟩
  · have hlower : (stack.lower 1).depth = stack.depth - 1 := OperandStack.depth_lower 1
    refine ⟨?_, ?_, ?_⟩
    · split_ifs <;> rfl
    · rintro rfl
      cases hkeeps : kind.isElsePop <;> simp [hkind, hlower]
    · rintro rfl
      exact ⟨hkind, by simp only [Bool.false_and, Bool.false_eq_true, if_false]; omega⟩

/-- The test decides by the top. -/
theorem BranchKind.isTaken_of_test {kind : BranchKind} {stack rest : OperandStack} {taken : Bool}
    (htest : kind.test stack = .ok (taken, rest)) : kind.isTaken (stack.slot 0) = taken := by
  obtain ⟨rfl, rfl, -⟩ | ⟨-, -, htaken, -⟩ := test_cases htest
  · rfl
  · exact htaken.symm

theorem BranchKind.pos_of_test {kind : BranchKind} {stack rest : OperandStack} {taken : Bool}
    (htest : kind.test stack = .ok (taken, rest)) (hkind : kind.isConditional = true) :
    0 < stack.depth := by
  obtain ⟨rfl, -, -⟩ | ⟨-, hdepth, -⟩ := test_cases htest
  · cases hkind
  · exact hdepth

end LispMachine
