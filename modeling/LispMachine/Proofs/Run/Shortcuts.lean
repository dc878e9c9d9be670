import LispMachine.Execution.Operation
import LispMachine.Proofs.Decimal.Rounding
import LispMachine.Proofs.Run.Coupled
import LispMachine.Proofs.Store.Applied
import LispMachine.Proofs.Store.Growth

/-!
Shortcuts of operations. Some results are determined by the operands alone, and code takes them
without asking the primitive. The primitive computes with integers of 64 bits, changes to floats
where these are too small, and compares any two numbers; on fixnums whose result is a fixnum all of
that comes to exact arithmetic, and nothing is allocated. The main statement, `run_of_shortcut?`,
says that where there is a shortcut the primitive gives the same value and leaves the whole machine
as it was.
-/

set_option autoImplicit false

namespace LispMachine

open LispMachine.Action Storage

/-! ### Numbers that are integers -/

/-- What fits a fixnum fits a word. -/
theorem Number.fitsWord_of_fitsFixnum {n : Int} (hfits : Value.fitsFixnum n = true) :
    Number.fitsWord n = true := by
  rw [Value.fitsFixnum_iff] at hfits
  simp only [Number.fitsWord, Bool.and_eq_true, decide_eq_true_eq]
  omega

theorem Value.fitsFixnum_of_ofInt? {n : Int} {value : Value} (hvalue : ofInt? n = some value) :
    fitsFixnum n = true := by
  unfold ofInt? at hvalue
  split_ifs at hvalue with hfits
  exact hfits

/-- Integers are compared exactly: as floats they would be numbers too. -/
theorem Number.atMost_integers (a b : Int) :
    Number.atMost (.integer a) (.integer b) = decide (a ≤ b) := by
  have hnumber (n : Int) : (Number.integer n).isNaN = false := isNaN_floatOfInt n
  simp only [Number.atMost, Number.less, hnumber]
  by_cases hle : a ≤ b
  · simp [hle, Int.not_lt.mpr hle]
  · simp [hle, Int.not_le.mp hle]

namespace Storage

variable {a b n : Int} {value : Value} {store : Store}

theorem makeNumber_of_ofInt? (hvalue : Value.ofInt? n = some value) :
    makeNumber (.integer n) store = .ok value store := by
  simp only [makeNumber, hvalue]
  rfl

/-- An operation on integers whose result fits a fixnum. Division is left out, which fails at zero. -/
theorem combine_integers {operation : ArithmeticOperation} (hoperation : operation ≠ .divide)
    (hfits : Value.fitsFixnum (operation.onIntegers a b) = true) :
    combine operation (.integer a) (.integer b) store =
      .ok (.integer (operation.onIntegers a b)) store := by
  have hresult : Number.combine? operation (.integer a) (.integer b) =
      some (.integer (operation.onIntegers a b)) := by
    unfold Number.combine?
    simp [hoperation, Number.fitsWord_of_fitsFixnum hfits]
  unfold combine
  rw [hresult]
  rfl

/-- One integer is added to or subtracted from another. -/
theorem combine_then_make (operation : ArithmeticOperation) (hoperation : operation ≠ .divide)
    (hvalue : Value.ofInt? (operation.onIntegers a b) = some value) :
    (do makeNumber (← combine operation (.integer a) (.integer b)) : Storage Value) store =
      .ok value store :=
  (bind_of_ok (combine_integers hoperation (Value.fitsFixnum_of_ofInt? hvalue))).trans
    (makeNumber_of_ofInt? hvalue)

/-! ### Primitives on fixnums -/

theorem addOne_fixnum (hvalue : Value.ofInt? (a + 1) = some value) :
    addOne (.fixnum a) store = .ok value store :=
  combine_then_make .add (by decide) hvalue

theorem subtractOne_fixnum (hvalue : Value.ofInt? (a - 1) = some value) :
    subtractOne (.fixnum a) store = .ok value store :=
  combine_then_make .subtract (by decide) hvalue

theorem minus_fixnum (hvalue : Value.ofInt? (-a) = some value) :
    minus [.fixnum a] store = .ok value store := by
  have hnegative : Value.ofInt? (ArithmeticOperation.subtract.onIntegers 0 a) = some value := by
    rwa [ArithmeticOperation.onIntegers, Int.zero_sub]
  exact combine_then_make .subtract (by decide) hnegative

theorem minus_fixnums (hvalue : Value.ofInt? (a - b) = some value) :
    minus [.fixnum a, .fixnum b] store = .ok value store := by
  have hdifference : combineAll .subtract (.integer a) [.integer b] store =
      .ok (.integer (a - b)) store :=
    bind_of_ok (combine_integers (by decide) (Value.fitsFixnum_of_ofInt? hvalue))
  exact (bind_of_ok hdifference).trans (makeNumber_of_ofInt? hvalue)

/-- A sum starts from zero, so its first operand must fit a word by itself. -/
theorem plus_fixnums (ha : Value.fitsFixnum a = true) (hvalue : Value.ofInt? (a + b) = some value) :
    plus [.fixnum a, .fixnum b] store = .ok value store := by
  have hfirst : combine .add (.integer 0) (.integer a) store = .ok (.integer a) store := by
    have hzero : ArithmeticOperation.add.onIntegers 0 a = a := Int.zero_add a
    rw [combine_integers (by decide) (by rwa [hzero]), hzero]
  have hsum : combineAll .add (.integer 0) [.integer a, .integer b] store =
      .ok (.integer (a + b)) store :=
    (bind_of_ok hfirst).trans
      (bind_of_ok (combine_integers (by decide) (Value.fitsFixnum_of_ofInt? hvalue)))
  exact (bind_of_ok hsum).trans (makeNumber_of_ofInt? hvalue)

theorem compareWith_fixnums (relation : Number → Number → Bool) :
    compareWith relation [.fixnum a, .fixnum b] store =
      .ok (.ofBool (relation (.integer a) (.integer b))) store := by
  have hchained : chained relation [.integer a, .integer b] =
      relation (.integer a) (.integer b) := by
    simp [chained]
  rw [← hchained]
  rfl

end Storage

/-! ### Operations -/

namespace Operation

variable {operation : Operation} {operands : List Value} {a b : Int} {value : Value}

/-- On one fixnum. -/
theorem run_of_fixnumShortcut? (hshortcut : operation.fixnumShortcut? a = some value)
    (caller : Caller) (machine : Machine) :
    operation.action.run caller [.fixnum a] machine = .ok value machine := by
  unfold fixnumShortcut? at hshortcut
  split at hshortcut
  · exact liftM_of_ok (addOne_fixnum hshortcut)
  · exact liftM_of_ok (subtractOne_fixnum hshortcut)
  · exact liftM_of_ok (minus_fixnum hshortcut)
  · cases hshortcut

/-- On two fixnums, the first of which is in range. -/
theorem run_of_fixnumsShortcut? (ha : Value.fitsFixnum a = true)
    (hshortcut : operation.fixnumsShortcut? a b = some value) (caller : Caller)
    (machine : Machine) :
    operation.action.run caller [.fixnum a, .fixnum b] machine = .ok value machine := by
  unfold fixnumsShortcut? at hshortcut
  split at hshortcut
  · exact liftM_of_ok (plus_fixnums ha hshortcut)
  · exact liftM_of_ok (minus_fixnums hshortcut)
  · cases hshortcut
    exact liftM_of_ok (compareWith_fixnums Number.same)
  · cases hshortcut
    exact liftM_of_ok (compareWith_fixnums fun a b ↦ Number.less b a)
  · cases hshortcut
    exact liftM_of_ok (compareWith_fixnums Number.less)
  · cases hshortcut
    rw [← Number.atMost_integers]
    exact liftM_of_ok (compareWith_fixnums Number.atMost)
  · cases hshortcut
    rw [← Number.atMost_integers]
    exact liftM_of_ok (compareWith_fixnums fun a b ↦ Number.atMost b a)
  · cases hshortcut

/-- The shortcut of an operation is what its primitive gives for the same operands, whatever they
are, and the primitive changes nothing of the machine, neither the objects of the heap nor the count
of its allocations. -/
theorem run_of_shortcut? (hrange : ∀ n, .fixnum n ∈ operands → Value.fitsFixnum n = true)
    (hshortcut : operation.shortcut? operands = some value) (caller : Caller) (machine : Machine) :
    operation.action.run caller operands machine = .ok value machine := by
  unfold shortcut? at hshortcut
  split at hshortcut
  · cases hshortcut
    rfl
  · cases hshortcut
    rfl
  · exact run_of_fixnumShortcut? hshortcut caller machine
  · exact run_of_fixnumsShortcut? (hrange _ (by simp)) hshortcut caller machine
  · cases hshortcut

/-- The largest and the smallest fixnum have a sum. -/
theorem run_of_shortcut?_extremes :
    let operands : List Value :=
      [.fixnum Value.mostPositiveFixnum, .fixnum Value.mostNegativeFixnum]
    (∀ n, .fixnum n ∈ operands → Value.fitsFixnum n = true) ∧
      Operation.plus.shortcut? operands = some (.fixnum (-1)) ∧
      ∀ (caller : Caller) (machine : Machine),
        Operation.plus.action.run caller operands machine = .ok (.fixnum (-1)) machine := by
  intro operands
  have hrange : ∀ n, .fixnum n ∈ operands → Value.fitsFixnum n = true := by
    intro n hmem
    rcases List.mem_pair.mp hmem with hn | hn <;> cases hn <;> decide
  have hshortcut : Operation.plus.shortcut? operands = some (.fixnum (-1)) := by decide
  exact ⟨hrange, hshortcut, run_of_shortcut? hrange hshortcut⟩

end Operation

end LispMachine
