import LispMachine.Proofs.Run.Shortcuts
import Mathlib.Algebra.BigOperators.Group.List.Basic

/-!
Arithmetic on fixnums is exact or ends in a float. A sum, a product or a difference is computed from
left to right with integers of 64 bits, and what has once become a float stays one. So two bounds
count: every partial result has to fit a word, and the last one has to be a fixnum. The main
statement, `arithmetic_exact_or_float`, says that where both are met the primitive gives the exact
result and changes nothing, and that it makes a float everywhere else. There is no list of fixnums
on which it signals.
-/

set_option autoImplicit false

namespace LispMachine

open LispMachine.Action

namespace Storage

variable {operation : ArithmeticOperation} {store : Store}

/-! ### Results on the way -/

/-- What an operation on numbers comes to, where `partials` are the results on the way to the exact
one: that as long as all of them fit a word, and a float otherwise. -/
def ComesTo (result : Number) (partials : List Int) (exact : Int) : Prop :=
  if ∀ n ∈ partials, Number.fitsWord n = true then result = .integer exact
  else result.isFloat = true

theorem combineAll_float (operation : ArithmeticOperation) (x : Double) (ns : List Number)
    (store : Store) : ∃ y, combineAll operation (.float x) ns store = .ok (.float y) store := by
  induction ns generalizing x with
  | nil => exact ⟨x, rfl⟩
  | cons n rest ih =>
    have hnext : ∃ y, combine operation (.float x) n store = .ok (.float y) store := by
      cases n <;> exact ⟨_, rfl⟩
    obtain ⟨y, hnext⟩ := hnext
    obtain ⟨z, hrest⟩ := ih y
    exact ⟨z, (bind_of_ok hnext).trans hrest⟩

/-- An operation on two integers gives the exact result if it fits a word, and a float if not. -/
theorem combine_integers_cases (hoperation : operation ≠ .divide) (a b : Int) (store : Store) :
    (Number.fitsWord (operation.onIntegers a b) = true ∧
      combine operation (.integer a) (.integer b) store =
        .ok (.integer (operation.onIntegers a b)) store) ∨
    (Number.fitsWord (operation.onIntegers a b) = false ∧
      ∃ x, combine operation (.integer a) (.integer b) store = .ok (.float x) store) := by
  unfold combine Number.combine?
  simp only [hoperation, false_and, if_false]
  cases hfits : Number.fitsWord (operation.onIntegers a b) with
  | true => exact .inl ⟨rfl, rfl⟩
  | false => exact .inr ⟨rfl, _, rfl⟩

/-- The first result on the way, and the others. -/
theorem forall_results_cons (f : Int → Int → Int) (start n : Int) (rest : List Int)
    (p : Int → Prop) :
    (∀ m ∈ ((n :: rest).scanl f start).tail, p m) ↔
      p (f start n) ∧ ∀ m ∈ (rest.scanl f (f start n)).tail, p m := by
  rw [List.scanl_cons, List.tail_cons]
  cases rest with
  | nil => simp
  | cons next rest => rw [List.scanl_cons, List.forall_mem_cons, List.tail_cons]

/-- Integers are combined exactly until a result on the way does not fit a word. -/
theorem combineAll_integers (hoperation : operation ≠ .divide) (start : Int) (ns : List Int)
    (store : Store) :
    ∃ result, combineAll operation (.integer start) (ns.map .integer) store = .ok result store ∧
      ComesTo result (ns.scanl operation.onIntegers start).tail
        (ns.foldl operation.onIntegers start) := by
  unfold ComesTo
  induction ns generalizing start with
  | nil => exact ⟨_, rfl, by simp⟩
  | cons n rest ih =>
    simp only [forall_results_cons, List.foldl_cons]
    rcases combine_integers_cases hoperation start n store with ⟨hfits, hnext⟩ | ⟨hfits, x, hnext⟩
    · obtain ⟨result, hrest, hresult⟩ := ih (operation.onIntegers start n)
      refine ⟨result, (bind_of_ok hnext).trans hrest, ?_⟩
      simpa only [hfits, true_and] using hresult
    · obtain ⟨y, hrest⟩ := combineAll_float operation x (rest.map .integer) store
      refine ⟨_, (bind_of_ok hnext).trans hrest, ?_⟩
      simp [hfits, Number.isFloat]

theorem numbers_fixnums (ns : List Int) (store : Store) :
    numbers (ns.map .fixnum) store = .ok (ns.map .integer) store := by
  induction ns with
  | nil => rfl
  | cons n rest ih =>
    change (numbers (rest.map .fixnum) >>= fun rest ↦ pure (Number.integer n :: rest)) store = _
    exact bind_of_ok ih

/-! ### Values of results -/

/-- On a store an action gives the exact result if it is a fixnum and all the results on the way fit
a word, and then leaves the store as it is. Otherwise it gives a float, which is new. -/
def GivesNumber (action : Storage Value) (store : Store) (partials : List Int) (exact : Int) :
    Prop :=
  ∃ value after, action store = .ok value after ∧
    (value.isFixnum = true ↔
      (∀ n ∈ partials, Number.fitsWord n = true) ∧ Value.fitsFixnum exact = true) ∧
    (value.isFixnum = true → value = .fixnum exact ∧ after = store) ∧
    (value.isFixnum = false →
      ∃ x, after.heap.get? value = some (.float x) ∧ makeFloat x store = .ok value after)

variable {partials : List Int} {exact : Int}

theorem givesNumber_of_float {action : Storage Value} {x : Double}
    (hfloat : action store = makeFloat x store)
    (hunfit : ¬((∀ n ∈ partials, Number.fitsWord n = true) ∧ Value.fitsFixnum exact = true)) :
    GivesNumber action store partials exact := by
  refine ⟨_, _, hfloat, iff_of_false nofun hunfit, nofun, fun _ ↦ ⟨x, ?_, rfl⟩⟩
  simp [Heap.get?]

/-- The value of what an operation on numbers comes to. -/
theorem givesNumber_of_comesTo {action : Storage Number} {result : Number}
    (hresult : action store = .ok result store) (hcomes : ComesTo result partials exact) :
    GivesNumber (action >>= makeNumber) store partials exact := by
  have hmake : (action >>= makeNumber) store = makeNumber result store := bind_of_ok hresult
  unfold ComesTo at hcomes
  split_ifs at hcomes with hpartials
  · subst hcomes
    cases hfits : Value.fitsFixnum exact with
    | true =>
      have hvalue : Value.ofInt? exact = some (.fixnum exact) := by simp [Value.ofInt?, hfits]
      rw [makeNumber_of_ofInt? hvalue] at hmake
      exact ⟨_, _, hmake, iff_of_true rfl ⟨hpartials, hfits⟩, fun _ ↦ ⟨rfl, rfl⟩, nofun⟩
    | false =>
      have hvalue : Value.ofInt? exact = none := by simp [Value.ofInt?, hfits]
      refine givesNumber_of_float (x := .ofInt exact) ?_ (by simp [hfits])
      rw [hmake, makeNumber, hvalue]
  · cases result with
    | integer => cases hcomes
    | float x => exact givesNumber_of_float hmake fun hfits ↦ hpartials hfits.1

/-- The value of an operation on a number and others. -/
theorem givesNumber_combineAll (hoperation : operation ≠ .divide) (start : Int) (ns : List Int)
    (store : Store) :
    GivesNumber (do makeNumber (← combineAll operation (.integer start)
        (← numbers (ns.map .fixnum)))) store
      (ns.scanl operation.onIntegers start).tail (ns.foldl operation.onIntegers start) := by
  obtain ⟨result, hrun, hcomes⟩ := combineAll_integers hoperation start ns store
  have hresult : (numbers (ns.map .fixnum) >>= combineAll operation (.integer start)) store =
      .ok result store := (bind_of_ok (numbers_fixnums ns store)).trans hrun
  have hgives := givesNumber_of_comesTo hresult hcomes
  rwa [bind_assoc] at hgives

end Storage

/-- The results on the way of the exact difference of some numbers. One number alone is subtracted
from zero. -/
def differences : List Int → List Int
  | [] => []
  | [n] => [0 - n]
  | first :: rest => (rest.scanl (· - ·) first).tail

/-- The exact difference: the negative of one number, or the first less the others. -/
def exactDifference : List Int → Int
  | [] => 0
  | [n] => -n
  | first :: rest => first - rest.sum

theorem foldl_sub (first : Int) (rest : List Int) :
    rest.foldl (· - ·) first = first - rest.sum := by
  induction rest generalizing first with
  | nil => simp
  | cons n rest ih => rw [List.foldl_cons, ih, List.sum_cons, Int.sub_sub]

namespace Storage

/-- Sums, products and differences of fixnums are exact or floats. For every list of fixnums, the
primitive gives a fixnum if and only if every result on the way, from left to right, fits a word and
the exact result is in the range of fixnums; then it is the exact result, and the store is as
before. In all other cases it gives a new float. -/
theorem arithmetic_exact_or_float (ns : List Int) (store : Store) :
    GivesNumber (plus (ns.map .fixnum)) store (ns.scanl (· + ·) 0).tail ns.sum ∧
    GivesNumber (times (ns.map .fixnum)) store (ns.scanl (· * ·) 1).tail ns.prod ∧
    GivesNumber (minus (ns.map .fixnum)) store (differences ns) (exactDifference ns) := by
  refine ⟨?_, ?_, ?_⟩
  · rw [List.sum_eq_foldl]
    exact givesNumber_combineAll (show ArithmeticOperation.add ≠ .divide by decide) 0 ns store
  · rw [List.prod_eq_foldl]
    exact givesNumber_combineAll (show ArithmeticOperation.multiply ≠ .divide by decide) 1 ns store
  · have hsubtract : ArithmeticOperation.subtract ≠ .divide := by decide
    match ns with
    | [] =>
      exact ⟨_, _, rfl, iff_of_true rfl ⟨nofun, by decide⟩, fun _ ↦ ⟨rfl, rfl⟩, nofun⟩
    | [n] =>
      obtain ⟨result, hrun, hcomes⟩ :=
        combineAll_integers hsubtract 0 [n] store
      have hcombine : combine .subtract (.integer 0) (.integer n) store = .ok result store := by
        rw [← hrun, ← bind_pure (combine _ _ _)]
        rfl
      have hpartials : ([n].scanl ArithmeticOperation.subtract.onIntegers 0).tail = [0 - n] := by
        simp [ArithmeticOperation.onIntegers]
      rw [hpartials] at hcomes
      rw [exactDifference, ← Int.zero_sub]
      exact givesNumber_of_comesTo hcombine hcomes
    | first :: second :: rest =>
      rw [exactDifference, ← foldl_sub]
      · exact givesNumber_combineAll hsubtract first (second :: rest) store
      · exact List.cons_ne_nil _ _

/-- A sum may leave the range of fixnums on the way and come back. -/
example (store : Store) :
    plus [.fixnum Value.mostPositiveFixnum, .fixnum 1, .fixnum (-1)] store =
      .ok (.fixnum Value.mostPositiveFixnum) store := by
  rfl

end Storage

end LispMachine
