import LispMachine.Execution.Native
import LispMachine.Proofs.Store.Growth
import Mathlib.Tactic.SplitIfs

/-!
Arithmetic on words. Compiled code adds, subtracts, negates and compares the words of fixnums as
they are, and asks of the bits of the words whether the result stands. The main statement,
`onWords_answer`, says that what it makes of any words is the shortcut of the operation on the
values of these words: the result stands exactly where there is a shortcut, and then it is the word
of what the shortcut gives. So compiled code, which leaves to the primitive what does not stand, does
what the operation does (`performInline_eq`).

A word with the tag of fixnums, of symbols or of objects holds a value. There are words with other
tags, too, and compiled code treats them as it treats all words; a `Word.Reading` reads them as
values that are told apart and are no fixnums.
-/

set_option autoImplicit false

namespace LispMachine

namespace Word

/-! ### Tags -/

/-- The tag is what remains when a word is divided by eight. -/
theorem tag_eq_iff (word : Word) {n : Nat} (hn : n < 8) :
    word.tag = BitVec.ofNat 64 n ↔ word.toNat % 8 = n := by
  have htag : word.tag.toNat = word.toNat % 8 := by
    rw [tag, BitVec.toNat_and]
    exact Nat.and_two_pow_sub_one_eq_mod word.toNat 3
  have hword : n % 2 ^ 64 = n := Nat.mod_eq_of_lt (by omega)
  rw [← BitVec.toNat_inj, htag, BitVec.toNat_ofNat, hword]

theorem isFixnum_iff (word : Word) : word.isFixnum = true ↔ word.toInt % 8 = 0 := by
  have htag := word.tag_eq_iff (n := 0) (by decide)
  have hword := word.toInt_eq_toNat_cond
  rw [isFixnum, beq_iff_eq]
  refine htag.trans ?_
  split_ifs at hword <;> omega

/-- One test of the bits set in either word tells whether both words hold fixnums. -/
theorem isFixnum_or (x y : Word) : (x ||| y).isFixnum = (x.isFixnum && y.isFixnum) := by
  rw [Bool.eq_iff_iff, Bool.and_eq_true]
  simp only [isFixnum, tag, beq_iff_eq, BitVec.and_or_distrib_right]
  exact BitVec.or_eq_zero_iff

theorem value?_of_isFixnum {word : Word} (hfixnum : word.isFixnum = true) :
    word.value? = some (.fixnum (word.toInt / 8)) := by
  rw [value?, if_pos (beq_iff_eq.mp hfixnum)]

theorem isFixnum_of_value? {word : Word} {n : Int} (hvalue : word.value? = some (.fixnum n)) :
    word.isFixnum = true := by
  unfold value? at hvalue
  split_ifs at hvalue with hfixnum
  · exact beq_iff_eq.mpr hfixnum
  all_goals cases hvalue

/-- A word that holds a value is the word of the value. -/
theorem ofValue_of_value? {word : Word} {value : Value} (hvalue : word.value? = some value) :
    ofValue value = word := by
  unfold value? at hvalue
  split_ifs at hvalue with hfixnum hsymbol hobject <;> cases hvalue
  · have hdivides := (isFixnum_iff word).mp (beq_iff_eq.mpr hfixnum)
    rw [ofValue, Int.mul_ediv_cancel' (Int.dvd_of_emod_eq_zero hdivides), BitVec.ofInt_toInt]
  · have hplace : 8 * (word.toNat / 8) + 1 = word.toNat := by
      have htag := (word.tag_eq_iff (n := 1) (by decide)).mp hsymbol
      omega
    rw [ofValue, hplace, BitVec.ofNat_toNat, BitVec.setWidth_eq]
  · have hplace : 8 * (word.toNat / 8) + 2 = word.toNat := by
      have htag := (word.tag_eq_iff (n := 2) (by decide)).mp hobject
      omega
    rw [ofValue, hplace, BitVec.ofNat_toNat, BitVec.setWidth_eq]

/-- A word has room for every fixnum. -/
theorem value?_ofValue_of_ofInt? {n : Int} {value : Value} (hvalue : Value.ofInt? n = some value) :
    (ofValue value).value? = some value := by
  unfold Value.ofInt? at hvalue
  split_ifs at hvalue with hfits
  cases hvalue
  rw [Value.fitsFixnum_iff] at hfits
  have hword : (ofValue (.fixnum n)).toInt = 8 * n :=
    BitVec.toInt_ofInt_eq_self (by decide) (by omega) (by omega)
  have hfixnum : (ofValue (.fixnum n)).isFixnum = true := by
    rw [isFixnum_iff, hword]
    exact Int.mul_emod_right 8 n
  rw [value?_of_isFixnum hfixnum, hword, Int.mul_ediv_cancel_left n (by decide)]

/-! ### Readings -/

/-- Which value each word is. A word that holds a value is that value. The words with other tags
mark what is no value; they are different things, and none of them is a fixnum. -/
structure Reading where
  read : Word → Value
  injective : Function.Injective read
  held : ∀ {word value}, word.value? = some value → read word = value
  mark : ∀ {word}, word.value? = none → (read word).asFixnum? = none

/-- A word has room for fewer addresses than there are words. -/
theorem address_lt {word : Word} {address : Nat} (hvalue : word.value? = some (.object address)) :
    address < 0x10000000000000000 := by
  have hword := word.isLt
  unfold value? at hvalue
  split_ifs at hvalue <;> cases hvalue
  omega

/-- Marks can be read as objects behind every address that a word has room for. -/
instance : Inhabited Reading where
  default :=
    { read := fun word ↦ word.value?.getD (.object (0x10000000000000000 + word.toNat))
      injective := by
        intro x y hsame
        cases hx : x.value? with
        | none =>
          cases hy : y.value? with
          | none =>
            simp only [hx, hy, Option.getD_none, Value.object.injEq] at hsame
            exact BitVec.eq_of_toNat_eq (Nat.add_left_cancel hsame)
          | some value =>
            simp only [hx, hy, Option.getD_none, Option.getD_some] at hsame
            have haddress := address_lt (hsame ▸ hy)
            omega
        | some value =>
          cases hy : y.value? with
          | none =>
            simp only [hx, hy, Option.getD_none, Option.getD_some] at hsame
            have haddress := address_lt (hsame ▸ hx)
            omega
          | some other =>
            simp only [hx, hy, Option.getD_some] at hsame
            rw [← ofValue_of_value? hx, ← ofValue_of_value? hy, hsame]
      held := fun hvalue ↦ by rw [hvalue, Option.getD_some]
      mark := fun hnone ↦ by rw [hnone]; rfl }

namespace Reading

variable (reading : Reading) (x y : Word)

theorem read_nil : reading.read (ofValue .nil) = .nil := reading.held (by decide)

/-- The word of a value that it has room for is read as this value. -/
theorem read_of_ofValue? {value : Value} (hword : ofValue? value = some x) :
    reading.read x = value := by
  unfold ofValue? at hword
  dsimp only at hword
  split_ifs at hword with hheld
  cases hword
  exact reading.held hheld

/-- A word is read as a fixnum exactly if its tag is that of fixnums. -/
theorem asFixnum?_read :
    (reading.read x).asFixnum? = if x.isFixnum then some (x.toInt / 8) else none := by
  cases hvalue : x.value? with
  | none =>
    rw [reading.mark hvalue, if_neg]
    intro hfixnum
    rw [value?_of_isFixnum hfixnum] at hvalue
    cases hvalue
  | some value =>
    rw [reading.held hvalue]
    split_ifs with hfixnum
    · rw [value?_of_isFixnum hfixnum] at hvalue
      cases hvalue
      rfl
    · cases value with
      | fixnum n => exact absurd (isFixnum_of_value? hvalue) hfixnum
      | symbol | object => rfl

end Reading

/-! ### Checked arithmetic -/

/-- A word is not negative if its highest bit is not set. -/
theorem sle_zero (x : Word) : BitVec.sle 0 x = !x.msb := by
  rw [BitVec.sle_eq_decide, BitVec.msb_eq_toInt, ← decide_not, decide_eq_decide, Int.not_lt]
  rfl

/-- The signs of the operands and the result say exactly whether a sum of words overflows. -/
theorem stands_add (x y : Word) : (add x y).stands = !x.saddOverflow y := by
  simp only [add, sle_zero, BitVec.msb_and, BitVec.msb_xor, BitVec.saddOverflow_eq]
  cases x.msb <;> cases y.msb <;> cases (x + y).msb <;> rfl

theorem stands_subtract (x y : Word) : (subtract x y).stands = !x.ssubOverflow y := by
  simp only [subtract, sle_zero, BitVec.msb_and, BitVec.msb_xor, BitVec.ssubOverflow_eq]
  cases x.msb <;> cases y.msb <;> cases (x - y).msb <;> rfl

theorem stands_negate (x : Word) : (negate x).stands = !x.negOverflow := by
  simp [negate, BitVec.negOverflow_eq, bne]

/-- The words of fixnums are in the order of the fixnums. -/
theorem slt_eq_decide {x y : Word} {a b : Int} (hx : x.toInt = 8 * a) (hy : y.toInt = 8 * b) :
    BitVec.slt x y = decide (a < b) := by
  rw [BitVec.slt_eq_decide, decide_eq_decide, hx, hy]
  omega

theorem sle_eq_decide {x y : Word} {a b : Int} (hx : x.toInt = 8 * a) (hy : y.toInt = 8 * b) :
    BitVec.sle x y = decide (a ≤ b) := by
  rw [BitVec.sle_eq_decide, decide_eq_decide, hx, hy]
  omega

theorem noOverflow_iff (n low high : Int) :
    (!(decide (n ≥ high) || decide (n < low))) = true ↔ low ≤ n ∧ n < high := by
  simp only [Bool.not_eq_true', Bool.or_eq_false_iff, decide_eq_false_iff_not]
  omega

/-- A result answers for a shortcut: it stands exactly where there is a shortcut, and then it is the
word of what the shortcut gives. -/
def Checked.Answers (result : Checked) (shortcut : Option Value) : Prop :=
  (result.stands = true ↔ shortcut.isSome) ∧ ∀ value ∈ shortcut, result.word = ofValue value

namespace Checked

variable {result : Checked}

/-- A result that stands unless it leaves the signed range of words, and is then eight times as
large as the result of exact arithmetic. -/
theorem answers_ofInt? {n : Int}
    (hstands : result.stands = true ↔ -0x8000000000000000 ≤ 8 * n ∧ 8 * n < 0x8000000000000000)
    (hexact : result.stands = true → result.word.toInt = 8 * n) :
    result.Answers (Value.ofInt? n) := by
  have hfits : result.stands = true ↔ Value.fitsFixnum n = true := by
    rw [hstands, Value.fitsFixnum_iff]
    omega
  unfold Value.ofInt?
  split_ifs with hn
  · refine ⟨by simp [hfits, hn], fun value hvalue ↦ ?_⟩
    cases hvalue
    rw [ofValue, ← hexact (hfits.mpr hn), BitVec.ofInt_toInt]
  · exact ⟨by simp [hfits, hn], nofun⟩

theorem answers_add {x y : Word} {a b : Int} (hx : x.toInt = 8 * a) (hy : y.toInt = 8 * b) :
    (add x y).Answers (Value.ofInt? (a + b)) := by
  have hstands := stands_add x y
  refine answers_ofInt? ?_ fun hstand ↦ ?_
  · rw [hstands, BitVec.saddOverflow, noOverflow_iff]
    omega
  · rw [hstands, Bool.not_eq_true'] at hstand
    rw [add, BitVec.toInt_add_of_not_saddOverflow (by simp [hstand]), hx, hy, Int.mul_add]

theorem answers_subtract {x y : Word} {a b : Int} (hx : x.toInt = 8 * a) (hy : y.toInt = 8 * b) :
    (subtract x y).Answers (Value.ofInt? (a - b)) := by
  have hstands := stands_subtract x y
  refine answers_ofInt? ?_ fun hstand ↦ ?_
  · rw [hstands, BitVec.ssubOverflow, noOverflow_iff]
    omega
  · rw [hstands, Bool.not_eq_true'] at hstand
    rw [subtract, BitVec.toInt_sub_of_not_ssubOverflow (by simp [hstand]), hx, hy, Int.mul_sub]

theorem answers_negate {x : Word} {a : Int} (hx : x.toInt = 8 * a) :
    (negate x).Answers (Value.ofInt? (-a)) := by
  have hstands := stands_negate x
  have hlow := BitVec.le_toInt x
  have hhigh := BitVec.toInt_lt (x := x)
  refine answers_ofInt? ?_ fun hstand ↦ ?_
  · rw [hstands, BitVec.negOverflow, hx, Bool.not_eq_true', beq_eq_false_iff_ne]
    omega
  · rw [hstands, Bool.not_eq_true'] at hstand
    rw [negate, BitVec.toInt_neg_of_not_negOverflow (by simp [hstand]), hx, Int.mul_neg]

theorem answers_ofBool (b : Bool) :
    (⟨Word.ofBool b, true⟩ : Checked).Answers (some (.ofBool b)) := by
  refine ⟨by simp, fun value hvalue ↦ ?_⟩
  cases hvalue
  cases b <;> rfl

variable (reading : Reading) {x y : Word}

/-- A result made of the word of one fixnum. -/
theorem answers_one {shortcut : Int → Option Value}
    (hanswers : ∀ a, x.toInt = 8 * a → result.Answers (shortcut a)) :
    (result.provided x.isFixnum).Answers ((reading.read x).asFixnum?.bind shortcut) := by
  rw [reading.asFixnum?_read]
  cases hfixnum : x.isFixnum with
  | false => exact ⟨by simp [provided], nofun⟩
  | true =>
    have hdivides := (isFixnum_iff x).mp hfixnum
    exact hanswers _ (Int.mul_ediv_cancel' (Int.dvd_of_emod_eq_zero hdivides)).symm

/-- A result made of the words of two fixnums. -/
theorem answers_two {shortcut : Int → Int → Option Value}
    (hanswers : ∀ a b, x.toInt = 8 * a → y.toInt = 8 * b → result.Answers (shortcut a b)) :
    (result.provided (x ||| y).isFixnum).Answers
      ((reading.read x).asFixnum?.bind fun a ↦ (reading.read y).asFixnum?.bind (shortcut a)) := by
  have hfirst : ((result.provided y.isFixnum).provided x.isFixnum).Answers
      ((reading.read x).asFixnum?.bind fun a ↦ (reading.read y).asFixnum?.bind (shortcut a)) :=
    answers_one reading fun a hx ↦ answers_one reading fun b hy ↦ hanswers a b hx hy
  rwa [isFixnum_or, provided, Bool.and_assoc]

/-- A comparison of the words of two fixnums. -/
theorem answers_compared {compared : Bool} {relation : Int → Int → Bool}
    (hcompared : ∀ a b, x.toInt = 8 * a → y.toInt = 8 * b → compared = relation a b) :
    (⟨Word.ofBool compared, (x ||| y).isFixnum⟩ : Checked).Answers
      ((reading.read x).asFixnum?.bind fun a ↦
        (reading.read y).asFixnum?.bind fun b ↦ some (.ofBool (relation a b))) := by
  have hanswers (a b : Int) (hx : x.toInt = 8 * a) (hy : y.toInt = 8 * b) :
      (⟨Word.ofBool compared, true⟩ : Checked).Answers (some (.ofBool (relation a b))) := by
    rw [hcompared a b hx hy]
    exact answers_ofBool _
  have htwo := answers_two reading hanswers
  rwa [provided, Bool.and_true] at htwo

end Checked

end Word

namespace Operation

open Word

variable {operation : Operation}

/-- All shortcuts on one operand but the test for nil are shortcuts on a fixnum. -/
theorem shortcut?_one (hoperation : operation ≠ .isNull) (value : Value) :
    operation.shortcut? [value] = value.asFixnum?.bind operation.fixnumShortcut? := by
  cases value <;> simp [shortcut?, Value.asFixnum?, hoperation]

theorem shortcut?_two (hoperation : operation ≠ .same) (first second : Value) :
    operation.shortcut? [first, second] =
      first.asFixnum?.bind fun a ↦ second.asFixnum?.bind (operation.fixnumsShortcut? a) := by
  cases first <;> cases second <;> simp [shortcut?, Value.asFixnum?, hoperation]

variable (reading : Reading) {x y : Word} {result : Checked}

/-- Compiled code makes of a word what the shortcut makes of its value. -/
theorem answers_onWord? (hresult : operation.onWord? x = some result) :
    result.Answers (operation.shortcut? [reading.read x]) := by
  have hone : (ofValue (.fixnum 1)).toInt = 8 * 1 := by decide
  unfold onWord? at hresult
  split at hresult
  · cases hresult
    have hnil : (x == ofValue .nil) = (reading.read x == .nil) := by
      rw [Bool.eq_iff_iff, beq_iff_eq, beq_iff_eq, ← reading.injective.eq_iff, reading.read_nil]
    rw [hnil]
    exact Checked.answers_ofBool _
  · cases hresult
    rw [shortcut?_one (by decide)]
    exact Checked.answers_one reading fun a hx ↦ Checked.answers_add hx hone
  · cases hresult
    rw [shortcut?_one (by decide)]
    exact Checked.answers_one reading fun a hx ↦ Checked.answers_subtract hx hone
  · cases hresult
    rw [shortcut?_one (by decide)]
    exact Checked.answers_one reading fun a hx ↦ Checked.answers_negate hx
  · cases hresult

/-- Compiled code makes of two words what the shortcut makes of their values. -/
theorem answers_onWords? (hresult : operation.onWords? x y = some result) :
    result.Answers (operation.shortcut? [reading.read x, reading.read y]) := by
  unfold onWords? at hresult
  split at hresult
  · cases hresult
    have hsame : (x == y) = (reading.read x == reading.read y) := by
      rw [Bool.eq_iff_iff, beq_iff_eq, beq_iff_eq, reading.injective.eq_iff]
    rw [hsame]
    exact Checked.answers_ofBool _
  · cases hresult
    rw [shortcut?_two (by decide)]
    exact Checked.answers_two reading fun a b hx hy ↦ Checked.answers_add hx hy
  · cases hresult
    rw [shortcut?_two (by decide)]
    exact Checked.answers_two reading fun a b hx hy ↦ Checked.answers_subtract hx hy
  · cases hresult
    rw [shortcut?_two (by decide)]
    refine Checked.answers_compared reading fun a b hx hy ↦ ?_
    rw [Bool.eq_iff_iff, beq_iff_eq, beq_iff_eq, ← BitVec.toInt_inj]
    omega
  · cases hresult
    rw [shortcut?_two (by decide)]
    exact Checked.answers_compared reading fun a b hx hy ↦ slt_eq_decide hy hx
  · cases hresult
    rw [shortcut?_two (by decide)]
    exact Checked.answers_compared reading fun a b hx hy ↦ slt_eq_decide hx hy
  · cases hresult
    rw [shortcut?_two (by decide)]
    exact Checked.answers_compared reading fun a b hx hy ↦ sle_eq_decide hx hy
  · cases hresult
    rw [shortcut?_two (by decide)]
    exact Checked.answers_compared reading fun a b hx hy ↦ sle_eq_decide hy hx
  · cases hresult

/-- A shortcut gives an integer that fits in a fixnum, or truth or falsehood. -/
theorem shortcut?_cases {operands : List Value} {value : Value}
    (hshortcut : operation.shortcut? operands = some value) :
    (∃ n, Value.ofInt? n = some value) ∨ ∃ b, .ofBool b = value := by
  unfold shortcut? at hshortcut
  split at hshortcut
  · exact .inr ⟨_, Option.some.inj hshortcut⟩
  · exact .inr ⟨_, Option.some.inj hshortcut⟩
  · unfold fixnumShortcut? at hshortcut
    split at hshortcut
    all_goals first
      | exact .inl ⟨_, hshortcut⟩
      | cases hshortcut
  · unfold fixnumsShortcut? at hshortcut
    split at hshortcut
    all_goals first
      | exact .inl ⟨_, hshortcut⟩
      | exact .inr ⟨_, Option.some.inj hshortcut⟩
      | cases hshortcut
  · cases hshortcut

/-- A result that answers for a shortcut and stands has the value that the shortcut gives. -/
theorem shortcut?_of_answers {operands : List Value} {value : Value}
    (hanswers : result.Answers (operation.shortcut? operands))
    (hvalue : result.value? = some value) : operation.shortcut? operands = some value := by
  unfold Checked.value? at hvalue
  split_ifs at hvalue with hstands
  obtain ⟨other, hother⟩ := Option.isSome_iff_exists.mp (hanswers.1.mp hstands)
  have hword : result.word = ofValue other := hanswers.2 other hother
  have hheld : (ofValue other).value? = some other := by
    obtain ⟨n, hn⟩ | ⟨b, rfl⟩ := shortcut?_cases hother
    · exact value?_ofValue_of_ofInt? hn
    · cases b <;> decide
  rw [hword, hheld] at hvalue
  rw [hother, hvalue]

/-- What compiled code finds with the words of the operands is what the shortcut gives. -/
theorem shortcut?_of_inline? {operands : List Value} {value : Value}
    (hinline : operation.inline? operands = some value) :
    operation.shortcut? operands = some value := by
  unfold inline? at hinline
  split at hinline
  · simp only [Option.bind_eq_bind, Option.bind_eq_some_iff] at hinline
    obtain ⟨x, hx, result, hresult, hvalue⟩ := hinline
    have hanswers := answers_onWord? default hresult
    rw [Reading.read_of_ofValue? default _ hx] at hanswers
    exact shortcut?_of_answers hanswers hvalue
  · simp only [Option.bind_eq_bind, Option.bind_eq_some_iff] at hinline
    obtain ⟨x, hx, y, hy, result, hresult, hvalue⟩ := hinline
    have hanswers := answers_onWords? default hresult
    rw [Reading.read_of_ofValue? default _ hx, Reading.read_of_ofValue? default _ hy] at hanswers
    exact shortcut?_of_answers hanswers hvalue
  · cases hinline

/-- Compiled code does what the operation does. -/
theorem performInline_eq (operation : Operation) : operation.performInline = operation.perform := by
  funext caller operands
  unfold performInline
  cases hinline : operation.inline? operands with
  | none => rfl
  | some value =>
    dsimp only
    rw [perform, shortcut?_of_inline? hinline]

/-- Compiled code computes with words as the shortcuts compute with values. For all words `x` and
`y` of 64 bits, however they are read as values,

1. it has its own way with one word for four operations and with two words for eight, and what it
   makes of the words stands exactly where the operation has a shortcut on the values, and is then
   the word of what the shortcut gives;
2. for the test for nil and the test for identity the result always stands. -/
theorem onWords_answer (reading : Reading) (x y : Word) :
    ((∀ operation ∈ [.isNull, .addOne, .subtractOne, .negate], ∃ result,
        onWord? operation x = some result ∧
          result.Answers (operation.shortcut? [reading.read x])) ∧
      ∀ operation ∈ [.same, .plus, .difference, .numEqual, .greater, .less, .lessOrEqual,
          .greaterOrEqual], ∃ result,
        onWords? operation x y = some result ∧
          result.Answers (operation.shortcut? [reading.read x, reading.read y])) ∧
      (onWord? .isNull x).map Checked.stands = some true ∧
      (onWords? .same x y).map Checked.stands = some true := by
  refine ⟨⟨fun operation hmem ↦ ?_, fun operation hmem ↦ ?_⟩, rfl, rfl⟩
  · have hsome : (operation.onWord? x).isSome = true := by
      simp only [List.mem_cons, List.not_mem_nil, or_false] at hmem
      rcases hmem with rfl | rfl | rfl | rfl <;> rfl
    obtain ⟨result, hresult⟩ := Option.isSome_iff_exists.mp hsome
    exact ⟨result, hresult, answers_onWord? reading hresult⟩
  · have hsome : (operation.onWords? x y).isSome = true := by
      simp only [List.mem_cons, List.not_mem_nil, or_false] at hmem
      rcases hmem with rfl | rfl | rfl | rfl | rfl | rfl | rfl | rfl <;> rfl
    obtain ⟨result, hresult⟩ := Option.isSome_iff_exists.mp hsome
    exact ⟨result, hresult, answers_onWords? reading hresult⟩

/-- The sum of the largest fixnum and one is left to the primitive, the largest fixnum less one is
not. -/
theorem onWords_answer_largest :
    let x := ofValue (.fixnum Value.mostPositiveFixnum)
    let one := ofValue (.fixnum 1)
    (∃ result, onWords? .plus x one = some result ∧ result.stands = false) ∧
      ∃ result, onWords? .difference x one = some result ∧ result.stands = true ∧
        result.word = ofValue (.fixnum (Value.mostPositiveFixnum - 1)) := by
  intro x one
  obtain ⟨⟨-, hanswers⟩, -⟩ := onWords_answer default x one
  have hx : (default : Reading).read x = .fixnum Value.mostPositiveFixnum :=
    Reading.held _ (by decide)
  have hone : (default : Reading).read one = .fixnum 1 := Reading.held _ (by decide)
  rw [hx, hone] at hanswers
  obtain ⟨sum, hsum, hunfit, -⟩ := hanswers .plus (by decide)
  obtain ⟨difference, hdifference, hfit, hword⟩ := hanswers .difference (by decide)
  have hstands : difference.stands = true := hfit.mpr (by decide)
  refine ⟨⟨sum, hsum, ?_⟩, difference, hdifference, hstands, hword _ rfl⟩
  rw [Bool.eq_false_iff]
  exact fun hstand ↦ absurd (hunfit.mp hstand) (by decide)

end Operation

end LispMachine
