import LispMachine.Program.Basic
import Mathlib.Data.List.Forall2
import Mathlib.Data.List.Induction

/-!
Code spelled in hexadecimal. Without its blanks the spelling is read pair by pair, and each pair
stands for a byte. What stands for a byte is two hexadecimal digits (`DigitPair`), but also a plus
sign and one digit (`SpellsByte`), since a pair is read as a number with an optional sign. The main
statement, `toCode_hexadecimal`, says for every text whether it is accepted, as which bytes, and why
it is refused; `toCode_signed` is a spelling that is accepted though it is not made of digits.
-/

set_option autoImplicit false

namespace LispMachine

variable {c first second : Char} {value : Nat} {digits : List Char}

/-! ### Digits -/

/-- The character is a hexadecimal digit, of either case, and this is its value. -/
def HexDigit (c : Char) (value : Nat) : Prop :=
  value < 16 ∧ (c = value.digitChar ∨ c = value.digitChar.toUpper)

/-- Two hexadecimal digits, and the byte with the first in its upper half and the second in its
lower one. -/
inductive DigitPair : Char × Char → UInt8 → Prop where
  | mk {first second : Char} {high low : Nat} (hhigh : HexDigit first high)
      (hlow : HexDigit second low) : DigitPair (first, second) (UInt8.ofNat (16 * high + low))

/-- A pair of characters that is read as a byte: two digits, or a plus sign and a digit. -/
inductive SpellsByte : Char × Char → UInt8 → Prop where
  | digits {pair : Char × Char} {byte : UInt8} (hdigits : DigitPair pair byte) :
      SpellsByte pair byte
  | signed {digit : Char} {value : Nat} (hdigit : HexDigit digit value) :
      SpellsByte ('+', digit) (UInt8.ofNat value)

/-- The characters of pairs, in order. -/
def spread (pairs : List (Char × Char)) : List Char := pairs.flatMap fun pair ↦ [pair.1, pair.2]

theorem hexDigitValue?_digitChar : ∀ value < 16,
    hexDigitValue? value.digitChar = some value ∧
      hexDigitValue? value.digitChar.toUpper = some value := by
  decide

theorem toNat_lt_of_hexDigitValue? (hvalue : hexDigitValue? c = some value) : c.toNat < 128 := by
  have hlast {last : Char} (hlast : last.toNat < 128) (hc : c ≤ last) : c.toNat < 128 :=
    Nat.lt_of_le_of_lt hc hlast
  unfold hexDigitValue? at hvalue
  split_ifs at hvalue with hdecimal hlower hupper
  all_goals simp only [Bool.and_eq_true, decide_eq_true_eq] at *
  · exact hlast (by decide) hdecimal.2
  · exact hlast (by decide) hlower.2
  · exact hlast (by decide) hupper.2

theorem digitChar_of_hexDigitValue? : ∀ code < 128,
    ∀ value ∈ hexDigitValue? (Char.ofNat code), value < 16 ∧
      (Char.ofNat code = value.digitChar ∨ Char.ofNat code = value.digitChar.toUpper) := by
  decide

theorem hexDigitValue?_eq_some_iff : hexDigitValue? c = some value ↔ HexDigit c value := by
  constructor
  · intro hvalue
    have hdigit := digitChar_of_hexDigitValue? c.toNat (toNat_lt_of_hexDigitValue? hvalue) value
    rw [Char.ofNat_toNat] at hdigit
    exact hdigit hvalue
  · rintro ⟨hvalue, rfl | rfl⟩
    · exact (hexDigitValue?_digitChar value hvalue).1
    · exact (hexDigitValue?_digitChar value hvalue).2

theorem not_hexDigit_plus : ¬ HexDigit '+' value := by
  rw [← hexDigitValue?_eq_some_iff]
  nofun

/-! ### Pairs -/

theorem spellsByte_iff {byte : UInt8} : SpellsByte (first, second) byte ↔
    ∃ value, hexPairValue? first second = some value ∧ UInt8.ofNat value = byte := by
  have hpair : hexPairValue? first second = (hexDigitValue? second).bind fun low ↦
      if first = '+' then some low
      else (hexDigitValue? first).bind fun high ↦ some (16 * high + low) := rfl
  constructor
  · rintro (⟨hhigh, hlow⟩ | hdigit)
    · have hplus : first ≠ '+' := fun hplus ↦ not_hexDigit_plus (hplus ▸ hhigh)
      rw [hpair, hexDigitValue?_eq_some_iff.mpr hlow, hexDigitValue?_eq_some_iff.mpr hhigh]
      exact ⟨_, if_neg hplus, rfl⟩
    · rw [hpair, hexDigitValue?_eq_some_iff.mpr hdigit]
      exact ⟨_, rfl, rfl⟩
  · rintro ⟨value, hvalue, rfl⟩
    rw [hpair] at hvalue
    obtain ⟨low, hlow, hvalue⟩ := Option.bind_eq_some_iff.mp hvalue
    rw [hexDigitValue?_eq_some_iff] at hlow
    split_ifs at hvalue with hplus
    · cases hvalue
      exact hplus ▸ .signed hlow
    · obtain ⟨high, hhigh, hvalue⟩ := Option.bind_eq_some_iff.mp hvalue
      cases hvalue
      exact .digits (.mk (hexDigitValue?_eq_some_iff.mp hhigh) hlow)

/-- Pairs that do not start with a plus sign are read as they should be. -/
theorem digitPair_of_spellsByte {pair : Char × Char} {byte : UInt8} (hspells : SpellsByte pair byte)
    (hplus : pair.1 ≠ '+') : DigitPair pair byte := by
  cases hspells with
  | digits hdigits => exact hdigits
  | signed => exact absurd rfl hplus

/-! ### Sequences of pairs -/

theorem length_spread (pairs : List (Char × Char)) : (spread pairs).length = 2 * pairs.length := by
  induction pairs with
  | nil => rfl
  | cons pair pairs ih =>
    change (spread pairs).length + 2 = _
    rw [ih, List.length_cons]
    omega

/-- An even number of characters is a sequence of pairs. -/
theorem exists_spread (heven : digits.length % 2 = 0) : ∃ pairs, digits = spread pairs := by
  induction digits using List.twoStepInduction with
  | nil => exact ⟨[], rfl⟩
  | singleton => cases heven
  | cons_cons first second digits ih =>
    have hrest : digits.length % 2 = 0 := by
      rw [List.length_cons, List.length_cons] at heven
      omega
    obtain ⟨pairs, rfl⟩ := ih hrest
    exact ⟨(first, second) :: pairs, rfl⟩

section Reading

variable {pair : Char × Char} {pairs : List (Char × Char)} {byte : UInt8} {bytes : List UInt8}

theorem hexBytes_of_spells (hspells : SpellsByte pair byte) :
    hexBytes (spread (pair :: pairs)) =
      (hexBytes (spread pairs)).map (byte :: ·) := by
  obtain ⟨value, hvalue, rfl⟩ := spellsByte_iff.mp hspells
  change hexBytes (pair.1 :: pair.2 :: spread pairs) = _
  rw [hexBytes, hvalue]
  cases hexBytes (spread pairs) <;> rfl

theorem hexBytes_of_not_spells (hspells : ∀ byte, ¬ SpellsByte pair byte) :
    hexBytes (spread (pair :: pairs)) =
      .error (.notHexadecimal (String.ofList [pair.1, pair.2])) := by
  have hvalue : hexPairValue? pair.1 pair.2 = none :=
    Option.eq_none_iff_forall_ne_some.mpr fun value hvalue ↦
      hspells _ (spellsByte_iff.mpr ⟨value, hvalue, rfl⟩)
  change hexBytes (pair.1 :: pair.2 :: spread pairs) = _
  rw [hexBytes, hvalue]
  rfl

theorem hexBytes_eq_ok (hspells : List.Forall₂ SpellsByte pairs bytes) :
    hexBytes (spread pairs) = .ok bytes := by
  induction hspells with
  | nil => rfl
  | cons hpair _ ih =>
    rw [hexBytes_of_spells hpair, ih]
    rfl

theorem plus_not_mem_spread (hdigits : List.Forall₂ DigitPair pairs bytes) :
    '+' ∉ spread pairs := by
  have hdigit {c : Char} {value : Nat} (hc : HexDigit c value) : '+' ≠ c := fun hplus ↦
    not_hexDigit_plus (hplus ▸ hc)
  induction hdigits with
  | nil => exact List.not_mem_nil
  | cons hpair _ ih =>
    obtain ⟨hhigh, hlow⟩ := hpair
    exact List.not_mem_cons_of_ne_of_not_mem (hdigit hhigh)
      (List.not_mem_cons_of_ne_of_not_mem (hdigit hlow) ih)

/-- Without a plus sign there are only digits to spell bytes. -/
theorem digitPairs_of_spells (hspells : List.Forall₂ SpellsByte pairs bytes)
    (hplus : '+' ∉ spread pairs) : List.Forall₂ DigitPair pairs bytes := by
  induction hspells with
  | nil => exact .nil
  | cons hpair _ ih =>
    obtain ⟨hfirst, hrest⟩ := not_or.mp (mt List.mem_cons.mpr hplus)
    exact .cons (digitPair_of_spellsByte hpair (Ne.symm hfirst))
      (ih fun hmem ↦ hrest (List.mem_cons_of_mem _ hmem))

/-- A sequence of pairs is read up to the first of them that spells nothing. -/
theorem hexBytes_cases (pairs : List (Char × Char)) :
    (∃ bytes, List.Forall₂ SpellsByte pairs bytes) ∨
      ∃ front pair back, pairs = front ++ pair :: back ∧
        (∀ other ∈ front, ∃ byte, SpellsByte other byte) ∧ (∀ byte, ¬ SpellsByte pair byte) ∧
        hexBytes (spread pairs) = .error (.notHexadecimal (String.ofList [pair.1, pair.2])) := by
  induction pairs with
  | nil => exact .inl ⟨[], .nil⟩
  | cons pair pairs ih =>
    by_cases hspells : ∃ byte, SpellsByte pair byte
    · obtain ⟨byte, hbyte⟩ := hspells
      rcases ih with ⟨bytes, hbytes⟩ | ⟨front, bad, back, rfl, hfront, hbad, hstops⟩
      · exact .inl ⟨byte :: bytes, .cons hbyte hbytes⟩
      · refine .inr ⟨pair :: front, bad, back, rfl,
          List.forall_mem_cons.mpr ⟨⟨byte, hbyte⟩, hfront⟩, hbad, ?_⟩
        rw [hexBytes_of_spells hbyte, hstops]
        rfl
    · have hnone := not_exists.mp hspells
      exact .inr ⟨[], pair, pairs, rfl, nofun, hnone, hexBytes_of_not_spells hnone⟩

end Reading

/-! ### Spellings -/

namespace CodeSpelling

variable {text : String}

theorem toCode_of_odd (hodd : (text.toList.filter fun c ↦ !isBlank c).length % 2 = 1) :
    (hexadecimal text).toCode = .error .oddHexadecimal := by
  have hne : (text.toList.filter fun c ↦ !isBlank c).length % 2 ≠ 0 := by omega
  unfold toCode
  dsimp only
  rw [if_pos hne]
  rfl

theorem toCode_of_spread {pairs : List (Char × Char)}
    (hpairs : (text.toList.filter fun c ↦ !isBlank c) = spread pairs) :
    (hexadecimal text).toCode = (hexBytes (spread pairs)).map List.toArray := by
  have heven : ¬ (spread pairs).length % 2 ≠ 0 := by
    rw [length_spread]
    omega
  unfold toCode
  dsimp only
  rw [hpairs, if_neg heven]
  cases hexBytes (spread pairs) <;> rfl

theorem toCode_of_spells {pairs : List (Char × Char)} {code : Array UInt8}
    (hpairs : (text.toList.filter fun c ↦ !isBlank c) = spread pairs)
    (hspells : List.Forall₂ SpellsByte pairs code.toList) :
    (hexadecimal text).toCode = .ok code := by
  rw [toCode_of_spread hpairs, hexBytes_eq_ok hspells]
  rfl

theorem toCode_cases (text : String) :
    let digits := text.toList.filter fun c ↦ !isBlank c
    let result := (hexadecimal text).toCode
    (∃ code pairs, digits = spread pairs ∧ List.Forall₂ SpellsByte pairs code.toList ∧
      result = .ok code) ∨
    (digits.length % 2 = 1 ∧ result = .error .oddHexadecimal) ∨
    ∃ front pair back, digits = spread (front ++ pair :: back) ∧
      (∀ other ∈ front, ∃ byte, SpellsByte other byte) ∧ (∀ byte, ¬ SpellsByte pair byte) ∧
      result = .error (.notHexadecimal (String.ofList [pair.1, pair.2])) := by
  intro digits result
  rcases Nat.mod_two_eq_zero_or_one digits.length with heven | hodd
  · obtain ⟨pairs, hpairs⟩ := exists_spread heven
    rcases hexBytes_cases pairs with
      ⟨bytes, hbytes⟩ | ⟨front, pair, back, rfl, hfront, hbad, hstops⟩
    · exact .inl ⟨bytes.toArray, pairs, hpairs, hbytes, toCode_of_spells hpairs hbytes⟩
    · refine .inr (.inr ⟨front, pair, back, hpairs, hfront, hbad, ?_⟩)
      have hresult : result = _ := toCode_of_spread hpairs
      rw [hresult, hstops]
      rfl
  · exact .inr (.inl ⟨hodd, toCode_of_odd hodd⟩)

theorem toCode_eq_ok_iff {code : Array UInt8} : (hexadecimal text).toCode = .ok code ↔
    ∃ pairs, (text.toList.filter fun c ↦ !isBlank c) = spread pairs ∧
      List.Forall₂ SpellsByte pairs code.toList := by
  constructor
  · intro hread
    rcases toCode_cases text with ⟨other, pairs, hpairs, hspells, hresult⟩ | ⟨-, hresult⟩ |
      ⟨front, pair, back, -, -, -, hresult⟩
    · cases hread.symm.trans hresult
      exact ⟨pairs, hpairs, hspells⟩
    · cases hread.symm.trans hresult
    · cases hread.symm.trans hresult
  · rintro ⟨pairs, hpairs, hspells⟩
    exact toCode_of_spells hpairs hspells

/-- Every text is either read as the bytes that its pairs of characters spell, without the blanks,
or refused: because the number of characters is odd, or because of the first pair that spells
nothing. A text is read without a plus sign in it exactly if it is an even number of hexadecimal
digits; then the bytes are the values of the pairs of digits, in order. -/
theorem toCode_hexadecimal (text : String) :
    let digits := text.toList.filter fun c ↦ !isBlank c
    let result := (hexadecimal text).toCode
    (∀ code, result = .ok code ↔
      ∃ pairs, digits = spread pairs ∧ List.Forall₂ SpellsByte pairs code.toList) ∧
    (∀ code, result = .ok code ∧ '+' ∉ digits ↔
      ∃ pairs, digits = spread pairs ∧ List.Forall₂ DigitPair pairs code.toList) ∧
    ((∃ code, result = .ok code) ∨
      (digits.length % 2 = 1 ∧ result = .error .oddHexadecimal) ∨
      ∃ front pair back, digits = spread (front ++ pair :: back) ∧
        (∀ other ∈ front, ∃ byte, SpellsByte other byte) ∧ (∀ byte, ¬ SpellsByte pair byte) ∧
        result = .error (.notHexadecimal (String.ofList [pair.1, pair.2]))) := by
  intro digits result
  refine ⟨fun code ↦ toCode_eq_ok_iff, fun code ↦ ⟨?_, ?_⟩, ?_⟩
  · rintro ⟨hread, hplus⟩
    obtain ⟨pairs, hpairs, hspells⟩ := toCode_eq_ok_iff.mp hread
    exact ⟨pairs, hpairs, digitPairs_of_spells hspells (hpairs ▸ hplus)⟩
  · rintro ⟨pairs, hpairs, hdigits⟩
    exact ⟨toCode_of_spells hpairs (hdigits.imp fun _ _ ↦ .digits),
      hpairs ▸ plus_not_mem_spread hdigits⟩
  · exact (toCode_cases text).imp_left fun ⟨code, _, _, _, hread⟩ ↦ ⟨code, hread⟩

/-- A pair of a plus sign and a digit is read, though a plus sign is no hexadecimal digit. -/
theorem toCode_signed :
    (hexadecimal "81 +0 00 87").toCode = .ok #[0x81, 0x00, 0x00, 0x87] ∧
      ('+' ∈ "81 +0 00 87".toList.filter fun c ↦ !isBlank c) ∧ ∀ value, ¬ HexDigit '+' value :=
  ⟨rfl, by decide, fun _ ↦ not_hexDigit_plus⟩

end CodeSpelling

end LispMachine
