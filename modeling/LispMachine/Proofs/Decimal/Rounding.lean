import LispMachine.Decimal.Binary
import Mathlib

/-!
The double nearest to an integer is a number. Rounding a fraction gives a mantissa of at most 53 bits
(`BinaryFloat.mantissa_nearest_lt`), and the bits of a double with such a mantissa are those of a
finite one or of an infinity (`BinaryFloat.isNaN_toFloat`). So `floatOfInt` never gives what is not
a number (`isNaN_floatOfInt`), however large the integer is.
-/

set_option autoImplicit false

namespace LispMachine

open Float.Model Float.Model.UnpackedFloat

/-! ### Bits that are no number -/

/-- What is not a number has all bits of its exponent set, and some bit of its fraction. -/
theorem isNaN_unpack_iff (bits : BitVec Format.binary64.numBits) :
    (unpack .binary64 bits).isNaN = true ↔
      unpackExponent bits = -1#_ ∧ unpackMantissa bits ≠ 0#_ := by
  unfold UnpackedFloat.unpack
  simp only
  split_ifs <;> simp_all [UnpackedFloat.isNaN]

/-- A number that is packed is a number still. -/
theorem isNaN_unpack_pack {x : UnpackedFloat} (hx : x.isNaN = false) :
    (unpack .binary64 (UnpackedFloat.pack .binary64 x)).isNaN = false := by
  rw [← Bool.not_eq_true, isNaN_unpack_iff]
  cases x with
  | notANumber => cases hx
  | infinity sign | zero sign => cases sign <;> decide
  | finite sign mantissa exponent hpositive =>
    simp only [UnpackedFloat.pack]
    split_ifs with hlarge hnormal
    · cases sign <;> decide
    · rw [unpackExponent_packComponents]
      rintro ⟨hexponent, -⟩
      have hbiased := congrArg BitVec.toNat hexponent
      simp only [BitVec.toNat_ofNat] at hbiased
      rw [Nat.mod_eq_of_lt (by omega)] at hbiased
      exact hlarge (by rw [hbiased]; decide)
    · rw [unpackExponent_packComponents]
      rintro ⟨hexponent, -⟩
      exact absurd hexponent (by decide)

theorem isNaN_neg {x : Float} (hx : x.isNaN = false) : (-x).isNaN = false := by
  refine isNaN_unpack_pack ?_
  change x.toModel.unpack.isNaN = false at hx
  cases hunpacked : x.toModel.unpack with
  | notANumber =>
    rw [hunpacked] at hx
    cases hx
  | infinity | zero | finite => rfl

/-- The bits of a double whose exponent is not the largest, or whose fraction is zero, are those of a
number. -/
theorem isNaN_ofBits {bits : Nat}
    (hbits : bits / BinaryFloat.leadingBit % 2048 ≠ 2047 ∨ bits % BinaryFloat.leadingBit = 0) :
    (Float.ofBits (UInt64.ofNat bits)).isNaN = false := by
  refine isNaN_unpack_pack ?_
  rw [← Bool.not_eq_true, isNaN_unpack_iff]
  rintro ⟨hexponent, hmantissa⟩
  have hexponent := congrArg BitVec.toNat hexponent
  have hmantissa := fun hzero ↦ hmantissa (BitVec.eq_of_toNat_eq hzero)
  simp [unpackExponent, unpackMantissa, Nat.shiftRight_eq_div_pow] at hexponent hmantissa
  unfold BinaryFloat.leadingBit at hbits
  omega

namespace BinaryFloat

/-! ### Mantissas of 53 bits -/

theorem shifted_eq (numerator denominator : Nat) (exponent : Int) :
    shifted numerator denominator exponent =
      (numerator * 2 ^ (-exponent).toNat, denominator * 2 ^ exponent.toNat) := by
  unfold shifted
  split_ifs with hnegative
  · simp [Int.toNat_of_nonpos (Int.le_of_lt hnegative)]
  · have hnone : (-exponent).toNat = 0 := by omega
    simp [hnone]

/-- A fraction divided by a power of two is below a bound if it is for a smaller power. -/
theorem shifted_lt_of_le {numerator denominator bound : Nat} {exponent larger : Int}
    (hlt : (shifted numerator denominator exponent).1 <
      bound * (shifted numerator denominator exponent).2) (hle : exponent ≤ larger) :
    (shifted numerator denominator larger).1 <
      bound * (shifted numerator denominator larger).2 := by
  simp only [shifted_eq] at hlt ⊢
  calc numerator * 2 ^ (-larger).toNat
      ≤ numerator * 2 ^ (-exponent).toNat :=
        Nat.mul_le_mul_left _ (Nat.pow_le_pow_right (by decide) (by omega))
    _ < bound * (denominator * 2 ^ exponent.toNat) := hlt
    _ ≤ bound * (denominator * 2 ^ larger.toNat) :=
        Nat.mul_le_mul_left _ (Nat.mul_le_mul_left _
          (Nat.pow_le_pow_right (by decide) (by omega)))

theorem divideToEven_le {numerator denominator bound : Nat}
    (hlt : numerator < bound * denominator) : divideToEven numerator denominator ≤ bound := by
  have hquotient : numerator / denominator < bound :=
    (Nat.div_lt_iff_lt_mul (Nat.pos_of_lt_mul_left hlt)).mpr hlt
  unfold divideToEven
  simp only
  split_ifs <;> omega

/-- The exponent that the lengths of a fraction suggest is at most one too small. -/
theorem shifted_guess_lt {numerator denominator : Nat} (hdenominator : 0 < denominator) :
    let exponent : Int := (Nat.log2 numerator : Int) - Nat.log2 denominator - 53 + 1
    (shifted numerator denominator exponent).1 <
      2 * leadingBit * (shifted numerator denominator exponent).2 := by
  intro exponent
  simp only [shifted_eq]
  have hpowers : Nat.log2 numerator + 1 + (-exponent).toNat =
      53 + (Nat.log2 denominator + exponent.toNat) := by
    omega
  calc numerator * 2 ^ (-exponent).toNat
      < 2 ^ (Nat.log2 numerator + 1) * 2 ^ (-exponent).toNat :=
        Nat.mul_lt_mul_of_pos_right Nat.lt_log2_self (Nat.two_pow_pos _)
    _ = 2 * leadingBit * (2 ^ Nat.log2 denominator * 2 ^ exponent.toNat) := by
        rw [← Nat.pow_add, hpowers, Nat.pow_add, Nat.pow_add]
        rfl
    _ ≤ 2 * leadingBit * (denominator * 2 ^ exponent.toNat) :=
        Nat.mul_le_mul_left _ (Nat.mul_le_mul_right _ (Nat.log2_self_le (Nat.ne_of_gt hdenominator)))

/-- A rounded fraction has a mantissa of at most 53 bits. -/
theorem mantissa_nearest_lt (numerator : Nat) {denominator : Nat} (hdenominator : 0 < denominator) :
    (nearest numerator denominator).mantissa < 2 * leadingBit := by
  unfold nearest
  simp only
  generalize hguess : (Nat.log2 numerator : Int) - Nat.log2 denominator - 53 = guess
  have hnext : (shifted numerator denominator (guess + 1)).1 <
      2 * leadingBit * (shifted numerator denominator (guess + 1)).2 :=
    hguess ▸ shifted_guess_lt hdenominator
  generalize hchosen : (if (shifted numerator denominator guess).1 /
    (shifted numerator denominator guess).2 < 2 * leadingBit then guess else guess + 1) = chosen
  have hsmall : (shifted numerator denominator chosen).1 <
      2 * leadingBit * (shifted numerator denominator chosen).2 := by
    subst hchosen
    split_ifs with hlt
    · refine (Nat.div_lt_iff_lt_mul ?_).mp hlt
      rw [shifted_eq]
      exact Nat.mul_pos hdenominator (Nat.two_pow_pos _)
    · exact hnext
  have hmantissa : ∀ exponent, chosen ≤ exponent →
      divideToEven (shifted numerator denominator exponent).1
        (shifted numerator denominator exponent).2 ≤ 2 * leadingBit :=
    fun exponent hle ↦ divideToEven_le (shifted_lt_of_le hsmall hle)
  have hleading : leadingBit < 2 * leadingBit := by decide
  split_ifs with hleast hfull hfull
  · exact hleading
  · exact Nat.lt_of_le_of_ne (hmantissa _ (Int.le_of_lt hleast)) hfull
  · exact hleading
  · exact Nat.lt_of_le_of_ne (hmantissa _ (Int.le_refl _)) hfull

/-- A magnitude with a mantissa of at most 53 bits is that of a number. -/
theorem isNaN_toFloat {x : BinaryFloat} (hmantissa : x.mantissa < 2 * leadingBit) :
    x.toFloat.isNaN = false := by
  unfold toFloat
  unfold leadingBit greatestExponent leastExponent at *
  split_ifs with hlarge hsmall
  · decide
  · exact isNaN_ofBits (by unfold leadingBit; omega)
  · exact isNaN_ofBits (by unfold leadingBit; omega)

end BinaryFloat

/-! ### The nearest double -/

theorem isNaN_nearestFloat (digits : Nat) (exponent : Int) :
    (nearestFloat digits exponent).isNaN = false := by
  unfold nearestFloat
  split_ifs
  · decide
  · exact BinaryFloat.isNaN_toFloat
      (BinaryFloat.mantissa_nearest_lt _ (Nat.pow_pos (by decide)))
  · exact BinaryFloat.isNaN_toFloat (BinaryFloat.mantissa_nearest_lt _ Nat.one_pos)

/-- The double nearest to an integer is a number. -/
theorem isNaN_floatOfInt (n : Int) : (floatOfInt n).isNaN = false := by
  unfold floatOfInt
  split_ifs
  · exact isNaN_neg (isNaN_nearestFloat _ _)
  · exact isNaN_nearestFloat _ _

end LispMachine
