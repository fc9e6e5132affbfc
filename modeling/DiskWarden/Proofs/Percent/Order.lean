import DiskWarden.Percent
import Mathlib

/-!
# Progress values as numbers

A progress value is kept and compared by its bits.  As a number it is no less than 0 and no more
than 100, and the order of numbers is the order of the ranks.  The way there is through the
parts of a double: packing them gives back the bits that they were taken from.
-/

namespace DiskWarden.Percent

open Float.Model Float.Model.UnpackedFloat

/-! ## The parts of a double -/

/-- The least pattern of bits, taken as a number, that stands for no finite double from 0 on. -/
def infiniteBits : Nat := 0x7FF0000000000000

/-- The significand of a positive double, from its bits taken as a number. -/
def significand (bits : Nat) : Nat :=
  if bits < 2 ^ 52 then bits else 2 ^ 52 + bits % 2 ^ 52

/-- The exponent of a positive double, from its bits taken as a number. -/
def exponent (bits : Nat) : Int :=
  if bits < 2 ^ 52 then -1074 else bits / 2 ^ 52 - 1075

theorem significand_pos {bits : Nat} (positive : bits ≠ 0) : 0 < significand bits := by
  unfold significand
  split <;> omega

theorem toNat_unpackExponent (bits : BitVec 64) :
    (@unpackExponent .binary64 bits).toNat =
      bits.toNat / 2 ^ 52 % 2 ^ 11 := by
  unfold unpackExponent
  rw [BitVec.toNat_cast, BitVec.extractLsb_toNat, Nat.shiftRight_eq_div_pow]
  rfl

theorem toNat_unpackMantissa (bits : BitVec 64) :
    (@unpackMantissa .binary64 bits).toNat = bits.toNat % 2 ^ 52 := by
  unfold unpackMantissa
  rw [BitVec.toNat_cast, BitVec.extractLsb_toNat, Nat.shiftRight_eq_div_pow, pow_zero,
    Nat.div_one]
  rfl

theorem toNat_unpackSign (bits : BitVec 64) :
    (@unpackSign .binary64 bits).toNat = bits.toNat / 2 ^ 63 % 2 := by
  unfold unpackSign
  rw [BitVec.toNat_cast, BitVec.extractLsb_toNat, Nat.shiftRight_eq_div_pow]
  rfl

/-- The exponent field of a finite double is not filled with ones. -/
theorem unpackExponent_ne_of_finite (bits : BitVec 64) (finite : bits.toNat < infiniteBits) :
    @unpackExponent .binary64 bits ≠ -1#11 := by
  intro filled
  have exponentValue := toNat_unpackExponent bits
  unfold infiniteBits at finite
  rw [filled] at exponentValue
  simp at exponentValue
  omega

theorem valid_of_finite (bits : BitVec 64) (finite : bits.toNat < infiniteBits) :
    Format.binary64.Valid bits where
  eq_packedNaN filled _ := absurd filled (unpackExponent_ne_of_finite bits finite)

theorem unpack_zero : UnpackedFloat.unpack Format.binary64 0#64 = .zero .positive := rfl

theorem unpack_of_finite (bits : BitVec 64) (positive : bits.toNat ≠ 0)
    (finite : bits.toNat < infiniteBits) :
    UnpackedFloat.unpack Format.binary64 bits =
      .finite .positive (significand bits.toNat) (exponent bits.toNat)
        (significand_pos positive) := by
  have exponentValue := toNat_unpackExponent bits
  have mantissaValue := toNat_unpackMantissa bits
  have exponentFinite := unpackExponent_ne_of_finite bits finite
  unfold infiniteBits at finite
  have signPositive : @unpackSign .binary64 bits = 0#1 := by
    apply BitVec.eq_of_toNat_eq
    rw [toNat_unpackSign, BitVec.toNat_ofNat]
    omega
  have exponentZero :
      @unpackExponent .binary64 bits = 0#11 ↔ bits.toNat < 2 ^ 52 := by
    rw [← BitVec.toNat_inj, exponentValue]
    simp
    omega
  have mantissaZero :
      @unpackMantissa .binary64 bits = 0#52 ↔
        bits.toNat % 2 ^ 52 = 0 := by
    rw [← BitVec.toNat_inj, mantissaValue]
    simp
  have bias : Format.binary64.exponentBias = 1023 := rfl
  unfold UnpackedFloat.unpack significand exponent
  simp only [signPositive, exponentFinite, if_false, exponentZero, mantissaZero, exponentValue,
    mantissaValue, bias, Sign.ofBitVec, if_true]
  by_cases subnormal : bits.toNat < 2 ^ 52
  · have noExponent : bits.toNat / 2 ^ 52 % 2 ^ 11 = 0 := by omega
    have allMantissa : bits.toNat % 2 ^ 52 = bits.toNat := by omega
    simp only [subnormal, if_true, noExponent, allMantissa, positive, dif_neg,
      not_false_eq_true]
    rfl
  · have allExponent : bits.toNat / 2 ^ 52 % 2 ^ 11 = bits.toNat / 2 ^ 52 := by omega
    have implicitBit :
        (1#1 ++ @unpackMantissa .binary64 bits).toNat =
          2 ^ 52 + bits.toNat % 2 ^ 52 := by
      rw [BitVec.toNat_append, ← Nat.shiftLeft_add_eq_or_of_lt (BitVec.isLt _), mantissaValue]
      rfl
    simp only [subnormal, if_false, implicitBit, allExponent]
    congr 1

/-! ## The order of numbers -/

/-- Among positive doubles the exponent decides, and the significand where it is the same. -/
theorem isLE_compare_iff {first second : Nat} :
    ((compare (exponent first) (exponent second)).then
      (compare (significand first) (significand second))).isLE = true ↔ first ≤ second := by
  have decided :
      (exponent first < exponent second ∨ exponent first = exponent second ∧
        significand first ≤ significand second) ↔ first ≤ second := by
    unfold exponent significand
    split <;> split <;> omega
  rw [Ordering.isLE_then_iff_or, compare_lt_iff_lt, compare_eq_iff_eq, Nat.isLE_compare]
  exact decided

theorem rank_lt_infiniteBits (percent : Percent) : percent.rank < infiniteBits :=
  Nat.lt_of_le_of_lt percent.rank_le_hundred (by decide)

theorem unpack_toFloat (percent : Percent) :
    percent.toFloat.toModel.unpack =
      UnpackedFloat.unpack .binary64 (UnpackedFloat.pack .binary64
        (UnpackedFloat.unpack .binary64 percent.bits.toBitVec)) := rfl

theorem unpack_toFloat_of_rank_eq_zero {percent : Percent} (zero : percent.rank = 0) :
    ∃ sign, percent.toFloat.toModel.unpack = .zero sign := by
  rw [unpack_toFloat]
  by_cases negative : percent.bits = 0x8000000000000000
  · rw [negative]
    exact ⟨.negative, rfl⟩
  · have same : percent.bits = 0 := UInt64.toNat.inj ((if_neg negative).symm.trans zero)
    rw [same]
    exact ⟨.positive, unpack_zero⟩

theorem unpack_toFloat_of_rank_ne_zero {percent : Percent} (positive : percent.rank ≠ 0) :
    percent.toFloat.toModel.unpack =
      .finite .positive (significand percent.rank) (exponent percent.rank)
        (significand_pos positive) := by
  have finite := percent.rank_lt_infiniteBits
  by_cases negative : percent.bits = 0x8000000000000000
  · exact absurd (if_pos negative) positive
  · have same : percent.rank = percent.bits.toBitVec.toNat := if_neg negative
    simp only [same] at finite positive ⊢
    rw [← unpack_of_finite percent.bits.toBitVec positive finite, unpack_toFloat,
      pack_unpack_of_valid (valid_of_finite percent.bits.toBitVec finite)]

theorem toFloat_le_iff_unpack {first second : Percent} :
    first.toFloat ≤ second.toFloat ↔
      first.toFloat.toModel.unpack.le second.toFloat.toModel.unpack = true := by
  change decide (first.toFloat.toModel ≤ second.toFloat.toModel) = true ↔ _
  rw [decide_eq_true_iff]
  rfl

/-- As numbers, values are ordered by their ranks. -/
theorem toFloat_le_toFloat_iff {first second : Percent} :
    first.toFloat ≤ second.toFloat ↔ first.rank ≤ second.rank := by
  rw [toFloat_le_iff_unpack]
  unfold UnpackedFloat.le
  by_cases firstZero : first.rank = 0
  · obtain ⟨firstSign, firstParts⟩ := unpack_toFloat_of_rank_eq_zero firstZero
    rw [firstParts, firstZero]
    by_cases secondZero : second.rank = 0
    · obtain ⟨secondSign, secondParts⟩ := unpack_toFloat_of_rank_eq_zero secondZero
      rw [secondParts]
      simp [UnpackedFloat.compare]
    · rw [unpack_toFloat_of_rank_ne_zero secondZero]
      simp [UnpackedFloat.compare]
  · rw [unpack_toFloat_of_rank_ne_zero firstZero]
    by_cases secondZero : second.rank = 0
    · obtain ⟨secondSign, secondParts⟩ := unpack_toFloat_of_rank_eq_zero secondZero
      rw [secondParts, secondZero]
      simp [UnpackedFloat.compare, firstZero]
    · rw [unpack_toFloat_of_rank_ne_zero secondZero]
      simp only [UnpackedFloat.compare, Option.any_some]
      exact isLE_compare_iff

theorem isNaN_toFloat (percent : Percent) : percent.toFloat.isNaN = false := by
  change percent.toFloat.toModel.unpack.isNaN = false
  by_cases zero : percent.rank = 0
  · obtain ⟨sign, parts⟩ := unpack_toFloat_of_rank_eq_zero zero
    rw [parts]
    rfl
  · rw [unpack_toFloat_of_rank_ne_zero zero]
    rfl

theorem zero_le_toFloat (percent : Percent) : (0 : Float) ≤ percent.toFloat := by
  have numeral : zero.toFloat = (0 : Float) := by decide
  rw [← numeral, toFloat_le_toFloat_iff]
  exact Nat.zero_le percent.rank

theorem toFloat_le_hundred (percent : Percent) : percent.toFloat ≤ (100 : Float) := by
  have numeral : hundred.toFloat = (100 : Float) := by decide
  rw [← numeral, toFloat_le_toFloat_iff]
  exact percent.rank_le_hundred

end DiskWarden.Percent
