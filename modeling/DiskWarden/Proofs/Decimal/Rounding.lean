import DiskWarden.Decimal.Scaled
import Mathlib

/-!
# How far rounding goes up

A significand that is rounded to fifty-three bits gains at most one unit in its last place.  What
is rounded to a double stays finite if it is that much below the least power of two that is too
large.
-/

namespace DiskWarden.Decimal

open Float.Model Float.Model.UnpackedFloat

/-! ## Significands -/

theorem mantissa_shiftRight (extended : ExtendedMantissa) (count : Nat) :
    (extended >>> count).mantissa = extended.mantissa / 2 ^ count := by
  induction count with
  | zero => exact (Nat.div_one _).symm
  | succ count inductionHypothesis =>
      change (extended >>> count).mantissa / 2 = _
      rw [inductionHypothesis, Nat.div_div_eq_div_mul, Nat.pow_succ]

theorem roundedMantissa_bounds (extended : ExtendedMantissa) :
    extended.mantissa ≤ extended.roundedMantissa ∧
      extended.roundedMantissa ≤ extended.mantissa + 1 := by
  obtain ⟨mantissa, roundBit, stickyBit⟩ := extended
  cases roundBit <;> cases stickyBit <;>
    simp only [ExtendedMantissa.roundedMantissa, ExtendedMantissa.accuracy,
      Accuracy.roundToNearestEven] <;> omega

/-- Nothing is shifted out of a significand of fifty-three bits. -/
theorem shiftToTargetExponent_of_lt {mantissa : Nat} {exponent : Int} (bits : mantissa < 2 ^ 53)
    (least : -1074 ≤ exponent) :
    shiftToTargetExponent .binary64 mantissa exponent .exact =
      (⟨mantissa, false, false⟩, exponent) := by
  have log : mantissa.log2 ≤ 52 := by
    by_cases zero : mantissa = 0
    · rw [zero]
      decide
    · exact Nat.le_of_lt_succ ((Nat.log2_lt zero).mpr bits)
  have stays : (Format.binary64.targetExponent (totalExponent mantissa exponent) -
      exponent).toNat = 0 := by
    simp only [Format.targetExponent, totalExponent, Format.mantissaBits, Format.minExponent]
    omega
  simp only [shiftToTargetExponent, shiftToExponent, stays]
  rw [Int.natCast_zero, Int.add_zero]
  rfl

theorem shiftToTargetExponent_pow {exponent : Int} (least : -1074 ≤ exponent) :
    shiftToTargetExponent .binary64 (2 ^ 53) exponent .exact =
      (⟨2 ^ 52, false, false⟩, exponent + 1) := by
  have moves : (Format.binary64.targetExponent (totalExponent (2 ^ 53) exponent) -
      exponent).toNat = 1 := by
    simp only [Format.targetExponent, totalExponent, Format.mantissaBits, Format.minExponent,
      Nat.log2_two_pow]
    omega
  simp only [shiftToTargetExponent, shiftToExponent, moves]
  rfl

theorem shiftToTargetExponent_of_le {mantissa : Nat} {exponent : Int} (bits : 2 ^ 52 ≤ mantissa)
    (least : -1000 ≤ exponent) :
    shiftToTargetExponent .binary64 mantissa exponent .exact =
      (ExtendedMantissa.mk mantissa false false >>> (mantissa.log2 - 52),
        exponent + (mantissa.log2 - 52 : Nat)) := by
  have positive : mantissa ≠ 0 := by
    rintro rfl
    exact absurd bits (by decide)
  have log : 52 ≤ mantissa.log2 := (Nat.le_log2 positive).mpr bits
  have moves : (Format.binary64.targetExponent (totalExponent mantissa exponent) -
      exponent).toNat = mantissa.log2 - 52 := by
    simp only [Format.targetExponent, totalExponent, Format.mantissaBits, Format.minExponent]
    omega
  simp only [shiftToTargetExponent, shiftToExponent, moves]
  rfl

/-- The leading bits of a number, as many as a double has room for. -/
theorem leadingBits_bounds {mantissa : Nat} (bits : 2 ^ 52 ≤ mantissa) :
    2 ^ 52 ≤ mantissa / 2 ^ (mantissa.log2 - 52) ∧
      mantissa / 2 ^ (mantissa.log2 - 52) < 2 ^ 53 := by
  have positive : mantissa ≠ 0 := by
    rintro rfl
    exact absurd bits (by decide)
  have log : 52 ≤ mantissa.log2 := (Nat.le_log2 positive).mpr bits
  constructor
  · rw [Nat.le_div_iff_mul_le (Nat.two_pow_pos _), ← Nat.pow_add, Nat.add_sub_cancel' log]
    exact Nat.log2_self_le positive
  · rw [Nat.div_lt_iff_lt_mul (Nat.two_pow_pos _), ← Nat.pow_add]
    have next : 53 + (mantissa.log2 - 52) = mantissa.log2 + 1 := by omega
    rw [next]
    exact Nat.lt_log2_self

/-- One unit more in the last of fifty-three bits is a small part of the whole. -/
theorem mul_zpow_le_of_le_succ {mantissa count rounded : Nat} (exponent : Int)
    (bits : 2 ^ 52 ≤ mantissa / 2 ^ count) (most : rounded ≤ mantissa / 2 ^ count + 1) :
    (rounded : ℚ) * 2 ^ (exponent + count) ≤ mantissa * 2 ^ exponent * (1 + 1 / 2 ^ 52) := by
  have whole : (mantissa / 2 ^ count : Nat) * (2 : ℚ) ^ count ≤ mantissa := by
    exact_mod_cast Nat.div_mul_le_self mantissa (2 ^ count)
  have up : (rounded : ℚ) ≤ (mantissa / 2 ^ count : Nat) * (1 + 1 / 2 ^ 52) := by
    have atMost : (rounded : ℚ) ≤ (mantissa / 2 ^ count : Nat) + 1 := by
      exact_mod_cast most
    have unit : (2 : ℚ) ^ 52 ≤ (mantissa / 2 ^ count : Nat) := by
      exact_mod_cast bits
    linarith
  rw [zpow_add₀ two_ne_zero, zpow_natCast]
  calc (rounded : ℚ) * (2 ^ exponent * 2 ^ count)
      ≤ ((mantissa / 2 ^ count : Nat) * (1 + 1 / 2 ^ 52)) * (2 ^ exponent * 2 ^ count) := by
        gcongr
    _ = ((mantissa / 2 ^ count : Nat) * 2 ^ count) * 2 ^ exponent * (1 + 1 / 2 ^ 52) := by
        ring
    _ ≤ mantissa * 2 ^ exponent * (1 + 1 / 2 ^ 52) := by
        gcongr

/-- What fills the significand is rounded up by one unit in the last place at most. -/
theorem roundWithAccuracy_bound (sign : Sign) {mantissa : Nat} {exponent : Int}
    (bits : 2 ^ 52 ≤ mantissa) (least : -1000 ≤ exponent) :
    ∃ rounded raised positive,
      roundWithAccuracy .binary64 sign mantissa exponent .exact =
        .finite sign rounded raised positive ∧
      2 ^ 52 ≤ rounded ∧ rounded < 2 ^ 53 ∧ exponent ≤ raised ∧
      (rounded : ℚ) * 2 ^ raised ≤ mantissa * 2 ^ exponent * (1 + 1 / 2 ^ 52) := by
  have first := shiftToTargetExponent_of_le bits least
  obtain ⟨enough, room⟩ := leadingBits_bounds bits
  generalize mantissa.log2 - 52 = count at *
  obtain ⟨rounded, rounded_eq⟩ : ∃ rounded,
      (ExtendedMantissa.mk mantissa false false >>> count).roundedMantissa = rounded := ⟨_, rfl⟩
  have bounds : mantissa / 2 ^ count ≤ rounded ∧ rounded ≤ mantissa / 2 ^ count + 1 := by
    have shifted := roundedMantissa_bounds (ExtendedMantissa.mk mantissa false false >>> count)
    rw [mantissa_shiftRight, rounded_eq] at shifted
    exact shifted
  have value := mul_zpow_le_of_le_succ exponent enough bounds.2
  have atLeast : -1074 ≤ exponent + count := by omega
  by_cases fits : rounded < 2 ^ 53
  · have positive : 0 < rounded := by omega
    have second := shiftToTargetExponent_of_lt fits atLeast
    refine ⟨rounded, exponent + count, positive, ?_, by omega, fits, by omega, value⟩
    simp only [roundWithAccuracy, first, rounded_eq, second, Nat.ne_of_gt positive, dite_false]
  · -- the unit has carried through all bits, which leaves the next power of two
    have full : rounded = 2 ^ 53 := by omega
    have second := shiftToTargetExponent_pow atLeast
    refine ⟨2 ^ 52, exponent + count + 1, by decide, ?_, Nat.le_refl _, by decide, by omega, ?_⟩
    · simp only [roundWithAccuracy, first, rounded_eq, full, second]
      rfl
    · rw [full] at value
      refine le_trans (le_of_eq ?_) value
      rw [zpow_add_one₀ two_ne_zero]
      push_cast
      ring

/-! ## Doubles -/

theorem unpackSign_packComponents {spec : Format} (sign : Sign)
    (exponent : BitVec spec.exponentBits) (mantissa : BitVec spec.mantissaBitsWithoutImplicit) :
    unpackSign (packComponents spec sign exponent mantissa) = sign.toBitVec := by
  ext place bound
  have behind : spec.mantissaBitsWithoutImplicit + spec.exponentBits + place -
      spec.mantissaBitsWithoutImplicit - spec.exponentBits = place := by
    omega
  simp only [unpackSign, packComponents, BitVec.getElem_cast, BitVec.getElem_extract,
    BitVec.getLsbD_append]
  rw [if_neg (by omega), if_neg (by omega), behind]
  exact BitVec.getLsbD_eq_getElem bound

/-- A significand of fifty-three bits is kept by a double, if the exponent is in range. -/
theorem unpack_pack_of_bits (sign : Sign) {mantissa : Nat} {exponent : Int}
    (positive : 0 < mantissa) (bits : 2 ^ 52 ≤ mantissa) (room : mantissa < 2 ^ 53)
    (least : -1074 ≤ exponent) (most : exponent ≤ 971) :
    (Float.Model.pack (.finite sign mantissa exponent positive)).unpack =
      .finite sign mantissa exponent positive := by
  have log : mantissa.log2 = 52 := (Nat.log2_eq_iff (Nat.ne_of_gt positive)).mpr ⟨bits, room⟩
  have bias : Format.binary64.exponentBias = 1023 := rfl
  have width : Format.binary64.mantissaBits = 53 := rfl
  have inRange : ¬ 2 ^ 11 ≤ (exponent + 1023 + 52).toNat + 1 := by omega
  have packed : UnpackedFloat.pack .binary64 (.finite sign mantissa exponent positive) =
      packComponents .binary64 sign (BitVec.ofNat 11 (exponent + 1023 + 52).toNat)
        (BitVec.ofNat 52 mantissa) := by
    unfold UnpackedFloat.pack
    simp only [log, bias, width, Nat.cast_ofNat, inRange, if_false, if_true]
  have field : (BitVec.ofNat 11 (exponent + 1023 + 52).toNat).toNat =
      (exponent + 1023 + 52).toNat := by
    rw [BitVec.toNat_ofNat]
    omega
  have notOnes : BitVec.ofNat 11 (exponent + 1023 + 52).toNat ≠ -1#11 := by
    intro filled
    rw [filled] at field
    simp at field
    omega
  have notZero : BitVec.ofNat 11 (exponent + 1023 + 52).toNat ≠ 0#11 := by
    intro cleared
    rw [cleared] at field
    simp at field
    omega
  have implicitBit : (1#1 ++ BitVec.ofNat 52 mantissa).toNat = mantissa := by
    rw [BitVec.toNat_append, ← Nat.shiftLeft_add_eq_or_of_lt (BitVec.isLt _), BitVec.toNat_ofNat]
    simp
    omega
  have signKept : Sign.ofBitVec sign.toBitVec = sign := by cases sign <;> rfl
  change UnpackedFloat.unpack .binary64
    (UnpackedFloat.pack .binary64 (.finite sign mantissa exponent positive)) = _
  rw [packed]
  unfold UnpackedFloat.unpack
  simp only [unpackExponent_packComponents, unpackMantissa_packComponents,
    unpackSign_packComponents, notOnes, notZero, if_false, implicitBit, field, signKept, bias]
  congr 1
  omega

/-- What fills the significand and is clearly below the limit is rounded to a finite double. -/
theorem unpack_pack_roundWithAccuracy (sign : Sign) {mantissa : Nat} {exponent : Int}
    (bits : 2 ^ 52 ≤ mantissa) (least : -1000 ≤ exponent)
    (inRange : (mantissa : ℚ) * 2 ^ exponent * (1 + 1 / 2 ^ 52) < 2 ^ 1024) :
    ∃ rounded raised positive,
      (Float.Model.pack (roundWithAccuracy .binary64 sign mantissa exponent .exact)).unpack =
        .finite sign rounded raised positive ∧
      2 ^ 52 ≤ rounded ∧ exponent ≤ raised ∧
      (rounded : ℚ) * 2 ^ raised ≤ mantissa * 2 ^ exponent * (1 + 1 / 2 ^ 52) := by
  obtain ⟨rounded, raised, positive, same, atLeast, room, rises, value⟩ :=
    roundWithAccuracy_bound sign bits least
  have most : raised ≤ 971 := by
    have unit : (2 : ℚ) ^ 52 ≤ rounded := by exact_mod_cast atLeast
    have below : (2 : ℚ) ^ ((52 : Int) + raised) < 2 ^ (1024 : Int) := by
      calc (2 : ℚ) ^ ((52 : Int) + raised) = 2 ^ 52 * 2 ^ raised := by
            rw [zpow_add₀ two_ne_zero]
            norm_num
        _ ≤ rounded * 2 ^ raised := by gcongr
        _ ≤ mantissa * 2 ^ exponent * (1 + 1 / 2 ^ 52) := value
        _ < 2 ^ (1024 : Int) := by exact_mod_cast inRange
    have order := (zpow_lt_zpow_iff_right₀ one_lt_two).mp below
    omega
  refine ⟨rounded, raised, positive, ?_, atLeast, rises, value⟩
  rw [same]
  exact unpack_pack_of_bits sign positive atLeast room (by omega) most

/-- A finite double that is at most one unit in its last place above a number. -/
def IsNear (number : ℚ) (value : Float) : Prop :=
  ∃ mantissa exponent positive,
    value.toModel.unpack = .finite .positive mantissa exponent positive ∧
    2 ^ 52 ≤ mantissa ∧ -500 ≤ exponent ∧
    (mantissa : ℚ) * 2 ^ exponent ≤ number * (1 + 1 / 2 ^ 52)

/-- A number that does not fill the significand is moved up until it does. -/
theorem ofUInt64_eq {number : UInt64} (positive : 0 < number.toNat) :
    UnpackedFloat.ofUInt64 .binary64 number =
      roundWithAccuracy .binary64 .positive (number.toNat * 2 ^ (52 - number.toNat.log2))
        (-(52 - number.toNat.log2 : Nat)) .exact := by
  have sign : compare (number.toNat : Int) 0 = .gt :=
    compare_gt_iff_gt.mpr (Int.natCast_pos.mpr positive)
  have moves : (0 - Format.binary64.targetExponent (totalExponent number.toNat 0)).toNat =
      52 - number.toNat.log2 := by
    simp only [Format.targetExponent, totalExponent, Format.mantissaBits, Format.minExponent]
    omega
  rw [UnpackedFloat.ofUInt64, UnpackedFloat.ofNat, UnpackedFloat.ofInt, UnpackedFloat.normalize,
    sign]
  simp only [UnpackedFloat.round, UnpackedFloat.decreaseExponent, Int.toNat_natCast, moves]
  rw [Nat.shiftLeft_eq, Int.zero_sub]

theorem isNear_toFloat {number : UInt64} (positive : 0 < number.toNat) :
    IsNear number.toNat number.toFloat := by
  have below : (number.toNat : ℚ) < 2 ^ 64 := by exact_mod_cast number.toNat_lt
  have bits : 2 ^ 52 ≤ number.toNat * 2 ^ (52 - number.toNat.log2) := by
    calc 2 ^ 52 ≤ 2 ^ (number.toNat.log2 + (52 - number.toNat.log2)) :=
          Nat.pow_le_pow_right (by decide) (by omega)
      _ = 2 ^ number.toNat.log2 * 2 ^ (52 - number.toNat.log2) := Nat.pow_add _ _ _
      _ ≤ number.toNat * 2 ^ (52 - number.toNat.log2) :=
          Nat.mul_le_mul_right _ (Nat.log2_self_le (Nat.ne_of_gt positive))
  have value : ((number.toNat * 2 ^ (52 - number.toNat.log2) : Nat) : ℚ) *
      2 ^ (-(52 - number.toNat.log2 : Nat) : Int) = number.toNat := by
    rw [zpow_neg, zpow_natCast, Nat.cast_mul, Nat.cast_pow, Nat.cast_ofNat]
    exact mul_inv_cancel_right₀ (by positivity) _
  have least : (-1000 : Int) ≤ -(52 - number.toNat.log2 : Nat) := by omega
  have inRange : ((number.toNat * 2 ^ (52 - number.toNat.log2) : Nat) : ℚ) *
      2 ^ (-(52 - number.toNat.log2 : Nat) : Int) * (1 + 1 / 2 ^ 52) < 2 ^ 1024 := by
    rw [value]
    calc (number.toNat : ℚ) * (1 + 1 / 2 ^ 52) ≤ 2 ^ 64 * (1 + 1 / 2 ^ 52) := by gcongr
      _ ≤ 2 ^ 65 := by norm_num
      _ < 2 ^ 1024 := pow_lt_pow_right₀ one_lt_two (by decide)
  obtain ⟨rounded, raised, positive', same, atLeast, rises, rest⟩ :=
    unpack_pack_roundWithAccuracy .positive bits least inRange
  rw [value] at rest
  refine ⟨rounded, raised, positive', ?_, atLeast, by omega, rest⟩
  rw [← same, ← ofUInt64_eq positive]
  rfl

/-- Whether the parts of a double show that it is near to a small power of ten. -/
def isNearPower (power : Nat) : Bool :=
  match (powerOfTen power).toModel.unpack with
  | .finite .positive mantissa exponent _ =>
      decide (2 ^ 52 ≤ mantissa ∧ -500 ≤ exponent ∧
        mantissa * 2 ^ exponent.toNat * 2 ^ 52 ≤ 10 ^ power * 2 ^ (-exponent).toNat * (2 ^ 52 + 1))
  | _ => false

theorem isNear_of_isNearPower {power : Nat} (near : isNearPower power = true) :
    IsNear (10 ^ power) (powerOfTen power) := by
  unfold isNearPower at near
  split at near
  · next mantissa exponent positive parts =>
      obtain ⟨bits, least, value⟩ := of_decide_eq_true near
      refine ⟨mantissa, exponent, positive, parts, bits, least, ?_⟩
      have split : (2 : ℚ) ^ exponent = 2 ^ exponent.toNat / 2 ^ (-exponent).toNat := by
        rw [← zpow_natCast, ← zpow_natCast, ← zpow_sub₀ two_ne_zero]
        congr 1
        omega
      have cast : (mantissa : ℚ) * 2 ^ exponent.toNat * 2 ^ 52 ≤
          10 ^ power * 2 ^ (-exponent).toNat * (2 ^ 52 + 1) := by
        exact_mod_cast value
      rw [split, mul_div_assoc', div_le_iff₀ (by positivity)]
      linarith
  · cases near

/-- The larger powers of ten are rounded products. -/
theorem ofScientific_eq {power : Nat} (large : 22 < power) (inRange : power ≤ largestPower) :
    (powerOfTen power).toModel =
      Float.Model.pack
        (roundWithAccuracy .binary64 .positive (2 ^ 53 * 10 ^ power) (-53) .exact) := by
  have slow : ¬ (1 < 2 ^ 53 ∧ power ≤ 22) := by omega
  have width : Format.binary64.mantissaBits = 53 := rfl
  have notTooLarge : ¬ (Int.ofNat power : Int) > 2 ^ 11 := by
    simp only [largestPower] at inRange
    simp
    omega
  have notTooSmall : ¬ (Int.ofNat power : Int) < -(2 ^ 11 + (Nat.log2 1 : Nat)) := by
    simp
    omega
  have notNegative : 0 ≤ Int.ofNat power := Int.natCast_nonneg power
  have same : UnpackedFloat.ofScientific .binary64 1 (Int.ofNat power) =
      roundWithAccuracy .binary64 .positive (2 ^ 53 * 10 ^ power) (-53) .exact := by
    unfold UnpackedFloat.ofScientific
    rw [dif_neg one_ne_zero, if_neg notTooLarge, if_neg notTooSmall,
      if_pos notNegative]
    simp only [UnpackedFloat.mul, width, Nat.shiftLeft_eq, Nat.one_mul, Int.ofNat_eq_natCast,
      Int.toNat_natCast]
    rfl
  rw [powerOfTen, Float.ofScientific, dif_neg slow]
  simp only [Bool.false_eq_true, if_false, Float.Model.ofScientific, same]

theorem isNear_powerOfTen {power : Nat} (inRange : power ≤ largestPower) :
    IsNear (10 ^ power) (powerOfTen power) := by
  by_cases small : power ≤ 22
  · have all : ∀ power < 23, isNearPower power = true := by decide +kernel
    exact isNear_of_isNearPower (all power (Nat.lt_succ_of_le small))
  · have bits : 2 ^ 52 ≤ 2 ^ 53 * 10 ^ power :=
      Nat.le_trans (by decide) (Nat.le_mul_of_pos_right _ (Nat.pow_pos (by decide)))
    have value : ((2 ^ 53 * 10 ^ power : Nat) : ℚ) * 2 ^ (-53 : Int) = 10 ^ power := by
      rw [Nat.mul_comm, Nat.cast_mul, Nat.cast_pow, Nat.cast_pow, zpow_neg, zpow_ofNat]
      exact mul_inv_cancel_right₀ (by positivity) _
    have limit : (10 : ℚ) ^ power * (1 + 1 / 2 ^ 52) < 2 ^ 1024 := by
      have largest : (10 : ℚ) ^ 308 * (2 ^ 52 + 1) < 2 ^ 1024 * 2 ^ 52 := by
        exact_mod_cast (by decide +kernel : 10 ^ 308 * (2 ^ 52 + 1) < 2 ^ 1024 * 2 ^ 52)
      have most : (10 : ℚ) ^ power ≤ 10 ^ 308 := pow_le_pow_right₀ (by norm_num) inRange
      generalize (2 : ℚ) ^ 1024 = limit at *
      generalize (10 : ℚ) ^ 308 = largestPower at *
      linarith
    rw [← value] at limit
    obtain ⟨rounded, raised, positive, same, atLeast, rises, rest⟩ :=
      unpack_pack_roundWithAccuracy .positive bits (by decide) limit
    rw [value] at rest
    refine ⟨rounded, raised, positive, ?_, atLeast, by omega, rest⟩
    rw [ofScientific_eq (by omega) inRange, same]

theorem isInf_mul {first second : ℚ} {left right : Float} (leftNear : IsNear first left)
    (rightNear : IsNear second right) (inRange : first * second * (1 + 1 / 2 ^ 52) ^ 3 < 2 ^ 1024) :
    (left * right).isInf = false := by
  obtain ⟨leftMantissa, leftExponent, leftPositive, leftParts, leftBits, leftLeast, leftValue⟩ :=
    leftNear
  obtain ⟨rightMantissa, rightExponent, rightPositive, rightParts, rightBits, rightLeast,
    rightValue⟩ := rightNear
  have bits : 2 ^ 52 ≤ leftMantissa * rightMantissa :=
    Nat.le_trans leftBits (Nat.le_mul_of_pos_right _ rightPositive)
  have value : ((leftMantissa * rightMantissa : Nat) : ℚ) * 2 ^ (leftExponent + rightExponent) *
      (1 + 1 / 2 ^ 52) < 2 ^ 1024 := by
    refine lt_of_le_of_lt ?_ inRange
    have leftPositive : (0 : ℚ) ≤ leftMantissa * 2 ^ leftExponent := by positivity
    calc ((leftMantissa * rightMantissa : Nat) : ℚ) * 2 ^ (leftExponent + rightExponent) *
          (1 + 1 / 2 ^ 52)
        = (leftMantissa * 2 ^ leftExponent) * (rightMantissa * 2 ^ rightExponent) *
          (1 + 1 / 2 ^ 52) := by
          rw [zpow_add₀ two_ne_zero]
          push_cast
          ring
      _ ≤ (first * (1 + 1 / 2 ^ 52)) * (second * (1 + 1 / 2 ^ 52)) * (1 + 1 / 2 ^ 52) := by
          gcongr
          exact le_trans leftPositive leftValue
      _ = first * second * (1 + 1 / 2 ^ 52) ^ 3 := by ring
  obtain ⟨rounded, raised, positive, same, -⟩ :=
    unpack_pack_roundWithAccuracy (.positive * .positive) bits (by omega) value
  have parts : (left * right).toModel.unpack = .finite (.positive * .positive) rounded raised
      positive := by
    rw [← same]
    change (Float.Model.pack (UnpackedFloat.mul .binary64 left.toModel.unpack
      right.toModel.unpack)).unpack = _
    rw [leftParts, rightParts]
    rfl
  change (left * right).toModel.unpack.isInf = false
  rw [parts]
  rfl

end DiskWarden.Decimal
