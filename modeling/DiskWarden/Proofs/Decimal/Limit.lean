import DiskWarden.Decimal.Shortest
import DiskWarden.Proofs.Decimal.Rounding
import DiskWarden.Proofs.Percent.Order

/-!
# Which decimal numbers are in range

A number is scaled with two roundings and a product, so it has to be some units in the last place
below the limit of doubles.  The shortest digits of a double keep away from it by that much, unless
the double is one of the largest.
-/

namespace DiskWarden.Decimal

open Float.Model Float.Model.UnpackedFloat

/-! ## Scaling -/

/-- The end of the neighbourhood of the ninth largest double. -/
@[irreducible]
def safeLimit : Nat := (4 * (2 ^ 53 - 9) + 2) * 2 ^ 969

theorem cast_safeLimit : (safeLimit : ℚ) = (4 * (2 ^ 53 - 9) + 2 : Nat) * 2 ^ 969 := by
  unfold safeLimit
  rw [Nat.cast_mul, Nat.cast_pow, Nat.cast_ofNat]

theorem safeLimit_lt : (safeLimit : ℚ) * (1 + 1 / 2 ^ 52) ^ 3 < 2 ^ 1024 := by
  have whole : (safeLimit : ℚ) * (2 ^ 52 + 1) ^ 3 < 2 ^ 1024 * (2 ^ 52) ^ 3 := by
    exact_mod_cast (by decide +kernel : safeLimit * (2 ^ 52 + 1) ^ 3 < 2 ^ 1024 * (2 ^ 52) ^ 3)
  generalize (2 : ℚ) ^ 1024 = limit at *
  generalize (safeLimit : ℚ) = safe at *
  have same : safe * (1 + 1 / 2 ^ 52) ^ 3 = safe * (2 ^ 52 + 1) ^ 3 / (2 ^ 52) ^ 3 := by
    field_simp
  rw [same, div_lt_iff₀ (by positivity)]
  exact whole

theorem isInf_zero_mul {power : Nat} (inRange : power ≤ largestPower) :
    ((0 : UInt64).toFloat * powerOfTen power).isInf = false := by
  obtain ⟨mantissa, exponent, positive, parts, -⟩ := isNear_powerOfTen inRange
  have zero : (0 : UInt64).toFloat.toModel.unpack = .zero .positive := by rfl
  have product : UnpackedFloat.mul .binary64 (.zero .positive)
      (.finite .positive mantissa exponent positive) = .zero .positive := by rfl
  change (Float.Model.pack (UnpackedFloat.mul .binary64 (0 : UInt64).toFloat.toModel.unpack
    (powerOfTen power).toModel.unpack)).unpack.isInf = false
  rw [zero, parts, product]
  decide +kernel

theorem isSome_scale {significand : UInt64} {exponent : Int}
    (safe : (significand.toNat : ℚ) * 10 ^ exponent ≤ safeLimit) :
    (scale significand exponent).isSome = true := by
  unfold scale
  cases exponent with
  | negSucc n => rfl
  | ofNat n =>
      rw [Int.ofNat_eq_natCast, zpow_natCast] at safe
      by_cases zero : significand = 0
      · subst zero
        by_cases inRange : n ≤ largestPower
        · simp [inRange, isInf_zero_mul inRange]
        · have isZero : ((0 : UInt64).toFloat == 0) = true := by decide +kernel
          simp [inRange, isZero]
      · have positive : 0 < significand.toNat := by
          rw [Nat.pos_iff_ne_zero]
          exact fun none => zero (UInt64.toNat.inj none)
        by_cases inRange : n ≤ largestPower
        · have below : (significand.toNat : ℚ) * 10 ^ n * (1 + 1 / 2 ^ 52) ^ 3 < 2 ^ 1024 := by
            refine lt_of_le_of_lt ?_ safeLimit_lt
            gcongr
          have finite := isInf_mul (isNear_toFloat positive) (isNear_powerOfTen inRange) below
          simp [inRange, finite]
        · -- a number this large is above the limit
          have large : (10 : ℚ) ^ 309 ≤ significand.toNat * 10 ^ n := by
            have unit : (1 : ℚ) ≤ significand.toNat := by exact_mod_cast positive
            have power : (10 : ℚ) ^ 309 ≤ 10 ^ n := by
              refine pow_le_pow_right₀ (by norm_num) ?_
              simp only [largestPower] at inRange
              omega
            calc (10 : ℚ) ^ 309 ≤ 10 ^ n := power
              _ = 1 * 10 ^ n := (one_mul _).symm
              _ ≤ significand.toNat * 10 ^ n := by gcongr
          have below : (safeLimit : ℚ) < 10 ^ 309 := by
            exact_mod_cast (by decide +kernel : safeLimit < 10 ^ 309)
          exact absurd (large.trans safe) (not_le.mpr below)

/-! ## Shortest digits -/

/-- The number that digits stand for. -/
def Digits.value (digits : Digits) : ℚ := digits.significand * 10 ^ digits.exponent

theorem Digits.value_normalize (fuel : Nat) (digits : Digits) :
    (digits.normalize fuel).value = digits.value := by
  induction fuel generalizing digits with
  | zero => rfl
  | succ fuel inductionHypothesis =>
      unfold normalize
      split
      · next ends =>
          have tens : digits.significand % 10 = 0 := by
            simp only [Bool.and_eq_true, decide_eq_true_eq] at ends
            exact ends.1
          have whole : digits.significand = digits.significand / 10 * 10 := by omega
          rw [inductionHypothesis, value, value, zpow_add_one₀ (by norm_num)]
          conv_rhs => rw [whole, Nat.cast_mul, Nat.cast_ofNat]
          ring
      · rfl

theorem Neighbourhood.holds_of_nearest? {area : Neighbourhood} {count : Nat}
    (found : area.nearest? = some count) : area.holds count = true := by
  simp only [nearest?] at found
  split at found
  · next below above =>
      -- both neighbours round to the double, so the choice between them does not matter
      rw [Option.some.injEq] at found
      rw [← found]
      simp only [roundHalfEven]
      split
      · exact below
      · split
        · exact above
        · split
          · exact below
          · exact above
  · next below _ =>
      cases found
      exact below
  · next _ above =>
      cases found
      exact above
  · cases found

theorem Neighbourhood.le_of_holds {area : Neighbourhood} {count : Nat}
    (holds : area.holds count = true) : count * area.denominator ≤ area.high := by
  unfold Neighbourhood.holds at holds
  split at holds
  · rw [Bool.and_eq_true, decide_eq_true_eq, decide_eq_true_eq] at holds
    exact holds.2
  · rw [Bool.and_eq_true, decide_eq_true_eq, decide_eq_true_eq] at holds
    exact Nat.le_of_lt holds.2

theorem zpow_eq_div (base : ℚ) (positive : base ≠ 0) (exponent : Int) :
    base ^ exponent = base ^ exponent.toNat / base ^ (-exponent).toNat := by
  rw [← zpow_natCast, ← zpow_natCast, ← zpow_sub₀ positive]
  congr 1
  omega

theorem value_le_of_holds {mantissa count : Nat} {exponent unit : Int}
    (holds : (Neighbourhood.of mantissa exponent unit).holds count = true) :
    (count : ℚ) * 10 ^ unit ≤ (4 * mantissa + 2) * 2 ^ (exponent - 2) := by
  have whole := Neighbourhood.le_of_holds holds
  simp only [Neighbourhood.of] at whole
  have cast : (count : ℚ) * (2 ^ (2 - exponent).toNat * 10 ^ unit.toNat) ≤
      (4 * mantissa + 2) * (2 ^ (exponent - 2).toNat * 10 ^ (-unit).toNat) := by
    exact_mod_cast whole
  have opposite : -(exponent - 2) = 2 - exponent := by omega
  rw [zpow_eq_div 10 (by norm_num), zpow_eq_div 2 two_ne_zero, opposite, mul_div_assoc',
    mul_div_assoc', div_le_div_iff₀ (by positivity) (by positivity)]
  linarith

theorem value_searchUnits_le {mantissa steps : Nat} {exponent unit : Int} {digits : Digits}
    (found : searchUnits mantissa exponent steps unit = some digits) :
    digits.value ≤ (4 * mantissa + 2) * 2 ^ (exponent - 2) := by
  induction steps generalizing unit with
  | zero => cases found
  | succ steps inductionHypothesis =>
      unfold searchUnits at found
      split at found
      · next count nearest =>
          cases found
          rw [Digits.value_normalize]
          exact value_le_of_holds (Neighbourhood.holds_of_nearest? nearest)
      · exact inductionHypothesis found

theorem neighbourhood_le_safeLimit {mantissa : Nat} {exponent : Int} (room : mantissa < 2 ^ 53)
    (most : exponent ≤ 971) (notLargest : mantissa < 2 ^ 53 - 8 ∨ exponent ≤ 970) :
    (4 * mantissa + 2 : ℚ) * 2 ^ (exponent - 2) ≤ safeLimit := by
  rcases notLargest with smaller | lower
  · have bound : (4 * mantissa + 2 : ℚ) ≤ (4 * (2 ^ 53 - 9) + 2 : Nat) := by
      exact_mod_cast (by omega : 4 * mantissa + 2 ≤ 4 * (2 ^ 53 - 9) + 2)
    calc (4 * mantissa + 2 : ℚ) * 2 ^ (exponent - 2)
        ≤ (4 * (2 ^ 53 - 9) + 2 : Nat) * 2 ^ ((969 : Nat) : Int) := by
          gcongr
          · exact one_le_two
          · omega
      _ = safeLimit := by
          rw [zpow_natCast, cast_safeLimit]
  · have bound : (4 * mantissa + 2 : ℚ) ≤ (2 ^ 55 : Nat) := by
      exact_mod_cast (by omega : 4 * mantissa + 2 ≤ 2 ^ 55)
    calc (4 * mantissa + 2 : ℚ) * 2 ^ (exponent - 2)
        ≤ (2 ^ 55 : Nat) * 2 ^ ((968 : Nat) : Int) := by
          gcongr
          · exact one_le_two
          · omega
      _ = (2 ^ 55 * 2 ^ 968 : Nat) := by
          rw [zpow_natCast, Nat.cast_mul, Nat.cast_pow 2 968]
          rfl
      _ ≤ safeLimit := by
          exact_mod_cast (by decide +kernel : 2 ^ 55 * 2 ^ 968 ≤ safeLimit)

/-- Eight doubles aside, the shortest digits of a double are in range. -/
theorem value_shortest_le {mantissa : Nat} {exponent : Int} (room : mantissa < 2 ^ 53)
    (most : exponent ≤ 971) (notLargest : mantissa < 2 ^ 53 - 8 ∨ exponent ≤ 970) :
    (shortest mantissa exponent).value ≤ safeLimit := by
  unfold shortest
  split
  · rw [Digits.value, Nat.cast_zero, zero_mul]
    exact Nat.cast_nonneg _
  · simp only
    generalize Int.fdiv (((Nat.log2 mantissa : Nat) + exponent) * 1233) 4096 + 1 = unit
    cases found : searchUnits mantissa exponent 24 unit with
    | none =>
        have small : mantissa ≤ safeLimit := Nat.le_trans (Nat.le_of_lt room) (by decide +kernel)
        rw [Option.getD_none, Digits.value, zpow_zero, mul_one]
        exact_mod_cast small
    | some digits =>
        exact le_trans (value_searchUnits_le found)
          (neighbourhood_le_safeLimit room most notLargest)

/-! ## Finite doubles -/

theorem Binary.exists_ofFloat_eq {value : Float} (finite : value.isFinite = true) :
    ∃ negative mantissa exponent, Binary.ofFloat value = .finite negative mantissa exponent ∧
      mantissa < 2 ^ 53 ∧ exponent ≤ 971 := by
  have notOnes : value.toBits.toNat / Nat.pow 2 52 % Nat.pow 2 11 ≠ 2047 := by
    intro filled
    have ones : @unpackExponent .binary64 value.toModel.toBits.toBitVec = -1#11 := by
      apply BitVec.eq_of_toNat_eq
      rw [Percent.toNat_unpackExponent]
      exact filled
    have infinite : value.isFinite = false := by
      change (UnpackedFloat.unpack .binary64 value.toModel.toBits.toBitVec).isFinite = false
      unfold UnpackedFloat.unpack
      simp only [ones, if_true]
      split <;> rfl
    rw [infinite] at finite
    cases finite
  have fraction : value.toBits.toNat % Nat.pow 2 52 < 2 ^ 52 := Nat.mod_lt _ (by decide)
  have field : value.toBits.toNat / Nat.pow 2 52 % Nat.pow 2 11 < 2 ^ 11 := Nat.mod_lt _ (by decide)
  have implicitBit : Nat.pow 2 52 = 2 ^ 52 := rfl
  unfold Binary.ofFloat Binary.ofBits
  simp only [notOnes, if_false, Int.ofNat_eq_natCast]
  split
  · exact ⟨_, _, _, rfl, by omega, by omega⟩
  · exact ⟨_, _, _, rfl, by omega, by omega⟩

end DiskWarden.Decimal
