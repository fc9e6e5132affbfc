import DiskWarden.Proofs.Percent.Order

/-!
# Doubles brought into range

A progress value is made from any double by its bits.  As a number it is the double brought into
the range from 0 to 100, and there is none exactly for what is no number.  What a series of
doubles reaches is the largest of them, brought into range.
-/

namespace DiskWarden.Percent

open Float.Model Float.Model.UnpackedFloat

/-- A double that is below 0 or above 100 gives the end of the range, and any other itself. -/
def clamp (value : Float) : Float :=
  if value < 0 then 0 else if 100 < value then 100 else value

/-! ## The parts of a double of either sign -/

/-- The bits of a double without that of the sign, taken as a number. -/
def magnitudeBits (bits : BitVec 64) : Nat := bits.toNat % 2 ^ 63

theorem ofBitVec_unpackSign (bits : BitVec 64) :
    Sign.ofBitVec (@unpackSign .binary64 bits) =
      if bits.toNat < 2 ^ 63 then .positive else .negative := by
  have value := toNat_unpackSign bits
  have bound := bits.isLt
  by_cases below : bits.toNat < 2 ^ 63
  · have clear : @unpackSign .binary64 bits = 0#1 := by
      apply BitVec.eq_of_toNat_eq
      rw [value, BitVec.toNat_ofNat]
      omega
    rw [clear, if_pos below]
    rfl
  · have set : @unpackSign .binary64 bits = 1#1 := by
      apply BitVec.eq_of_toNat_eq
      rw [value, BitVec.toNat_ofNat]
      omega
    rw [set, if_neg below]
    rfl

theorem unpackExponent_eq_ones_iff (bits : BitVec 64) :
    @unpackExponent .binary64 bits = -1#11 ↔ infiniteBits ≤ magnitudeBits bits := by
  rw [← BitVec.toNat_inj, toNat_unpackExponent]
  unfold infiniteBits magnitudeBits
  simp
  omega

theorem unpackExponent_eq_zero_iff (bits : BitVec 64) :
    @unpackExponent .binary64 bits = 0#11 ↔ magnitudeBits bits < 2 ^ 52 := by
  rw [← BitVec.toNat_inj, toNat_unpackExponent]
  unfold magnitudeBits
  simp
  omega

theorem unpackMantissa_eq_zero_iff (bits : BitVec 64) :
    @unpackMantissa .binary64 bits = 0#52 ↔ magnitudeBits bits % 2 ^ 52 = 0 := by
  rw [← BitVec.toNat_inj, toNat_unpackMantissa]
  unfold magnitudeBits
  simp

/-- What a double is, told by its magnitude. -/
inductive Parts (sign : Sign) (magnitude : Nat) : UnpackedFloat → Prop
  | zero (same : magnitude = 0) : Parts sign magnitude (.zero sign)
  | finite {mantissa : Nat} {power : Int} (positive : 0 < mantissa) (some' : magnitude ≠ 0)
      (below : magnitude < infiniteBits) :
      Parts sign magnitude (.finite sign mantissa power positive)
  | infinity (same : magnitude = infiniteBits) : Parts sign magnitude (.infinity sign)
  | notANumber (above : infiniteBits < magnitude) : Parts sign magnitude .notANumber

theorem parts_unpack (bits : BitVec 64) :
    Parts (if bits.toNat < 2 ^ 63 then .positive else .negative) (magnitudeBits bits)
      (UnpackedFloat.unpack .binary64 bits) := by
  have ones := unpackExponent_eq_ones_iff bits
  have zeros := unpackExponent_eq_zero_iff bits
  have fraction := unpackMantissa_eq_zero_iff bits
  unfold UnpackedFloat.unpack
  simp only [ofBitVec_unpackSign, ones, zeros, fraction]
  have bound : magnitudeBits bits < 2 ^ 63 := Nat.mod_lt _ (by decide)
  by_cases filled : infiniteBits ≤ magnitudeBits bits
  · rw [if_pos filled]
    by_cases whole : magnitudeBits bits % 2 ^ 52 = 0
    · rw [if_pos whole]
      apply Parts.infinity
      unfold infiniteBits at filled ⊢
      omega
    · rw [if_neg whole]
      apply Parts.notANumber
      unfold infiniteBits at filled ⊢
      omega
  · rw [if_neg filled]
    have below := Nat.lt_of_not_le filled
    by_cases small : magnitudeBits bits < 2 ^ 52
    · rw [if_pos small]
      by_cases whole : magnitudeBits bits % 2 ^ 52 = 0
      · rw [dif_pos whole]
        exact .zero (Nat.mod_eq_of_lt small ▸ whole)
      · rw [dif_neg whole]
        have some' : magnitudeBits bits ≠ 0 := fun same => whole (by rw [same]; rfl)
        exact .finite _ some' below
    · rw [if_neg small]
      have some' : magnitudeBits bits ≠ 0 := fun same => small (by rw [same]; decide)
      exact .finite _ some' below

/-! ## Comparing with the ends of the range -/

theorem ofBits_toBits (value : Float) : Float.ofBits value.toBits = value := by
  obtain ⟨⟨bits, valid⟩⟩ := value
  have same := UnpackedFloat.pack_unpack_of_valid valid
  change (⟨⟨UInt64.ofBitVec (UnpackedFloat.pack .binary64
    (UnpackedFloat.unpack .binary64 bits.toBitVec)), _⟩⟩ : Float) = ⟨⟨bits, valid⟩⟩
  simp only [same]

theorem lt_iff_unpack (first second : Float) :
    first < second ↔ first.toModel.unpack.lt second.toModel.unpack = true := by
  change decide (first.toModel < second.toModel) = true ↔ _
  rw [decide_eq_true_iff]
  rfl

section Compare

variable {value : Float}

theorem parts_toModel (value : Float) :
    Parts (if value.toBits.toNat < 2 ^ 63 then .positive else .negative)
      (magnitudeBits value.toBits.toBitVec) value.toModel.unpack :=
  parts_unpack value.toBits.toBitVec

theorem isNaN_iff : value.isNaN = true ↔ infiniteBits < magnitudeBits value.toBits.toBitVec := by
  have parts := parts_toModel value
  change value.toModel.unpack.isNaN = true ↔ _
  generalize value.toModel.unpack = unpacked at parts
  cases parts with
  | zero same => simp [UnpackedFloat.isNaN, same]
  | finite positive some' below => simp [UnpackedFloat.isNaN, Nat.le_of_lt below]
  | infinity same => simp [UnpackedFloat.isNaN, same]
  | notANumber above => simp [UnpackedFloat.isNaN, above]

/-- Below 0 are the doubles with the sign bit, but for the zero among them. -/
theorem lt_zero_iff (number : value.isNaN = false) :
    value < 0 ↔ 2 ^ 63 < value.toBits.toNat := by
  have parts := parts_toModel value
  have bound := value.toBits.toNat_lt
  have magnitude : magnitudeBits value.toBits.toBitVec = value.toBits.toNat % 2 ^ 63 := rfl
  have zero : (0 : Float).toModel.unpack = .zero .positive := rfl
  rw [lt_iff_unpack, zero]
  rw [magnitude] at parts
  rw [← Bool.not_eq_true, isNaN_iff, magnitude] at number
  generalize value.toModel.unpack = unpacked at parts
  by_cases positive : value.toBits.toNat < 2 ^ 63
  · rw [if_pos positive] at parts
    refine iff_of_false ?_ (Nat.lt_asymm positive)
    cases parts <;> nofun
  · rw [if_neg positive] at parts
    cases parts with
    | zero same => exact iff_of_false nofun (by omega)
    | finite _ some' _ => exact iff_of_true rfl (by omega)
    | infinity same => exact iff_of_true rfl (by unfold infiniteBits at same; omega)
    | notANumber above => exact absurd above number

/-- Among positive doubles, as numbers, the smaller one has the smaller bits. -/
theorem compare_eq_lt_iff {first second : Nat} :
    (compare (exponent first) (exponent second)).then
      (compare (significand first) (significand second)) = .lt ↔ first < second := by
  have decided :
      (exponent first < exponent second ∨ exponent first = exponent second ∧
        significand first < significand second) ↔ first < second := by
    unfold exponent significand
    split <;> split <;> omega
  rw [Ordering.then_eq_lt, compare_lt_iff_lt, compare_eq_iff_eq, compare_lt_iff_lt]
  exact decided

theorem hundred_lt_iff (positive : value.toBits.toNat ≤ infiniteBits) :
    100 < value ↔ hundred.rank < value.toBits.toNat := by
  have numeral : (100 : Float) = hundred.toFloat := by decide
  have parts : (100 : Float).toModel.unpack =
      .finite .positive (significand hundred.rank) (exponent hundred.rank)
        (significand_pos (by decide)) := by
    rw [numeral]
    exact unpack_toFloat_of_rank_ne_zero (by decide)
  rw [lt_iff_unpack, parts]
  by_cases zero : value.toBits.toNat = 0
  · have same : value.toBits = 0 := UInt64.toNat.inj zero
    have unpacked : value.toModel.unpack = .zero .positive := by
      change UnpackedFloat.unpack .binary64 value.toBits.toBitVec = _
      rw [same]
      exact unpack_zero
    rw [unpacked, zero]
    exact iff_of_false nofun (Nat.not_lt_zero _)
  by_cases finite : value.toBits.toNat < infiniteBits
  · have unpacked : value.toModel.unpack = .finite .positive (significand value.toBits.toNat)
        (exponent value.toBits.toNat) (significand_pos zero) :=
      unpack_of_finite value.toBits.toBitVec zero finite
    rw [unpacked, ← compare_eq_lt_iff]
    simp only [UnpackedFloat.lt, UnpackedFloat.compare, beq_iff_eq, Option.some.injEq]
  · have same : value.toBits = 0x7FF0000000000000 :=
      UInt64.toNat.inj (Nat.le_antisymm positive (Nat.le_of_not_lt finite))
    have unpacked : value.toModel.unpack = .infinity .positive := by
      change UnpackedFloat.unpack .binary64 value.toBits.toBitVec = _
      rw [same]
      rfl
    rw [unpacked, same]
    exact iff_of_true rfl (by decide)

end Compare

/-! ## Progress values -/

theorem bitsAreNaN_iff (bits : UInt64) :
    bitsAreNaN bits = true ↔ infiniteBits < magnitudeBits bits.toBitVec := by
  unfold bitsAreNaN
  rw [decide_eq_true_iff, UInt64.lt_iff_toNat_lt, UInt64.toNat_and]
  exact (congrArg (infiniteBits < ·) (Nat.and_two_pow_sub_one_eq_mod bits.toNat 63)) ▸ Iff.rfl

theorem ofFloat?_eq_none_iff {value : Float} : ofFloat? value = none ↔ value.isNaN = true := by
  rw [isNaN_iff, ← bitsAreNaN_iff, ofFloat?, ofBits?]
  split
  · next notANumber => exact iff_of_true rfl notANumber
  · next number =>
      refine iff_of_false ?_ number
      split_ifs
      all_goals exact not_false

/-- A progress value is, as a number, the double that it is made from, brought into range. -/
theorem toFloat_of_ofFloat? {value : Float} {percent : Percent}
    (nearest : ofFloat? value = some percent) : percent.toFloat = clamp value := by
  have number : value.isNaN = false := by
    rw [← Bool.not_eq_true, ← ofFloat?_eq_none_iff, nearest]
    nofun
  have finite : magnitudeBits value.toBits.toBitVec ≤ infiniteBits := by
    rw [← Nat.not_lt, ← isNaN_iff, number]
    nofun
  have belowZero := lt_zero_iff number
  rw [ofFloat?, ofBits?] at nearest
  split at nearest
  · cases nearest
  have itself (same : percent.bits = value.toBits) : percent.toFloat = value := by
    rw [toFloat, same, ofBits_toBits]
  split at nearest
  · next zero =>
      cases nearest
      rw [itself zero.symm, ← itself zero.symm]
      decide
  split at nearest
  · next negative =>
      cases nearest
      rw [clamp, if_pos (belowZero.mpr (UInt64.lt_iff_toNat_lt.mp negative))]
      decide
  next notZero notBelow =>
    have notNegative : value.toBits.toNat < 2 ^ 63 := by
      have other : value.toBits.toNat ≠ 2 ^ 63 := fun same => notZero (UInt64.toNat.inj same)
      have notLess : ¬ 2 ^ 63 < value.toBits.toNat := fun less =>
        notBelow (UInt64.lt_iff_toNat_lt.mpr less)
      omega
    have positive : value.toBits.toNat ≤ infiniteBits := by
      rwa [magnitudeBits, UInt64.toNat_toBitVec, Nat.mod_eq_of_lt notNegative] at finite
    have aboveHundred := hundred_lt_iff positive
    rw [clamp, if_neg (fun less => Nat.lt_asymm notNegative (belowZero.mp less))]
    split at nearest
    · next within =>
        cases nearest
        rw [itself rfl, if_neg]
        rw [aboveHundred, Nat.not_lt]
        exact UInt64.le_iff_toNat_le.mp within
    · next outside =>
        cases nearest
        rw [if_pos]
        · decide
        · rw [aboveHundred]
          exact Nat.lt_of_not_le fun within => outside (UInt64.le_iff_toNat_le.mpr within)

/-! ## The largest of some doubles -/

/-- The larger of a progress value and a double brought into range. -/
def raise (percent : Percent) (value : Float) : Percent :=
  match ofFloat? value with
  | some other => percent.max other
  | none => percent

/-- What some doubles reach from zero on. -/
def reach (values : List Float) : Percent := values.foldl raise zero

theorem raise_zero (value : Float) : zero.raise value = (ofFloat? value).getD zero := by
  unfold raise
  cases ofFloat? value with
  | some other => exact if_neg (Nat.not_lt_zero other.rank)
  | none => rfl

theorem reach_concat (values : List Float) (value : Float) :
    reach (values ++ [value]) = (reach values).raise value :=
  List.foldl_concat raise zero value values

/-- The largest of 0 and the doubles of a list that are numbers, each brought into range. -/
structure IsLargest (values : List Float) (largest : Float) : Prop where
  zero_le : 0 ≤ largest
  clamp_le : ∀ value ∈ values, value.isNaN = false → clamp value ≤ largest
  attained : largest ≤ 0 ∨ ∃ value ∈ values, value.isNaN = false ∧ largest ≤ clamp value

theorem exists_toFloat_eq_clamp {value : Float} (number : value.isNaN = false) :
    ∃ percent, ofFloat? value = some percent ∧ percent.toFloat = clamp value := by
  obtain ⟨percent, nearest⟩ : ∃ percent, ofFloat? value = some percent := by
    rw [← Option.ne_none_iff_exists', Ne, ofFloat?_eq_none_iff, number]
    nofun
  exact ⟨percent, nearest, toFloat_of_ofFloat? nearest⟩

theorem toFloat_le_raise (percent : Percent) (value : Float) :
    percent.toFloat ≤ (percent.raise value).toFloat := by
  rw [toFloat_le_toFloat_iff]
  unfold raise
  cases ofFloat? value with
  | some other =>
      rw [rank_max]
      exact Nat.le_max_left _ _
  | none => exact Nat.le_refl _

theorem toFloat_le_trans {first second third : Percent} (low : first.toFloat ≤ second.toFloat)
    (high : second.toFloat ≤ third.toFloat) : first.toFloat ≤ third.toFloat := by
  rw [toFloat_le_toFloat_iff] at low high ⊢
  exact Nat.le_trans low high

theorem clamp_le_raise (percent : Percent) {value : Float} (number : value.isNaN = false) :
    clamp value ≤ (percent.raise value).toFloat := by
  obtain ⟨other, nearest, same⟩ := exists_toFloat_eq_clamp number
  rw [raise, nearest, ← same, toFloat_le_toFloat_iff, rank_max]
  exact Nat.le_max_right _ _

theorem raise_cases (percent : Percent) (value : Float) :
    percent.raise value = percent ∨
      (value.isNaN = false ∧ (percent.raise value).toFloat = clamp value) := by
  by_cases number : value.isNaN = false
  · obtain ⟨other, nearest, same⟩ := exists_toFloat_eq_clamp number
    rw [raise, nearest, ← same]
    by_cases larger : other.rank < percent.rank
    · exact .inl (if_pos larger)
    · exact .inr ⟨number, congrArg toFloat (if_neg larger)⟩
  · rw [Bool.not_eq_false, ← ofFloat?_eq_none_iff] at number
    rw [raise, number]
    exact .inl rfl

theorem isLargest_reach (values : List Float) : IsLargest values (reach values).toFloat := by
  induction values using List.reverseRecOn with
  | nil =>
      have numeral : (reach []).toFloat = 0 := by decide
      rw [numeral]
      exact ⟨by decide, nofun, .inl (by decide)⟩
  | append_singleton values value inductionHypothesis =>
      rw [reach_concat]
      refine ⟨zero_le_toFloat _, ?_, ?_⟩
      · intro other member number
        rcases List.mem_append.mp member with old | new
        · obtain ⟨percent, -, same⟩ := exists_toFloat_eq_clamp number
          have before := inductionHypothesis.clamp_le other old number
          rw [← same] at before ⊢
          exact toFloat_le_trans before (toFloat_le_raise _ value)
        · cases List.mem_singleton.mp new
          exact clamp_le_raise _ number
      · rcases raise_cases (reach values) value with same | ⟨number, same⟩
        · rw [same]
          rcases inductionHypothesis.attained with none | ⟨other, member, number, le⟩
          · exact .inl none
          · exact .inr ⟨other, List.mem_append_left _ member, number, le⟩
        · refine .inr ⟨value, List.mem_append_right _ List.mem_cons_self, number, ?_⟩
          rw [← same, toFloat_le_toFloat_iff]

/-- More doubles reach no less, whatever their order and however often each of them is given. -/
theorem reach_le_reach {values others : List Float} (subset : values ⊆ others) :
    (reach values).toFloat ≤ (reach others).toFloat := by
  have upper := isLargest_reach others
  rcases (isLargest_reach values).attained with none | ⟨value, member, number, le⟩
  · have numeral : (0 : Float) = zero.toFloat := by decide
    have nonneg := upper.zero_le
    rw [numeral] at none nonneg
    exact toFloat_le_trans none nonneg
  · have bound := upper.clamp_le value (subset member) number
    obtain ⟨percent, -, same⟩ := exists_toFloat_eq_clamp number
    rw [← same] at le bound
    exact toFloat_le_trans le bound

end DiskWarden.Percent
