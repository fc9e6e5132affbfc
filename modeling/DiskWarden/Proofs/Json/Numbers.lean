import DiskWarden.Json.Printer
import DiskWarden.Proofs.Decimal.Limit
import DiskWarden.Proofs.Json.Parts

/-!
# Numbers that are read back

Integers and the shortest digits of doubles are written as parts of numbers.  The parts stand for
the number that the digits stand for, so no finite double is out of range when it is read.
-/

namespace DiskWarden.Json

/-! ## What parts stand for -/

theorem digitsValue_cons (c : Char) (digits : List Char) :
    digitsValue (c :: digits) = digitValue c * 10 ^ digits.length + digitsValue digits := by
  have single : digitsValue [c] = digitValue c := Nat.zero_add _
  rw [← List.singleton_append, digitsValue_append, single]

/-- Digits before the point are all gathered if they fit. -/
theorem gatherWhole_of_lt {significand : Nat} {digits : List Char}
    (fits : significand * 10 ^ digits.length + digitsValue digits < significandLimit) :
    gatherWhole significand digits =
      (significand * 10 ^ digits.length + digitsValue digits, 0) := by
  induction digits generalizing significand with
  | nil => simp [gatherWhole, digitsValue]
  | cons c digits inductionHypothesis =>
      have same : significand * 10 ^ (c :: digits).length + digitsValue (c :: digits) =
          (significand * 10 + digitValue c) * 10 ^ digits.length + digitsValue digits := by
        rw [digitsValue_cons, List.length_cons, Nat.pow_succ]
        ring
      rw [same] at fits ⊢
      have next : significand * 10 + digitValue c < significandLimit := by
        refine Nat.lt_of_le_of_lt ?_ fits
        exact Nat.le_add_right_of_le (Nat.le_mul_of_pos_right _ (Nat.pow_pos (by decide)))
      rw [gatherWhole]
      simp only [next, if_true]
      exact inductionHypothesis fits

/-- Digits after the point that do not fit only make the number smaller. -/
theorem gatherFraction_le (significand : Nat) (exponent : Int) (digits : List Char) :
    ((gatherFraction significand exponent digits).1 : ℚ) *
        10 ^ (gatherFraction significand exponent digits).2 ≤
      (significand * 10 ^ digits.length + digitsValue digits : Nat) *
        10 ^ (exponent - digits.length) := by
  induction digits generalizing significand exponent with
  | nil => simp [gatherFraction, digitsValue]
  | cons c digits inductionHypothesis =>
      have same : significand * 10 ^ (c :: digits).length + digitsValue (c :: digits) =
          (significand * 10 + digitValue c) * 10 ^ digits.length + digitsValue digits := by
        rw [digitsValue_cons, List.length_cons, Nat.pow_succ]
        ring
      rw [gatherFraction]
      split
      · have places : exponent - (c :: digits).length = exponent - 1 - digits.length := by
          rw [List.length_cons]
          omega
        rw [same, places]
        exact inductionHypothesis _ _
      · have split : (10 : ℚ) ^ exponent =
            10 ^ (c :: digits).length * 10 ^ (exponent - (c :: digits).length) := by
          rw [← zpow_natCast, ← zpow_add₀ (by norm_num)]
          congr 1
          omega
        rw [split, ← mul_assoc]
        gcongr
        push_cast
        exact le_add_of_nonneg_right (Nat.cast_nonneg _)

namespace NumberParts

/-- The number that parts stand for, the sign aside. -/
def magnitude (parts : NumberParts) : ℚ :=
  digitsValue (parts.whole ++ parts.fraction) *
    10 ^ (parts.exponent.getD 0 - parts.fraction.length)

theorem isSome_float? {parts : NumberParts} (fits : digitsValue parts.whole < significandLimit)
    (safe : parts.magnitude ≤ Decimal.safeLimit) : parts.float?.isSome = true := by
  have whole : gatherWhole 0 parts.whole = (digitsValue parts.whole, 0) := by
    have gathered : 0 * 10 ^ parts.whole.length + digitsValue parts.whole =
        digitsValue parts.whole := by
      rw [Nat.zero_mul, Nat.zero_add]
    rw [gatherWhole_of_lt (by rw [gathered]; exact fits), gathered]
  simp only [float?, whole, Option.isSome_map]
  apply Decimal.isSome_scale
  refine le_trans ?_ safe
  have gathered := gatherFraction_le (digitsValue parts.whole) 0 parts.fraction
  rw [← digitsValue_append] at gathered
  generalize gatherFraction (digitsValue parts.whole) 0 parts.fraction = fraction at *
  have below : (fraction.1.toUInt64.toNat : ℚ) ≤ fraction.1 := by
    exact_mod_cast Nat.mod_le fraction.1 (2 ^ 64)
  calc (fraction.1.toUInt64.toNat : ℚ) * 10 ^ (fraction.2 + parts.exponent.getD 0)
      ≤ fraction.1 * 10 ^ fraction.2 * 10 ^ parts.exponent.getD 0 := by
        rw [zpow_add₀ (by norm_num), ← mul_assoc]
        gcongr
    _ ≤ digitsValue (parts.whole ++ parts.fraction) * 10 ^ (0 - parts.fraction.length : Int) *
          10 ^ parts.exponent.getD 0 := by
        gcongr
    _ = parts.magnitude := by
        rw [magnitude, mul_assoc, ← zpow_add₀ (by norm_num)]
        congr 2
        omega

end NumberParts

/-! ## Written digits -/

/-- The parts that digits are written as. -/
def writtenParts (style : Decimal.Style) (negative : Bool) (digits : Decimal.Digits) :
    NumberParts :=
  let chars := Nat.toDigits 10 digits.significand
  let order := digits.exponent + (chars.length : Int) - 1
  if digits.significand = 0 then ⟨negative, ['0'], ['0'], none⟩
  else if style.leastPositional ≤ order && order < style.firstScientific then
    if 0 ≤ digits.exponent then
      ⟨negative, chars ++ List.replicate digits.exponent.toNat '0', ['0'], none⟩
    else if 0 ≤ order then
      ⟨negative, chars.take (order.toNat + 1), chars.drop (order.toNat + 1), none⟩
    else ⟨negative, ['0'], List.replicate ((-order).toNat - 1) '0' ++ chars, none⟩
  else ⟨negative, chars.take 1, chars.drop 1, some order⟩

theorem fractionChars_of_ne_nil {digits : List Char} (some : digits ≠ []) :
    fractionChars digits = '.' :: digits := by
  cases digits with
  | nil => exact absurd rfl some
  | cons c digits => rfl

theorem toList_write (style : Decimal.Style) (negative : Bool) (digits : Decimal.Digits) :
    (style.write digits).toList = (writtenParts style negative digits).chars := by
  have text_eq : toString digits.significand =
      String.ofList (Nat.toDigits 10 digits.significand) := rfl
  have some : 0 < (Nat.toDigits 10 digits.significand).length := Nat.length_toDigits_pos
  simp only [Decimal.Style.write, writtenParts, text_eq, String.toList_ofList,
    String.length_ofList]
  generalize Nat.toDigits 10 digits.significand = chars at *
  obtain ⟨order, order_eq⟩ : ∃ order, digits.exponent + (chars.length : Int) - 1 = order :=
    ⟨_, rfl⟩
  rw [order_eq]
  split
  · rfl
  · split
    · split
      · simp [NumberParts.chars, NumberParts.unsigned, fractionChars, exponentChars]
      · split
        · have more : chars.drop (order.toNat + 1) ≠ [] := by
            rw [ne_eq, List.drop_eq_nil_iff]
            omega
          simp [NumberParts.chars, NumberParts.unsigned, fractionChars_of_ne_nil more, exponentChars]
        · have more : List.replicate ((-order).toNat - 1) '0' ++ chars ≠ [] :=
            List.append_ne_nil_of_right_ne_nil _ (List.ne_nil_of_length_pos some)
          simp [NumberParts.chars, NumberParts.unsigned, fractionChars_of_ne_nil more, exponentChars]
    · have power : (toString order.natAbs).toList = Nat.toDigits 10 order.natAbs :=
        Nat.toList_repr
      have sign : (if order < 0 then "-" else "+" : String).toList =
          [if order < 0 then '-' else '+'] := by
        split <;> rfl
      have fraction : (if (chars.drop 1).isEmpty = true then ""
          else "." ++ String.ofList (chars.drop 1)).toList = fractionChars (chars.drop 1) := by
        cases chars.drop 1 <;> simp [fractionChars]
      simp only [String.toList_append, String.toList_ofList, power, sign, fraction,
        NumberParts.chars, NumberParts.unsigned, exponentChars, List.append_assoc]
      rfl

theorem isDigit_of_mem_replicate {count : Nat} {c : Char}
    (member : c ∈ List.replicate count '0') : c.isDigit = true := by
  rw [List.eq_of_mem_replicate member]
  decide

theorem isWhole_zero : IsWhole ['0'] :=
  ⟨fun c member => @isDigit_of_mem_replicate 1 c member, .inl rfl⟩

/-- Digits of a positive number may stand before the point, as may those at their front. -/
theorem isWhole_of_prefix {n : Nat} (positive : n ≠ 0) {digits rest : List Char}
    (same : Nat.toDigits 10 n ++ rest = digits) (all : ∀ c ∈ rest, c.isDigit = true) {count : Nat}
    (some : 0 < count) : IsWhole (digits.take count) := by
  obtain ⟨c, tail, front, notZero⟩ := Text.exists_toDigits_eq_cons positive
  obtain ⟨count, rfl⟩ := Nat.exists_eq_add_one_of_ne_zero (Nat.ne_of_gt some)
  refine ⟨?_, .inr ⟨c, (tail ++ rest).take count, ?_, notZero⟩⟩
  · intro d member
    rw [← same] at member
    rcases List.mem_append.mp (List.mem_of_mem_take member) with first | last
    · exact Text.isDigit_of_mem_toDigits first
    · exact all d last
  · rw [← same, front]
    rfl

theorem legible_writtenParts (style : Decimal.Style) (negative : Bool) (digits : Decimal.Digits) :
    (writtenParts style negative digits).Legible := by
  have zeros : ∀ count, ∀ c ∈ List.replicate count '0', c.isDigit = true :=
    fun _ _ member => isDigit_of_mem_replicate member
  have none : ∀ c ∈ ([] : List Char), c.isDigit = true := fun _ member => nomatch member
  have all : ∀ c ∈ Nat.toDigits 10 digits.significand, c.isDigit = true :=
    fun _ member => Text.isDigit_of_mem_toDigits member
  unfold writtenParts
  simp only
  split
  · exact ⟨isWhole_zero, zeros 1⟩
  · next positive =>
      have length := Nat.length_toDigits_pos (b := 10) (n := digits.significand)
      split
      · split
        · refine ⟨?_, zeros 1⟩
          have whole := isWhole_of_prefix positive rfl (zeros digits.exponent.toNat)
            (Nat.lt_of_lt_of_le length (Nat.le_add_right _ digits.exponent.toNat))
          rw [List.take_of_length_le] at whole
          · exact whole
          · rw [List.length_append, List.length_replicate]
        · split
          · refine ⟨?_, fun c member => all c (List.mem_of_mem_drop member)⟩
            exact isWhole_of_prefix positive (List.append_nil _) none (Nat.succ_pos _)
          · refine ⟨isWhole_zero, fun c member => ?_⟩
            rcases List.mem_append.mp member with zero | digit
            · exact zeros _ c zero
            · exact all c digit
      · refine ⟨?_, fun c member => all c (List.mem_of_mem_drop member)⟩
        exact isWhole_of_prefix positive (List.append_nil _) none Nat.one_pos

/-- What is written is the number that the digits stand for. -/
theorem magnitude_writtenParts (style : Decimal.Style) (negative : Bool)
    (digits : Decimal.Digits) : (writtenParts style negative digits).magnitude = digits.value := by
  have value := digitsValue_toDigits digits.significand
  have length : 0 < (Nat.toDigits 10 digits.significand).length := Nat.length_toDigits_pos
  unfold writtenParts Decimal.Digits.value NumberParts.magnitude
  simp only
  obtain ⟨order, order_eq⟩ : ∃ order,
      digits.exponent + ((Nat.toDigits 10 digits.significand).length : Int) - 1 = order := ⟨_, rfl⟩
  rw [order_eq]
  split
  · next zero =>
      rw [zero]
      simp [digitsValue, digitValue]
  · split
    · split
      · next exponent =>
          obtain ⟨power, power_eq⟩ := Int.eq_ofNat_of_zero_le exponent
          have last : digitsValue ['0'] = 0 := rfl
          rw [digitsValue_append, digitsValue_append, value, digitsValue_replicate, last,
            power_eq, zpow_natCast]
          simp
      · split
        · have places : (none : Option Int).getD 0 -
              (((Nat.toDigits 10 digits.significand).drop (order.toNat + 1)).length : Int) =
                digits.exponent := by
            rw [Option.getD_none, List.length_drop]
            omega
          rw [List.take_append_drop, value, places]
        · have places : (none : Option Int).getD 0 -
              ((List.replicate ((-order).toNat - 1) '0' ++
                Nat.toDigits 10 digits.significand).length : Int) = digits.exponent := by
            rw [Option.getD_none, List.length_append, List.length_replicate]
            omega
          have zero : digitsValue ['0'] = 0 := rfl
          rw [digitsValue_append, digitsValue_append, zero, digitsValue_replicate, value, places,
            Nat.zero_mul, Nat.zero_mul, Nat.zero_add, Nat.zero_add]
    · have places : (some order).getD 0 -
          (((Nat.toDigits 10 digits.significand).drop 1).length : Int) = digits.exponent := by
        rw [Option.getD_some, List.length_drop]
        omega
      rw [List.take_append_drop, value, places]

theorem digitsValue_lt {digits : List Char} (all : ∀ c ∈ digits, c.isDigit = true) :
    digitsValue digits < 10 ^ digits.length := by
  induction digits with
  | nil => exact Nat.one_pos
  | cons c digits inductionHypothesis =>
      rw [List.forall_mem_cons] at all
      have digit : digitValue c ≤ 9 := by
        have most : c.toNat ≤ '9'.toNat := (Char.isDigit_iff_toNat.mp all.1).2
        unfold digitValue
        exact Nat.sub_le_sub_right most 48
      have rest := inductionHypothesis all.2
      rw [digitsValue_cons, List.length_cons, Nat.pow_succ]
      calc digitValue c * 10 ^ digits.length + digitsValue digits
          < 9 * 10 ^ digits.length + 10 ^ digits.length :=
            Nat.add_lt_add_of_le_of_lt (Nat.mul_le_mul_right _ digit) rest
        _ = 10 ^ digits.length * 10 := by ring

/-- No more than sixteen digits stand before the point. -/
theorem length_whole_writtenParts (negative : Bool) (digits : Decimal.Digits) :
    (writtenParts numberStyle negative digits).whole.length ≤ 16 := by
  have length : 0 < (Nat.toDigits 10 digits.significand).length := Nat.length_toDigits_pos
  unfold writtenParts numberStyle
  simp only
  split
  · exact (by decide : 1 ≤ 16)
  · split
    · next positional =>
        rw [Bool.and_eq_true, decide_eq_true_eq, decide_eq_true_eq] at positional
        split
        · rw [List.length_append, List.length_replicate]
          omega
        · split
          · rw [List.length_take]
            omega
          · exact (by decide : 1 ≤ 16)
    · rw [List.length_take]
      omega

theorem whole_writtenParts_lt (negative : Bool) (digits : Decimal.Digits) :
    digitsValue (writtenParts numberStyle negative digits).whole < significandLimit := by
  have legible := legible_writtenParts numberStyle negative digits
  calc digitsValue (writtenParts numberStyle negative digits).whole
      < 10 ^ (writtenParts numberStyle negative digits).whole.length :=
        digitsValue_lt legible.whole.all
    _ ≤ 10 ^ 16 := Nat.pow_le_pow_right (by decide) (length_whole_writtenParts negative digits)
    _ ≤ significandLimit := by decide

/-- The shortest digits of a finite double are in range when they are read. -/
theorem isSome_float?_writtenParts (negative : Bool) {mantissa : Nat} {exponent : Int}
    (room : mantissa < 2 ^ 53) (most : exponent ≤ 971) :
    (writtenParts numberStyle negative (Decimal.shortest mantissa exponent)).float?.isSome =
      true := by
  by_cases notLargest : mantissa < 2 ^ 53 - 8 ∨ exponent ≤ 970
  · apply NumberParts.isSome_float? (whole_writtenParts_lt negative _)
    rw [magnitude_writtenParts]
    exact Decimal.value_shortest_le room most notLargest
  · -- so close to the limit the roundings have to be looked at one by one
    rw [not_or, not_lt, not_le] at notLargest
    have all : ∀ count < 8, ∀ negative, (writtenParts numberStyle negative
        (Decimal.shortest (2 ^ 53 - 8 + count) 971)).float?.isSome = true := by
      decide +kernel
    have last := all (mantissa - (2 ^ 53 - 8)) (by omega) negative
    rw [Nat.add_sub_cancel' notLargest.1] at last
    have same : exponent = 971 := by omega
    rw [same]
    exact last

/-! ## Integers -/

def integerParts (value : Int) : NumberParts :=
  ⟨decide (value < 0), Nat.toDigits 10 value.natAbs, [], none⟩

theorem legible_integerParts (value : Int) : (integerParts value).Legible := by
  refine ⟨?_, fun _ member => nomatch member⟩
  by_cases zero : value = 0
  · rw [zero]
    exact isWhole_zero
  · refine ⟨fun _ member => Text.isDigit_of_mem_toDigits member, .inr ?_⟩
    exact Text.exists_toDigits_eq_cons (Int.natAbs_ne_zero.mpr zero)

theorem value?_integerParts {value : Int} (inRange : InRange value) :
    (integerParts value).value? = some (.integer value) := by
  obtain ⟨least, most⟩ := inRange
  have limit : significandLimit = 2 ^ 64 := rfl
  unfold NumberParts.value? integerParts
  simp only [digitsValue_toDigits, limit]
  by_cases negative : value < 0
  · have same : -(value.natAbs : Int) = value := by omega
    have fits : value.natAbs < 2 ^ 64 ∧ 0 < value.natAbs ∧ value.natAbs ≤ 2 ^ 64 / 2 := by omega
    simp only [negative, fits.1, fits.2.1, fits.2.2, decide_true, Option.isNone_none, Bool.and_self,
      Bool.not_true, Bool.or_true, if_true, same]
  · have same : (value.natAbs : Int) = value := by omega
    have fits : value.natAbs < 2 ^ 64 := by omega
    simp only [negative, fits, decide_true, decide_false, Option.isNone_none, Bool.and_self,
      Bool.not_false, Bool.true_or, Bool.false_eq_true, if_true, if_false, same]

theorem toList_toString_int (value : Int) :
    (toString value).toList = (integerParts value).signedChars := by
  cases value with
  | ofNat n =>
      have positive : ¬ Int.ofNat n < 0 := by
        rw [Int.ofNat_eq_natCast]
        omega
      rw [Text.toList_toString_ofNat, NumberParts.signedChars, integerParts, decide_eq_false positive]
      simp [NumberParts.signed, NumberParts.unsigned, fractionChars, exponentChars]
  | negSucc n =>
      rw [Text.toList_toString_negSucc, NumberParts.signedChars, integerParts, decide_eq_true (Int.negSucc_lt_zero n)]
      simp [NumberParts.signed, NumberParts.unsigned, fractionChars, exponentChars]

/-! ## Doubles -/

/-- The double that the written form of a double is read back as. -/
def rereadFloat (value : Float) : Float :=
  match ofText (floatText value) with
  | .ok (.float back) => back
  | _ => value

/-- The parts of a written double have a fraction or an exponent. -/
theorem value?_writtenParts (style : Decimal.Style) (negative : Bool) (digits : Decimal.Digits) :
    (writtenParts style negative digits).value? =
      (writtenParts style negative digits).float?.map .float := by
  have apart : (writtenParts style negative digits).fraction ≠ [] ∨
      (writtenParts style negative digits).exponent.isNone = false := by
    have length : 0 < (Nat.toDigits 10 digits.significand).length := Nat.length_toDigits_pos
    unfold writtenParts
    simp only
    split
    · exact .inl (List.cons_ne_nil _ _)
    · split
      · split
        · exact .inl (List.cons_ne_nil _ _)
        · split
          · refine .inl ?_
            rw [ne_eq, List.drop_eq_nil_iff]
            omega
          · exact .inl (List.append_ne_nil_of_right_ne_nil _ (List.ne_nil_of_length_pos length))
      · exact .inr rfl
  unfold NumberParts.value?
  rcases apart with fraction | exponent
  · simp only [fraction, decide_false, Bool.false_and, Bool.false_eq_true, if_false]
  · simp only [exponent, Bool.and_false, Bool.false_and, Bool.false_eq_true, if_false]

theorem toList_floatText {value : Float} {negative : Bool} {mantissa : Nat} {exponent : Int}
    (same : Decimal.Binary.ofFloat value = .finite negative mantissa exponent) :
    (floatText value).toList =
      (writtenParts numberStyle negative (Decimal.shortest mantissa exponent)).signedChars := by
  have sign : (writtenParts numberStyle negative (Decimal.shortest mantissa exponent)).negative =
      negative := by
    unfold writtenParts
    simp only
    repeat' split
    all_goals rfl
  rw [floatText, Decimal.Style.text?, same]
  simp only [Option.getD_some, String.toList_append]
  rw [toList_write numberStyle negative, NumberParts.signedChars, NumberParts.signed, sign]
  cases negative <;> rfl

theorem exists_floatText_eq {value : Float} (finite : value.isFinite = true) :
    ∃ parts : NumberParts, ∃ back, parts.Legible ∧ parts.value? = some (.float back) ∧
      (floatText value).toList = parts.signedChars := by
  obtain ⟨negative, mantissa, exponent, same, room, most⟩ :=
    Decimal.Binary.exists_ofFloat_eq finite
  obtain ⟨back, holds⟩ := Option.isSome_iff_exists.mp
    (isSome_float?_writtenParts negative room most)
  refine ⟨_, back, legible_writtenParts _ _ _, ?_, toList_floatText same⟩
  rw [value?_writtenParts, holds]
  rfl

end DiskWarden.Json
