import DiskWarden.Json.Reader
import DiskWarden.Proofs.Text.Digits
import Mathlib.Algebra.Order.Ring.Int
import Mathlib.Data.List.TakeWhile
import Mathlib.Tactic.Common

/-!
# Numbers as they are written

A number is written as its parts: digits, a point and digits, a power of ten.  A reader takes the
parts apart again, if what follows the number is no part of one.
-/

namespace DiskWarden.Json

/-! ## Digits -/

theorem digitsValue_eq (digits : List Char) :
    digitsValue digits = Nat.ofDigitChars 10 digits 0 := by
  have step : (fun (value : Nat) (c : Char) => value * 10 + digitValue c) =
      fun value c => 10 * value + (c.toNat - '0'.toNat) := by
    funext value c
    rw [Nat.mul_comm]
    rfl
  rw [digitsValue, step, Nat.ofDigitChars_eq_foldl]

theorem digitsValue_append (first last : List Char) :
    digitsValue (first ++ last) = digitsValue first * 10 ^ last.length + digitsValue last := by
  rw [digitsValue_eq, digitsValue_eq, digitsValue_eq, Nat.ofDigitChars_append,
    Nat.ofDigitChars_eq_ofDigitChars_zero, Nat.mul_comm]

theorem digitsValue_toDigits (n : Nat) : digitsValue (Nat.toDigits 10 n) = n := by
  rw [digitsValue_eq, Nat.ofDigitChars_ten_toDigits]

theorem digitsValue_replicate (count : Nat) : digitsValue (List.replicate count '0') = 0 := by
  rw [digitsValue_eq, Nat.ofDigitChars_replicate_zero, Nat.mul_zero]

/-! ## Reading parts -/

/-- No digit stands at the front. -/
def NoDigit (rest : List Char) : Prop := ∀ c ∈ rest.head?, c.isDigit = false

/-- Nothing at the front goes on with a number. -/
structure Stops (rest : List Char) : Prop where
  digit : NoDigit rest
  point : ∀ c ∈ rest.head?, c ≠ '.'
  power : ∀ c ∈ rest.head?, c ≠ 'e' ∧ c ≠ 'E'

theorem spanDigits_append {digits rest : List Char} (all : ∀ c ∈ digits, c.isDigit = true)
    (stops : NoDigit rest) : spanDigits (digits ++ rest) = (digits, rest) := by
  have none : rest.takeWhile Char.isDigit = [] ∧ rest.dropWhile Char.isDigit = rest := by
    cases rest with
    | nil => exact ⟨rfl, rfl⟩
    | cons c rest =>
        have noDigit : ¬ c.isDigit = true := by
          rw [stops c rfl]
          exact Bool.false_ne_true
        exact ⟨List.takeWhile_cons_of_neg noDigit, List.dropWhile_cons_of_neg noDigit⟩
  rw [spanDigits, List.takeWhile_append_of_pos all, List.dropWhile_append_of_pos all, none.1,
    none.2, List.append_nil]

theorem readSomeDigits_append {digits rest : List Char} (some : digits ≠ [])
    (all : ∀ c ∈ digits, c.isDigit = true) (stops : NoDigit rest) :
    readSomeDigits (digits ++ rest) = .ok (digits, rest) := by
  cases digits with
  | nil => exact absurd rfl some
  | cons c digits =>
      rw [List.forall_mem_cons] at all
      rw [List.cons_append, readSomeDigits, if_pos all.1, spanDigits_append all.2 stops]

/-- Digits as they may stand before the point: one zero, or none at the front. -/
structure IsWhole (digits : List Char) : Prop where
  all : ∀ c ∈ digits, c.isDigit = true
  front : digits = ['0'] ∨ ∃ c rest, digits = c :: rest ∧ c ≠ '0'

theorem readWhole_append {digits rest : List Char} (whole : IsWhole digits)
    (stops : NoDigit rest) : readWhole (digits ++ rest) = .ok (digits, rest) := by
  obtain ⟨all, rfl | ⟨c, digits, rfl, notZero⟩⟩ := whole
  · cases rest with
    | nil => rfl
    | cons c rest => simp [readWhole, stops c rfl]
  · rw [List.forall_mem_cons] at all
    simp [readWhole, notZero, all.1, spanDigits_append all.2 stops]

/-- The point and the digits after it, if there are any. -/
def fractionChars : List Char → List Char
  | [] => []
  | digits => '.' :: digits

theorem readFraction_append {digits rest : List Char} (all : ∀ c ∈ digits, c.isDigit = true)
    (stops : NoDigit rest) (noPoint : ∀ c ∈ rest.head?, c ≠ '.') :
    readFraction (fractionChars digits ++ rest) = .ok (digits, rest) := by
  cases digits with
  | nil =>
      rw [fractionChars, List.nil_append, readFraction]
      rintro rest rfl
      exact noPoint '.' rfl rfl
  | cons c digits =>
      exact readSomeDigits_append (List.cons_ne_nil c digits) all stops

/-- A power of ten with its sign, if there is one. -/
def exponentChars : Option Int → List Char
  | none => []
  | some power => 'e' :: (if power < 0 then '-' else '+') :: Nat.toDigits 10 power.natAbs

/-- The sign of a power, and whether it makes the power negative. -/
inductive SignForm : List Char → Bool → Prop
  | absent : SignForm [] false
  | plus : SignForm ['+'] false
  | minus : SignForm ['-'] true

/-- A text of a power of ten: none if there is no power, else a mark, a sign that may be left out
and digits. -/
inductive PowerForm : List Char → Option Int → Prop
  | absent : PowerForm [] none
  | present {mark : Char} {sign digits : List Char} {negative : Bool}
      (marks : mark = 'e' ∨ mark = 'E') (signed : SignForm sign negative) (nonempty : digits ≠ [])
      (all : ∀ c ∈ digits, c.isDigit = true) :
      PowerForm (mark :: (sign ++ digits))
        (some (if negative then -(digitsValue digits : Int) else digitsValue digits))

theorem powerForm_exponentChars (exponent : Option Int) :
    PowerForm (exponentChars exponent) exponent := by
  cases exponent with
  | none => exact .absent
  | some power =>
      have all : ∀ c ∈ Nat.toDigits 10 power.natAbs, c.isDigit = true :=
        fun _ member => Text.isDigit_of_mem_toDigits member
      by_cases negative : power < 0
      · have form := PowerForm.present (.inl rfl) .minus Nat.toDigits_ne_nil all
        have same : -(power.natAbs : Int) = power := by omega
        rw [digitsValue_toDigits, if_pos rfl, same] at form
        rw [exponentChars, if_pos negative]
        exact form
      · have form := PowerForm.present (.inl rfl) .plus Nat.toDigits_ne_nil all
        have same : (power.natAbs : Int) = power := by omega
        rw [digitsValue_toDigits, if_neg Bool.false_ne_true, same] at form
        rw [exponentChars, if_neg negative]
        exact form

/-- What a number goes on with behind its digits is no digit and no point. -/
theorem PowerForm.noDigit {power rest : List Char} {exponent : Option Int}
    (form : PowerForm power exponent) (stops : Stops rest) :
    NoDigit (power ++ rest) ∧ ∀ c ∈ (power ++ rest).head?, c ≠ '.' := by
  cases form with
  | absent => exact ⟨stops.digit, stops.point⟩
  | present marks =>
      constructor
      · intro c same
        obtain rfl := Option.some.inj same
        rcases marks with rfl | rfl <;> decide
      · intro c same
        obtain rfl := Option.some.inj same
        rcases marks with rfl | rfl <;> decide

theorem readPower_digits (negative : Bool) {digits rest : List Char} (some : digits ≠ [])
    (all : ∀ c ∈ digits, c.isDigit = true) (stops : NoDigit rest) :
    readPower negative (digits ++ rest) =
      .ok (if negative then -(digitsValue digits : Int) else digitsValue digits, rest) := by
  rw [readPower, readSomeDigits_append some all stops]

/-- Digits in front of a text are where it starts. -/
theorem isDigit_of_append_eq_cons {c : Char} {digits rest later : List Char}
    (nonempty : digits ≠ []) (all : ∀ d ∈ digits, d.isDigit = true)
    (same : digits ++ rest = c :: later) : c.isDigit = true := by
  cases digits with
  | nil => exact absurd rfl nonempty
  | cons d digits =>
      rw [← (List.cons.inj same).1]
      exact all d List.mem_cons_self

theorem readExponent_form {power rest : List Char} {exponent : Option Int}
    (form : PowerForm power exponent) (stops : Stops rest) :
    readExponent (power ++ rest) = .ok (exponent, rest) := by
  cases form with
  | absent =>
      rw [List.nil_append]
      cases rest with
      | nil => rfl
      | cons c rest =>
          obtain ⟨small, capital⟩ := stops.power c rfl
          simp [readExponent, small, capital]
  | @present mark sign digits negative marks signed nonempty all =>
      have read := readPower_digits negative nonempty all stops.digit
      have isMark : (mark = 'e' || mark = 'E') = true := by simpa using marks
      rw [List.cons_append, List.append_assoc]
      cases signed with
      | plus => simp only [List.cons_append, List.nil_append, readExponent, isMark, if_true, read]
      | minus => simp only [List.cons_append, List.nil_append, readExponent, isMark, if_true, read]
      | absent =>
          rw [List.nil_append, readExponent]
          · simp only [isMark, if_true, read]
          -- the first digit is not taken for a sign
          · intro later same
            exact absurd (isDigit_of_append_eq_cons nonempty all same) (by decide)
          · intro later same
            exact absurd (isDigit_of_append_eq_cons nonempty all same) (by decide)

/-! ## Reading numbers -/

namespace NumberParts

structure Legible (parts : NumberParts) : Prop where
  whole : IsWhole parts.whole
  fraction : ∀ c ∈ parts.fraction, c.isDigit = true

/-- How parts are written with a given text of the power, the sign aside. -/
def unsigned (parts : NumberParts) (power : List Char) : List Char :=
  parts.whole ++ fractionChars parts.fraction ++ power

/-- How parts are written with a given text of the power, a minus in front if they are
negative. -/
def signed (parts : NumberParts) (power : List Char) : List Char :=
  if parts.negative then '-' :: parts.unsigned power else parts.unsigned power

/-- How a writer puts parts, the sign aside. -/
def chars (parts : NumberParts) : List Char :=
  parts.unsigned (exponentChars parts.exponent)

/-- How a writer puts parts, a minus in front if they are negative. -/
def signedChars (parts : NumberParts) : List Char :=
  parts.signed (exponentChars parts.exponent)

variable {parts : NumberParts} {power rest : List Char}

theorem readParts_unsigned (legible : parts.Legible) (form : PowerForm power parts.exponent)
    (stops : Stops rest) :
    readParts parts.negative (parts.unsigned power ++ rest) = .ok (parts, rest) := by
  -- each part ends where the next one, or what follows the number, begins
  obtain ⟨noDigit, noPoint⟩ := form.noDigit stops
  have afterWhole : NoDigit (fractionChars parts.fraction ++ (power ++ rest)) := by
    cases parts.fraction with
    | nil => exact noDigit
    | cons c digits => exact fun c same => Option.some.inj same ▸ by decide
  simp only [readParts, unsigned, List.append_assoc]
  rw [readWhole_append legible.whole afterWhole]
  simp only [bind, Except.bind]
  rw [readFraction_append legible.fraction noDigit noPoint]
  simp only
  rw [readExponent_form form stops]
  rfl

theorem Legible.exists_unsigned_eq (legible : parts.Legible) (power : List Char) :
    ∃ c rest, parts.unsigned power = c :: rest ∧ c.isDigit = true := by
  obtain ⟨all, front⟩ := legible.whole
  have some : ∃ c rest, parts.whole = c :: rest := by
    rcases front with zero | ⟨c, rest, same, -⟩
    · exact ⟨'0', [], zero⟩
    · exact ⟨c, rest, same⟩
  obtain ⟨c, rest, same⟩ := some
  refine ⟨c, rest ++ fractionChars parts.fraction ++ power, ?_, ?_⟩
  · rw [unsigned, same]
    rfl
  · rw [same] at all
    exact all c List.mem_cons_self

/-- A written number starts like one. -/
theorem Legible.exists_signed_eq (legible : parts.Legible) (power : List Char) :
    ∃ c rest, parts.signed power = c :: rest ∧ (c = '-' ∨ c.isDigit = true) := by
  obtain ⟨c, rest, same, digit⟩ := legible.exists_unsigned_eq power
  unfold signed
  split
  · exact ⟨'-', parts.unsigned power, rfl, .inl rfl⟩
  · exact ⟨c, rest, same, .inr digit⟩

end NumberParts

/-- A reader takes a value from the front of an input, and leaves a rest of it. -/
def Reads {α : Type} (reader : Reader α) (input : List Char) (value : α) (rest : List Char) :
    Prop :=
  ∃ shorter, reader input = .ok (value, ⟨rest, shorter⟩)

section Numbers

variable {parts : NumberParts} {power rest : List Char} {value : Json}

theorem readUnsigned_unsigned (legible : parts.Legible) (form : PowerForm power parts.exponent)
    (holds : parts.value? = some value) (stops : Stops rest) :
    Reads (readUnsigned parts.negative) (parts.unsigned power ++ rest) value rest := by
  have read := NumberParts.readParts_unsigned legible form stops
  refine ⟨readParts_length read, ?_⟩
  unfold readUnsigned
  split
  · next failed =>
      rw [read] at failed
      cases failed
  · next found =>
      rw [read] at found
      cases found
      split
      · next other =>
          rw [holds] at other
          cases other
          rfl
      · next none =>
          rw [holds] at none
          cases none

theorem readNumber_signed (legible : parts.Legible) (form : PowerForm power parts.exponent)
    (holds : parts.value? = some value) (stops : Stops rest) :
    Reads readNumber (parts.signed power ++ rest) value rest := by
  have read := readUnsigned_unsigned legible form holds stops
  unfold NumberParts.signed
  cases negative : parts.negative with
  | true =>
      rw [negative] at read
      obtain ⟨shorter, read⟩ := read
      rw [if_pos rfl, List.cons_append]
      refine ⟨Nat.lt_succ_of_lt shorter, ?_⟩
      simp only [readNumber, if_true, read]
      rfl
  | false =>
      obtain ⟨c, tail, same, digit⟩ := legible.exists_unsigned_eq power
      have noMinus : c ≠ '-' := by
        rintro rfl
        exact absurd digit (by decide)
      rw [negative, same, List.cons_append] at read
      obtain ⟨shorter, read⟩ := read
      rw [if_neg Bool.false_ne_true, same, List.cons_append]
      refine ⟨shorter, ?_⟩
      simp only [readNumber, noMinus, if_false, read]

end Numbers

/-! ## The value of a number -/

/-- The range of integers: those of 64 bits, with a sign or without one. -/
def InRange (value : Int) : Prop := -(2 ^ 63) ≤ value ∧ value < 2 ^ 64

namespace NumberParts

/-- The integer that the digits before the point stand for. -/
def integer (parts : NumberParts) : Int :=
  if parts.negative then -(digitsValue parts.whole : Int) else digitsValue parts.whole

/-- Whether a number is an integer in range, written without a fraction and a power.  A zero
behind a minus is none. -/
structure IsInteger (parts : NumberParts) : Prop where
  fraction : parts.fraction = []
  exponent : parts.exponent = none
  nonzero : parts.negative = true → digitsValue parts.whole ≠ 0
  inRange : InRange parts.integer

/-- The values of numbers: integers in range are kept, and of others the double is taken, which
has to be finite. -/
inductive HasValue : NumberParts → Json → Prop
  | integer {parts : NumberParts} (plain : parts.IsInteger) :
      HasValue parts (.integer parts.integer)
  | float {parts : NumberParts} {value : Float} (other : ¬ parts.IsInteger)
      (finite : parts.float? = some value) : HasValue parts (.float value)

theorem isInteger_iff {parts : NumberParts} :
    parts.IsInteger ↔ (parts.fraction = [] && parts.exponent.isNone &&
      digitsValue parts.whole < significandLimit && (!parts.negative ||
        (0 < digitsValue parts.whole &&
          digitsValue parts.whole ≤ significandLimit / 2))) = true := by
  have limit : significandLimit = 2 ^ 64 := rfl
  obtain ⟨negative, whole, fraction, exponent⟩ := parts
  rw [limit]
  simp only [Bool.and_eq_true, Bool.or_eq_true, decide_eq_true_eq, Bool.not_eq_true',
    Option.isNone_iff_eq_none]
  cases negative with
  | true =>
      constructor
      · rintro ⟨noFraction, noPower, nonzero, least, most⟩
        simp only [integer, if_true] at least nonzero
        have positive := nonzero trivial
        refine ⟨⟨⟨noFraction, noPower⟩, ?_⟩, .inr ⟨?_, ?_⟩⟩ <;> omega
      · rintro ⟨⟨⟨noFraction, noPower⟩, fits⟩, impossible | ⟨positive, half⟩⟩
        · cases impossible
        · refine ⟨noFraction, noPower, fun _ => Nat.ne_of_gt positive, ?_⟩
          simp only [InRange, integer, if_true]
          omega
  | false =>
      constructor
      · rintro ⟨noFraction, noPower, -, -, most⟩
        simp only [integer, Bool.false_eq_true, if_false] at most
        refine ⟨⟨⟨noFraction, noPower⟩, ?_⟩, .inl rfl⟩
        omega
      · rintro ⟨⟨⟨noFraction, noPower⟩, fits⟩, -⟩
        refine ⟨noFraction, noPower, (nomatch ·), ?_⟩
        simp only [InRange, integer, Bool.false_eq_true, if_false]
        omega

theorem hasValue_iff {parts : NumberParts} {value : Json} :
    parts.HasValue value ↔ parts.value? = some value := by
  by_cases plain : parts.IsInteger
  · have kept : parts.value? = some (.integer parts.integer) := if_pos (isInteger_iff.mp plain)
    rw [kept]
    constructor
    · rintro (_ | other)
      · rfl
      · exact absurd plain other
    · intro same
      cases same
      exact .integer plain
  · have rounded : parts.value? = parts.float?.map .float :=
      if_neg fun holds => plain (isInteger_iff.mpr holds)
    rw [rounded, Option.map_eq_some_iff]
    constructor
    · rintro (integer | ⟨other, finite⟩)
      · exact absurd integer plain
      · exact ⟨_, finite, rfl⟩
    · rintro ⟨value, finite, rfl⟩
      exact .float plain finite

end NumberParts

end DiskWarden.Json
