import DiskWarden.Text.Digits
import Mathlib.Algebra.Group.Nat.Defs
import Mathlib.Data.List.Basic
import Mathlib.Tactic.Common

/-!
# Digits that are read back

The decimal digits of a number write that number, and so do as many hexadecimal digits of it as
it needs.
-/

namespace DiskWarden.Text

/-! ## Decimal digits -/

theorem hexValue?_of_isDigit {c : Char} (digit : c.isDigit = true) :
    hexValue? c = some (c.toNat - '0'.toNat) := by
  have range : '0' ≤ c ∧ c ≤ '9' := by
    rw [Char.isDigit, Bool.and_eq_true, decide_eq_true_eq, decide_eq_true_eq] at digit
    exact digit
  rw [hexValue?, if_pos range]
  rfl

theorem digitsValue_of_isDigit {digits : List Char} (all : ∀ c ∈ digits, c.isDigit = true) :
    digitsValue 10 digits = Nat.ofDigitChars 10 digits 0 := by
  rw [digitsValue, Nat.ofDigitChars_eq_foldl]
  refine List.foldl_ext _ _ _ fun value c member => ?_
  rw [hexValue?_of_isDigit (all c member), Option.getD_some, Nat.mul_comm value 10]

theorem isDigit_of_mem_toDigits {n : Nat} {c : Char} (member : c ∈ Nat.toDigits 10 n) :
    c.isDigit = true :=
  Nat.isDigit_of_mem_toDigits (by decide) (by decide) member

theorem digitsValue_toDigits (n : Nat) : digitsValue 10 (Nat.toDigits 10 n) = n := by
  rw [digitsValue_of_isDigit fun c => isDigit_of_mem_toDigits, Nat.ofDigitChars_ten_toDigits]

/-- The digits of a positive number do not start with a zero. -/
theorem exists_toDigits_eq_cons {n : Nat} (positive : n ≠ 0) :
    ∃ c rest, Nat.toDigits 10 n = c :: rest ∧ c ≠ '0' := by
  induction n using Nat.strongRecOn with
  | ind n inductionHypothesis =>
      by_cases small : n < 10
      · have notZero : ∀ n < 10, n ≠ 0 → Nat.digitChar n ≠ '0' := by decide
        exact ⟨_, [], Nat.toDigits_of_lt_base small, notZero n small positive⟩
      · obtain ⟨c, rest, same, notZero⟩ := inductionHypothesis (n / 10) (by omega) (by omega)
        refine ⟨c, rest ++ [Nat.digitChar (n % 10)], ?_, notZero⟩
        rw [Nat.toDigits_of_base_le (by decide) (by omega), same]
        rfl

theorem toList_toString_ofNat (n : Nat) : (toString (Int.ofNat n)).toList = Nat.toDigits 10 n :=
  Nat.toList_repr

theorem toList_toString_negSucc (n : Nat) :
    (toString (Int.negSucc n)).toList = '-' :: Nat.toDigits 10 (n + 1) := by
  have split : toString (Int.negSucc n) = "-" ++ (n + 1).repr := rfl
  rw [split, String.toList_append, Nat.toList_repr]
  rfl

/-! ## Hexadecimal digits -/

theorem hexValue?_upper {n : Nat} (small : n < 16) : hexValue? (hexDigit n).toUpper = some n := by
  have all : ∀ n < 16, hexValue? (hexDigit n).toUpper = some n := by decide
  exact all n small

theorem length_upperHex (count n : Nat) : (upperHex count n).length = count := by
  rw [upperHex, List.length_map]
  induction count generalizing n with
  | zero => rfl
  | succ count inductionHypothesis =>
      rw [lowerHex, List.length_append, inductionHypothesis, List.length_singleton]

theorem upperHex_succ (count n : Nat) :
    upperHex (count + 1) n = upperHex count (n / 16) ++ [(hexDigit (n % 16)).toUpper] := by
  rw [upperHex, lowerHex, List.map_append]
  rfl

/-- A number is read from its hexadecimal digits, if they are all of them. -/
theorem hexNumber?_upperHex {count n : Nat} (bound : n < 16 ^ count) :
    hexNumber? (upperHex count n) = some n := by
  have read : ∀ count n, (upperHex count n).all (fun c => (hexValue? c).isSome) = true ∧
      digitsValue 16 (upperHex count n) = n % 16 ^ count := by
    intro count
    induction count with
    | zero => exact fun n => ⟨rfl, (Nat.mod_one n).symm⟩
    | succ count inductionHypothesis =>
        intro n
        obtain ⟨legible, value⟩ := inductionHypothesis (n / 16)
        have last := hexValue?_upper (Nat.mod_lt n (by decide : 0 < 16))
        rw [upperHex_succ]
        refine ⟨?_, ?_⟩
        · rw [List.all_append, legible, List.all_cons, last]
          rfl
        · rw [digitsValue] at value ⊢
          rw [List.foldl_append, value, List.foldl_cons, List.foldl_nil, last, Option.getD_some,
            Nat.pow_succ', Nat.mod_mul]
          omega
  obtain ⟨legible, value⟩ := read count n
  rw [hexNumber?, if_pos legible, value, Nat.mod_eq_of_lt bound]

/-! ## Numbers of characters -/

theorem charOfNat?_toNat (c : Char) : charOfNat? c.toNat = some c := by
  have valid : c.toNat.isValidChar := c.valid
  rw [charOfNat?, dif_pos valid]
  rfl

end DiskWarden.Text
