import DiskWarden.Proofs.Text.Digits
import DiskWarden.Yaml.Meaning

/-!
# Numbers in plain scalars

The decimal digits of an integer, with a minus sign before those of a negative one, stand for the
integer where a plain scalar is read.
-/

namespace DiskWarden.Yaml

theorem isDigit_iff_hexValue? {c : Char} (digit : c.isDigit = true) :
    ∃ value, Text.hexValue? c = some value ∧ value < 10 := by
  refine ⟨_, Text.hexValue?_of_isDigit digit, ?_⟩
  rw [Char.isDigit, Bool.and_eq_true, decide_eq_true_eq, decide_eq_true_eq] at digit
  have upper : c.toNat ≤ '9'.toNat := digit.2
  have nine : '9'.toNat = '0'.toNat + 9 := rfl
  omega

theorem numberOf?_toDigits (n : Nat) : numberOf? 10 (Nat.toDigits 10 n) = some n := by
  have some' : Nat.toDigits 10 n ≠ [] := Nat.toDigits_ne_nil
  unfold numberOf?
  rw [if_pos, Text.digitsValue_toDigits]
  simp only [ne_eq, some', not_false_eq_true, decide_true, Bool.true_and, List.all_eq_true]
  intro c member
  obtain ⟨value, read, small⟩ := isDigit_iff_hexValue? (Text.isDigit_of_mem_toDigits member)
  simp only [read, small, decide_true]

theorem magnitude?_toDigits (n : Nat) : magnitude? (Nat.toDigits 10 n) = some n := by
  by_cases zero : n = 0
  · subst zero
    rfl
  · obtain ⟨c, rest, same, notZero⟩ := Text.exists_toDigits_eq_cons zero
    have number := numberOf?_toDigits n
    rw [same] at number ⊢
    unfold magnitude?
    split
    · next front => exact absurd (List.cons.inj front).1 notZero
    · exact number

theorem head_toDigits_ne {n : Nat} {c : Char} (noDigit : c.isDigit = false) (rest : List Char) :
    Nat.toDigits 10 n ≠ c :: rest := by
  intro same
  have digit : c.isDigit = true := Text.isDigit_of_mem_toDigits (same ▸ List.mem_cons_self)
  rw [digit] at noDigit
  cases noDigit

theorem natural?_toDigits (n : Nat) : natural? (Nat.toDigits 10 n) = some n := by
  unfold natural?
  split
  · next front => exact absurd front (head_toDigits_ne rfl _)
  · exact magnitude?_toDigits n

theorem integer?_toString {value : Int} (lower : -(signedLimit : Int) ≤ value)
    (upper : value < (unsignedLimit : Int)) :
    integer? (toString value).toList = some value := by
  cases value with
  | ofNat n =>
      have fits : n < unsignedLimit := Int.ofNat_lt.mp upper
      rw [Text.toList_toString_ofNat]
      unfold integer?
      split
      · next front => exact absurd front (head_toDigits_ne rfl _)
      · rw [natural?_toDigits, Option.bind_some, if_pos fits]
        rfl
  | negSucc n =>
      have fits : n + 1 ≤ signedLimit := by omega
      rw [Text.toList_toString_negSucc, integer?, magnitude?_toDigits, Option.bind_some,
        if_pos fits]
      rfl

/-- The words for what is no number. -/
def wordsOfMeaning : List String :=
  ["", "null", "Null", "NULL", "~", "true", "True", "TRUE", "false", "False", "FALSE"]

/-- What is written as an integer stands for it, as none of the words that come first is one. -/
theorem meaning_of_integer? {text : String} {value : Int}
    (read : integer? text.toList = some value) : meaning text = .integer value := by
  have noWord : ∀ word ∈ wordsOfMeaning, text ≠ word := by
    have all : ∀ word ∈ wordsOfMeaning, integer? word.toList = none := by decide
    rintro word member rfl
    rw [all _ member] at read
    cases read
  simp only [wordsOfMeaning, List.mem_cons, List.not_mem_nil, or_false, forall_eq_or_imp,
    forall_eq] at noWord
  simp [meaning, isNullWord, boolOf?, noWord, read]

end DiskWarden.Yaml
