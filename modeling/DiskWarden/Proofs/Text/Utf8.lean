import DiskWarden.Text.Utf8
import Mathlib.Tactic.Common

/-!
# Characters in UTF-8

Encoding a character and reading it back gives the character, whatever follows it, so that a text
is decoded from its encoding.  The octets of a character that is no control character are no
control characters either.
-/

namespace DiskWarden.Text

variable {a b c d : Nat}

theorem toNat_ofNat_octet {n : Nat} (small : n < 256) : (UInt8.ofNat n).toNat = n :=
  UInt8.toNat_ofNat_of_lt small

theorem continuation?_ofNat (small : a < 64) : continuation? (UInt8.ofNat (a + 128)) = some a := by
  have value := toNat_ofNat_octet (by omega : a + 128 < 256)
  have range : (0x80 : UInt8) ≤ UInt8.ofNat (a + 128) ∧ UInt8.ofNat (a + 128) ≤ (0xBF : UInt8) := by
    simp only [UInt8.le_iff_toNat_le, value, UInt8.reduceToNat]
    omega
  simp only [continuation?, range, decide_true, Bool.and_self, if_true, value,
    Nat.add_sub_cancel]

/-- A second octet is not below its range, which may start higher behind one first octet. -/
theorem ite_le_ofNat {first mark least : UInt8} (small : b < 64)
    (marked : first.toNat = mark.toNat → least.toNat ≤ b + 128) :
    (if first = mark then least else 0x80) ≤ UInt8.ofNat (b + 128) := by
  have value := toNat_ofNat_octet (by omega : b + 128 < 256)
  rw [UInt8.le_iff_toNat_le, value]
  split
  · next same => exact marked (congrArg UInt8.toNat same)
  · exact Nat.le_add_left _ _

/-- A second octet is not above its range, which may end lower behind one first octet. -/
theorem ofNat_le_ite {first mark most : UInt8} (small : b < 64)
    (marked : first.toNat = mark.toNat → b + 128 ≤ most.toNat) :
    UInt8.ofNat (b + 128) ≤ (if first = mark then most else 0xBF) := by
  have value := toNat_ofNat_octet (by omega : b + 128 < 256)
  rw [UInt8.le_iff_toNat_le, value]
  split
  · next same => exact marked (congrArg UInt8.toNat same)
  · simp only [UInt8.reduceToNat]
    omega

theorem utf8Head_one (small : a < 0x80) (rest : Octets) :
    utf8Head (UInt8.ofNat a) rest = .character (Char.ofNat a) 1 := by
  have value := toNat_ofNat_octet (by omega : a < 256)
  have front : UInt8.ofNat a < 0x80 := by
    simpa only [UInt8.lt_iff_toNat_lt, value, UInt8.reduceToNat] using small
  unfold utf8Head
  rw [if_pos front, value]

theorem utf8Head_two (least : 2 ≤ a) (small : a < 32) (continued : b < 64) (rest : Octets) :
    utf8Head (UInt8.ofNat (a + 192)) (UInt8.ofNat (b + 128) :: rest) =
      .character (Char.ofNat (a * 64 + b)) 2 := by
  have value := toNat_ofNat_octet (by omega : a + 192 < 256)
  have front : ¬ UInt8.ofNat (a + 192) < 0x80 ∧ ¬ UInt8.ofNat (a + 192) < 0xC2 ∧
      UInt8.ofNat (a + 192) < 0xE0 := by
    simp only [UInt8.lt_iff_toNat_lt, value, UInt8.reduceToNat]
    omega
  rw [utf8Head, if_neg front.1, if_neg front.2.1, if_pos front.2.2, value]
  simp only [continuation?_ofNat continued, Nat.add_sub_cancel]

theorem utf8Head_three (small : a < 16) (second : b < 64) (third : c < 64)
    (long : a = 0 → 32 ≤ b) (noSurrogate : a = 13 → b < 32) (rest : Octets) :
    utf8Head (UInt8.ofNat (a + 224)) (UInt8.ofNat (b + 128) :: UInt8.ofNat (c + 128) :: rest) =
      .character (Char.ofNat (a * 4096 + b * 64 + c)) 3 := by
  have value := toNat_ofNat_octet (by omega : a + 224 < 256)
  have next := toNat_ofNat_octet (by omega : b + 128 < 256)
  have front : ¬ UInt8.ofNat (a + 224) < 0x80 ∧ ¬ UInt8.ofNat (a + 224) < 0xC2 ∧
      ¬ UInt8.ofNat (a + 224) < 0xE0 ∧ UInt8.ofNat (a + 224) < 0xF0 := by
    simp only [UInt8.lt_iff_toNat_lt, value, UInt8.reduceToNat]
    omega
  have low : (if UInt8.ofNat (a + 224) = 0xE0 then 0xA0 else 0x80) ≤ UInt8.ofNat (b + 128) := by
    apply ite_le_ofNat second
    simp only [value, UInt8.reduceToNat]
    omega
  have high : UInt8.ofNat (b + 128) ≤ (if UInt8.ofNat (a + 224) = 0xED then 0x9F else 0xBF) := by
    apply ofNat_le_ite second
    simp only [value, UInt8.reduceToNat]
    omega
  rw [utf8Head, if_neg front.1, if_neg front.2.1, if_neg front.2.2.1, if_pos front.2.2.2, value]
  simp only [low, high, next, continuation?_ofNat third, decide_true, Bool.and_self, if_true,
    List.head?_cons, Option.bind_some, Nat.add_sub_cancel]

theorem utf8Head_four (small : a < 5) (second : b < 64) (third : c < 64) (fourth : d < 64)
    (long : a = 0 → 16 ≤ b) (inRange : a = 4 → b < 16) (rest : Octets) :
    utf8Head (UInt8.ofNat (a + 240))
        (UInt8.ofNat (b + 128) :: UInt8.ofNat (c + 128) :: UInt8.ofNat (d + 128) :: rest) =
      .character (Char.ofNat (a * 262144 + b * 4096 + c * 64 + d)) 4 := by
  have value := toNat_ofNat_octet (by omega : a + 240 < 256)
  have next := toNat_ofNat_octet (by omega : b + 128 < 256)
  have front : ¬ UInt8.ofNat (a + 240) < 0x80 ∧ ¬ UInt8.ofNat (a + 240) < 0xC2 ∧
      ¬ UInt8.ofNat (a + 240) < 0xE0 ∧ ¬ UInt8.ofNat (a + 240) < 0xF0 ∧
      UInt8.ofNat (a + 240) < 0xF5 := by
    simp only [UInt8.lt_iff_toNat_lt, value, UInt8.reduceToNat]
    omega
  have low : (if UInt8.ofNat (a + 240) = 0xF0 then 0x90 else 0x80) ≤ UInt8.ofNat (b + 128) := by
    apply ite_le_ofNat second
    simp only [value, UInt8.reduceToNat]
    omega
  have high : UInt8.ofNat (b + 128) ≤ (if UInt8.ofNat (a + 240) = 0xF4 then 0x8F else 0xBF) := by
    apply ofNat_le_ite second
    simp only [value, UInt8.reduceToNat]
    omega
  rw [utf8Head, if_neg front.1, if_neg front.2.1, if_neg front.2.2.1, if_neg front.2.2.2.1,
    if_pos front.2.2.2.2, value]
  simp only [low, high, next, continuation?_ofNat third, continuation?_ofNat fourth, decide_true,
    Bool.and_self, if_true, List.head?_cons, List.tail_cons, Option.bind_some,
    Nat.add_sub_cancel]

theorem exists_utf8EncodeChar_eq (c : Char) :
    ∃ first tail, String.utf8EncodeChar c = first :: tail ∧
      ∀ rest, utf8Head first (tail ++ rest) = .character c (tail.length + 1) := by
  have same : c.val.toNat = c.toNat := rfl
  unfold String.utf8EncodeChar
  simp only [same]
  split
  · next one =>
      refine ⟨_, _, rfl, fun rest => ?_⟩
      rw [List.nil_append, utf8Head_one (by omega), Char.ofNat_toNat]
      rfl
  split
  · next two =>
      refine ⟨_, _, rfl, fun rest => ?_⟩
      have whole : c.toNat / 64 % 32 * 64 + c.toNat % 64 = c.toNat := by omega
      rw [List.singleton_append, utf8Head_two (by omega) (by omega) (by omega), whole,
        Char.ofNat_toNat]
      rfl
  split
  · next three =>
      refine ⟨_, _, rfl, fun rest => ?_⟩
      have whole : c.toNat / 4096 % 16 * 4096 + c.toNat / 64 % 64 * 64 + c.toNat % 64 =
          c.toNat := by omega
      have valid : c.toNat < 0xD800 ∨ 0xDFFF < c.toNat ∧ c.toNat < 0x110000 := c.valid
      change utf8Head _ (_ :: _ :: rest) = _
      rw [utf8Head_three (by omega) (by omega) (by omega) (by omega) (by omega), whole,
        Char.ofNat_toNat]
      rfl
  · next four =>
      refine ⟨_, _, rfl, fun rest => ?_⟩
      have valid : c.toNat < 0xD800 ∨ 0xDFFF < c.toNat ∧ c.toNat < 0x110000 := c.valid
      have whole : c.toNat / 262144 % 8 * 262144 + c.toNat / 4096 % 64 * 4096 +
          c.toNat / 64 % 64 * 64 + c.toNat % 64 = c.toNat := by omega
      change utf8Head _ (_ :: _ :: _ :: rest) = _
      rw [utf8Head_four (by omega) (by omega) (by omega) (by omega) (by omega) (by omega), whole,
        Char.ofNat_toNat]
      rfl

theorem decodeChars?_utf8EncodeChar (c : Char) (rest : Octets) :
    decodeChars? (String.utf8EncodeChar c ++ rest) = (decodeChars? rest).map (c :: ·) := by
  obtain ⟨first, tail, same, head⟩ := exists_utf8EncodeChar_eq c
  rw [same, List.cons_append, decodeChars?, head]
  simp

theorem decodeChars?_flatMap (chars : List Char) :
    decodeChars? (chars.flatMap String.utf8EncodeChar) = some chars := by
  induction chars with
  | nil => rw [List.flatMap_nil, decodeChars?]
  | cons c chars inductionHypothesis =>
      rw [List.flatMap_cons, decodeChars?_utf8EncodeChar, inductionHypothesis, Option.map_some]

theorem decode?_encode (text : String) : decode? (encode text) = some text := by
  rw [decode?, encode, decodeChars?_flatMap, Option.map_some, String.ofList_toList]

/-! ## Octets of a character -/

/-- A character below 128 is its own octet, and those of any other are at least 128. -/
theorem utf8EncodeChar_eq_or_le (c : Char) :
    (c.toNat < 128 ∧ String.utf8EncodeChar c = [UInt8.ofNat c.toNat]) ∨
      ∀ octet ∈ String.utf8EncodeChar c, 128 ≤ octet.toNat := by
  have same : c.val.toNat = c.toNat := rfl
  unfold String.utf8EncodeChar
  simp only [same]
  by_cases ascii : c.toNat ≤ 127
  · exact .inl ⟨by omega, if_pos ascii⟩
  refine .inr fun octet member => ?_
  have high : ∀ {n : Nat}, 128 ≤ n → n < 256 → octet = UInt8.ofNat n → 128 ≤ octet.toNat := by
    rintro n least small rfl
    rw [toNat_ofNat_octet small]
    exact least
  rw [if_neg ascii] at member
  split at member
  · simp only [List.mem_cons, List.not_mem_nil, or_false] at member
    rcases member with first | second
    · exact high (by omega) (by omega) first
    · exact high (by omega) (by omega) second
  split at member
  · simp only [List.mem_cons, List.not_mem_nil, or_false] at member
    rcases member with first | second | third
    · exact high (by omega) (by omega) first
    · exact high (by omega) (by omega) second
    · exact high (by omega) (by omega) third
  · simp only [List.mem_cons, List.not_mem_nil, or_false] at member
    rcases member with first | second | third | fourth
    · exact high (by omega) (by omega) first
    · exact high (by omega) (by omega) second
    · exact high (by omega) (by omega) third
    · exact high (by omega) (by omega) fourth

/-- The octets of a character that is no control character are none either. -/
theorem le_of_mem_utf8EncodeChar {c : Char} (printed : 32 ≤ c.toNat) {octet : UInt8}
    (member : octet ∈ String.utf8EncodeChar c) : 32 ≤ octet.toNat := by
  cases utf8EncodeChar_eq_or_le c with
  | inl one =>
      rw [one.2, List.mem_singleton] at member
      rw [member, toNat_ofNat_octet (Nat.lt_trans one.1 (by decide))]
      exact printed
  | inr high => exact Nat.le_trans (by decide) (high octet member)

/-- An octet below 128 is a whole character. -/
theorem utf8EncodeChar_of_mem {c : Char} {octet : UInt8} (ascii : octet.toNat < 128)
    (member : octet ∈ String.utf8EncodeChar c) : String.utf8EncodeChar c = [octet] := by
  cases utf8EncodeChar_eq_or_le c with
  | inl one =>
      rw [one.2, List.mem_singleton] at member
      rw [one.2, member]
  | inr high => exact absurd ascii (Nat.not_lt.mpr (high octet member))

end DiskWarden.Text
