import DiskWarden.Proofs.Json.Parts

/-!
# Quoted texts

A character stands for itself between quotes, or is written behind a backslash.  Whatever the
characters of a text are written as, reading up to the closing quote gives them back, and what
quoting writes is such a form.  No control character is left in a quoted text.
-/

namespace DiskWarden.Json

/-! ## Forms -/

/-- The letters that may follow a backslash, and the characters they stand for. -/
def escapes : List (Char × Char) :=
  [('"', '"'), ('\\', '\\'), ('/', '/'), ('b', '\x08'), ('f', '\x0c'), ('n', '\n'), ('r', '\r'),
    ('t', '\t')]

/-- Four hexadecimal digits that write a number. -/
structure UnitForm (digits : List Char) (unit : Nat) : Prop where
  length : digits.length = 4
  value : Text.hexNumber? digits = some unit

/-- What a character may be written as between quotes: itself, a letter behind a backslash, its
number, or the numbers of the two halves of a surrogate pair.  Half of a pair alone is no
character. -/
inductive CharForm : List Char → Char → Prop
  | plain {c : Char} (noQuote : c ≠ '"') (noEscape : c ≠ '\\') (printed : 32 ≤ c.toNat) :
      CharForm [c] c
  | escape {letter c : Char} (listed : (letter, c) ∈ escapes) : CharForm ['\\', letter] c
  | unit {digits : List Char} {c : Char} (unit : UnitForm digits c.toNat) :
      CharForm ('\\' :: 'u' :: digits) c
  | pair {first second : List Char} {high low : Nat} {c : Char} (front : UnitForm first high)
      (back : UnitForm second low) (isHigh : 0xD800 ≤ high ∧ high ≤ 0xDBFF)
      (isLow : 0xDC00 ≤ low ∧ low ≤ 0xDFFF)
      (same : c.toNat = 0x10000 + (high - 0xD800) * 0x400 + (low - 0xDC00)) :
      CharForm ('\\' :: 'u' :: (first ++ '\\' :: 'u' :: second)) c

/-- What characters may be written as between quotes. -/
inductive TextForm : List Char → List Char → Prop
  | nil : TextForm [] []
  | cons {c : Char} {front written chars : List Char} (first : CharForm front c)
      (rest : TextForm written chars) : TextForm (front ++ written) (c :: chars)

/-! ## Reading -/

theorem readHex_unit {digits : List Char} {unit : Nat} (form : UnitForm digits unit)
    (rest : List Char) : readHex (digits ++ rest) = .ok (unit, rest) := by
  obtain ⟨length, value⟩ := form
  match digits, length with
  | [a, b, c, d], _ =>
      unfold Text.hexNumber? at value
      split at value
      · next all =>
          simp only [List.all_cons, List.all_nil, Bool.and_eq_true, Option.isSome_iff_exists]
            at all
          obtain ⟨⟨p, first⟩, ⟨q, second⟩, ⟨r, third⟩, ⟨s, fourth⟩, -⟩ := all
          simp only [Text.digitsValue, List.foldl_cons, List.foldl_nil, first, second, third, fourth,
            Option.getD_some, Option.some.injEq] at value
          have same : p * 4096 + q * 256 + r * 16 + s = unit := by omega
          simp only [List.cons_append, List.nil_append, readHex, first, second, third, fourth, same]
      · cases value

/-- The number of a character is that of no half of a surrogate pair. -/
theorem toNat_lt_or_lt (c : Char) : c.toNat < 0xD800 ∨ 0xDFFF < c.toNat := by
  rcases c.valid with small | large
  · exact .inl small
  · exact .inr large.1

theorem readEscape_unit {digits : List Char} {c : Char} (form : UnitForm digits c.toNat)
    (rest : List Char) : readEscape ('u' :: (digits ++ rest)) = .ok (c, rest) := by
  have noLow : (decide (0xDC00 ≤ c.toNat) && decide (c.toNat ≤ 0xDFFF)) = false := by
    have := toNat_lt_or_lt c
    simp only [Bool.and_eq_false_iff, decide_eq_false_iff_not]
    omega
  have noHigh : (decide (0xD800 ≤ c.toNat) && decide (c.toNat ≤ 0xDBFF)) = false := by
    have := toNat_lt_or_lt c
    simp only [Bool.and_eq_false_iff, decide_eq_false_iff_not]
    omega
  rw [readEscape, if_pos rfl, readUnicode, readHex_unit form]
  simp only [bind, Except.bind, noLow, noHigh, Bool.false_eq_true, if_false, Char.ofNat_toNat]
  rfl

theorem readEscape_pair {first second : List Char} {high low : Nat} {c : Char}
    (front : UnitForm first high) (back : UnitForm second low)
    (isHigh : 0xD800 ≤ high ∧ high ≤ 0xDBFF) (isLow : 0xDC00 ≤ low ∧ low ≤ 0xDFFF)
    (same : c.toNat = 0x10000 + (high - 0xD800) * 0x400 + (low - 0xDC00)) (rest : List Char) :
    readEscape ('u' :: (first ++ '\\' :: 'u' :: (second ++ rest))) = .ok (c, rest) := by
  have noLow : (decide (0xDC00 ≤ high) && decide (high ≤ 0xDFFF)) = false := by
    simp only [Bool.and_eq_false_iff, decide_eq_false_iff_not]
    omega
  have value : (high - 0xD800) * 0x400 + (low - 0xDC00) + 0x10000 = c.toNat := by omega
  rw [readEscape, if_pos rfl, readUnicode, readHex_unit front]
  simp only [bind, Except.bind, noLow, isHigh, decide_true, Bool.and_self, Bool.false_eq_true,
    if_false, if_true]
  rw [readLowSurrogate, readHex_unit back]
  simp only [bind, Except.bind, isLow, decide_true, Bool.and_self, if_true, value,
    Char.ofNat_toNat]
  rfl

theorem readEscape_letter {letter c : Char} (listed : (letter, c) ∈ escapes) (rest : List Char) :
    readEscape (letter :: rest) = .ok (c, rest) := by
  have all : ∀ entry ∈ escapes, entry.1 ≠ 'u' ∧ escaped? entry.1 = some entry.2 := by decide
  obtain ⟨noUnit, meant⟩ := all (letter, c) listed
  simp only [readEscape, noUnit, if_false, meant]

theorem readChars_escape {input later chars rest : List Char} {c : Char}
    (escape : readEscape input = .ok (c, later)) (reads : Reads readChars later chars rest) :
    Reads readChars ('\\' :: input) (c :: chars) rest := by
  obtain ⟨shorter, read⟩ := reads
  have bound := readEscape_length escape
  refine ⟨by simp only [List.length_cons]; omega, ?_⟩
  rw [readChars]
  split
  · next failed =>
      rw [escape] at failed
      cases failed
  · next found =>
      rw [escape] at found
      cases found
      simp only [read]
      rfl

theorem readChars_plain {input chars rest : List Char} {c : Char} (noQuote : c ≠ '"')
    (noEscape : c ≠ '\\') (printed : 32 ≤ c.toNat) (reads : Reads readChars input chars rest) :
    Reads readChars (c :: input) (c :: chars) rest := by
  obtain ⟨shorter, read⟩ := reads
  refine ⟨Nat.lt_succ_of_lt shorter, ?_⟩
  rw [readChars]
  · simp only [Nat.not_lt.mpr printed, if_false, read]
    rfl
  · exact noQuote
  · exact noEscape

theorem readChars_charForm {front input chars rest : List Char} {c : Char}
    (form : CharForm front c) (reads : Reads readChars input chars rest) :
    Reads readChars (front ++ input) (c :: chars) rest := by
  cases form with
  | plain noQuote noEscape printed => exact readChars_plain noQuote noEscape printed reads
  | escape listed => exact readChars_escape (readEscape_letter listed input) reads
  | unit form => exact readChars_escape (readEscape_unit form input) reads
  | pair first second isHigh isLow same =>
      have escape := readEscape_pair first second isHigh isLow same input
      simp only [List.cons_append, List.append_assoc]
      exact readChars_escape escape reads

/-- The characters of a text are read back up to the quote that closes it. -/
theorem readChars_textForm {written chars : List Char} (form : TextForm written chars)
    (rest : List Char) : Reads readChars (written ++ '"' :: rest) chars rest := by
  induction form with
  | nil =>
      change Reads readChars ('"' :: rest) [] rest
      refine ⟨Nat.lt_succ_self _, ?_⟩
      rw [readChars]
  | cons first _ inductionHypothesis =>
      rw [List.append_assoc]
      exact readChars_charForm first inductionHypothesis

/-! ## Writing -/

theorem unitForm_control {n : Nat} (control : n < 32) :
    UnitForm ['0', '0', Text.hexDigit (n / 16), Text.hexDigit (n % 16)] n := by
  have all : ∀ n < 32, Text.hexNumber? ['0', '0', Text.hexDigit (n / 16), Text.hexDigit (n % 16)] =
      some n := by decide
  exact ⟨rfl, all n control⟩

theorem charForm_escapeChar (c : Char) : CharForm (escapeChar c) c := by
  unfold escapeChar
  -- seven characters have a letter of their own
  iterate 7
    split
    · next same =>
        subst same
        exact .escape (by decide)
  split
  · next control => exact .unit (unitForm_control control)
  · next noQuote noEscape _ _ _ _ _ printed =>
      exact .plain noQuote noEscape (Nat.le_of_not_lt printed)

theorem textForm_flatMap (chars : List Char) : TextForm (chars.flatMap escapeChar) chars := by
  induction chars with
  | nil => exact .nil
  | cons c chars inductionHypothesis =>
      rw [List.flatMap_cons]
      exact .cons (charForm_escapeChar c) inductionHypothesis

theorem toList_quote (value : String) (rest : List Char) :
    (quote value).toList ++ rest = '"' :: (value.toList.flatMap escapeChar ++ '"' :: rest) := by
  simp [quote]

/-! ## What is left of control characters -/

theorem le_toNat_hexDigit {n : Nat} (small : n < 16) : 32 ≤ (Text.hexDigit n).toNat := by
  have all : ∀ n < 16, 32 ≤ (Text.hexDigit n).toNat := by decide
  exact all n small

theorem le_toNat_of_mem_escapeChar (c : Char) : ∀ d ∈ escapeChar c, 32 ≤ d.toNat := by
  unfold escapeChar
  split
  · simp
  split
  · simp
  split
  · simp
  split
  · simp
  split
  · simp
  split
  · simp
  split
  · simp
  split
  · next control =>
      intro d member
      simp only [List.mem_cons, List.not_mem_nil, or_false] at member
      rcases member with rfl | rfl | rfl | rfl | rfl | rfl
      · decide
      · decide
      · decide
      · decide
      · exact le_toNat_hexDigit (by omega)
      · exact le_toNat_hexDigit (by omega)
  · next printed =>
      intro d member
      rw [List.mem_singleton.mp member]
      exact Nat.le_of_not_lt printed

end DiskWarden.Json
