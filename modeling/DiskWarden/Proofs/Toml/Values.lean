import DiskWarden.Proofs.Toml.Quotes
import DiskWarden.Toml.Printer
import DiskWarden.Toml.Reader

/-!
# Values that are read back

Texts, integers in range, truth values, and arrays of these are read back as they are written:
on one line, or an array with one item to a line.  An integer is not mistaken for the start of a
date, a time or a number with a fraction, as what follows it goes on with none of them.
-/

namespace DiskWarden.Toml

/-- What may follow a value. -/
def EndsValue (rest : List Char) : Prop := ∀ c ∈ rest.head?, c ∈ ['\n', ',', ']']

theorem endsValue_cons {c : Char} (listed : c ∈ ['\n', ',', ']']) (rest : List Char) :
    EndsValue (c :: rest) := by
  intro first same
  cases same
  exact listed

theorem EndsValue.ne_of_head? {rest : List Char} (ends : EndsValue rest) {c : Char}
    (other : c ∉ ['\n', ',', ']']) : rest.head? ≠ some c :=
  fun same => other (ends c same)

theorem EndsValue.noDigit {rest : List Char} (ends : EndsValue rest) :
    ∀ c ∈ rest.head?, c.isDigit = false := by
  have all : ∀ c ∈ ['\n', ',', ']'], c.isDigit = false := by simp
  exact fun c member => all c (ends c member)

/-! ## Integers -/

section Digits

variable {digits rest : List Char}

theorem ne_of_isDigit {c : Char} (digit : c.isDigit = true) {other : Char}
    (noDigit : other.isDigit = false) : c ≠ other := by
  rintro rfl
  rw [digit] at noDigit
  cases noDigit

theorem readMoreDigits_append (all : ∀ c ∈ digits, c.isDigit = true) (ends : EndsValue rest) :
    readMoreDigits Char.isDigit (digits ++ rest) = some (digits, rest) := by
  induction digits with
  | nil =>
      cases rest with
      | nil => rfl
      | cons c rest =>
          have noDigit := ends.noDigit c rfl
          have noScore : c ≠ '_' := fun same =>
            ends.ne_of_head? (by decide : '_' ∉ ['\n', ',', ']']) (by rw [same]; rfl)
          rw [List.nil_append, readMoreDigits]
          · rw [if_neg (by rw [noDigit]; exact Bool.false_ne_true), if_neg noScore]
          · exact fun _ _ same _ => noScore same
  | cons c digits inductionHypothesis =>
      obtain ⟨digit, later⟩ := List.forall_mem_cons.mp all
      rw [List.cons_append, readMoreDigits]
      · rw [if_pos digit, inductionHypothesis later, Option.map_some]
      · exact fun _ _ same _ => ne_of_isDigit digit rfl same

theorem readWhole_toDigits (n : Nat) (ends : EndsValue rest) :
    readWhole (Nat.toDigits 10 n ++ rest) = some (Nat.toDigits 10 n, rest) := by
  by_cases zero : n = 0
  · subst zero
    rfl
  · obtain ⟨c, digits, same, notZero⟩ := Text.exists_toDigits_eq_cons zero
    have all : ∀ digit ∈ c :: digits, digit.isDigit = true := by
      intro digit member
      rw [← same] at member
      exact Text.isDigit_of_mem_toDigits member
    obtain ⟨digit, later⟩ := List.forall_mem_cons.mp all
    rw [same, List.cons_append, readWhole]
    · rw [readDigits, if_pos digit, readMoreDigits_append later ends, Option.map_some]
    · exact fun _ same => notZero (List.cons.inj same).1

/-- Behind so many digits there is a further one, or the end of the number. -/
theorem head?_drop_digits (all : ∀ c ∈ digits, c.isDigit = true) (ends : EndsValue rest)
    {count : Nat} (long : ¬ ((digits ++ rest).take count).length < count)
    (front : ∀ c ∈ (digits ++ rest).take count, c.isDigit = true) :
    ∀ c ∈ ((digits ++ rest).drop count).head?, c.isDigit = true ∨ c ∈ ['\n', ',', ']'] := by
  induction digits generalizing count with
  | nil =>
      cases count with
      | zero => exact fun c member => .inr (ends c member)
      | succ count =>
          cases rest with
          | nil => exact absurd (Nat.succ_pos count) long
          | cons c rest =>
              have digit := front c List.mem_cons_self
              rw [ends.noDigit c rfl] at digit
              cases digit
  | cons digit digits inductionHypothesis =>
      obtain ⟨first, later⟩ := List.forall_mem_cons.mp all
      cases count with
      | zero =>
          rintro c same
          exact .inl (Option.some.inj same ▸ first)
      | succ count =>
          refine inductionHypothesis later ?_ fun c member => front c (List.mem_cons_of_mem _ member)
          simpa using long

theorem expect_drop_digits (all : ∀ c ∈ digits, c.isDigit = true) (ends : EndsValue rest)
    {count : Nat} (long : ¬ ((digits ++ rest).take count).length < count)
    (front : ∀ c ∈ (digits ++ rest).take count, c.isDigit = true) {c : Char}
    (noDigit : c.isDigit = false) (noEnd : c ∉ ['\n', ',', ']']) :
    expect c ((digits ++ rest).drop count) = none := by
  have next := head?_drop_digits all ends long front
  generalize (digits ++ rest).drop count = behind at next
  cases behind with
  | nil => rfl
  | cons first later =>
      refine if_neg ?_
      rintro rfl
      rcases next first rfl with digit | isEnd
      · rw [digit] at noDigit
        cases noDigit
      · exact noEnd isEnd

theorem dropDate?_digits (all : ∀ c ∈ digits, c.isDigit = true) (ends : EndsValue rest) :
    dropDate? (digits ++ rest) = none := by
  rw [dropDate?]
  split
  · rfl
  · next year =>
      simp only [Bool.or_eq_true, decide_eq_true_eq, Bool.not_eq_true', not_or,
        Bool.not_eq_false, List.all_eq_true] at year
      rw [expect_drop_digits all ends year.1 year.2 rfl (by decide)]
      rfl

theorem dropTime?_digits (all : ∀ c ∈ digits, c.isDigit = true) (ends : EndsValue rest) :
    dropTime? (digits ++ rest) = none := by
  have point (long : ¬ ((digits ++ rest).take 2).length < 2)
      (front : ∀ c ∈ (digits ++ rest).take 2, c.isDigit = true) :
      expect ':' ((digits ++ rest).drop 2) = none :=
    expect_drop_digits all ends long front rfl (by decide)
  generalize digits ++ rest = input at point
  match input with
  | [] => rfl
  | [_] => rfl
  | a :: b :: later =>
      by_cases read : readPair 0 23 (a :: b :: later) = none
      · rw [dropTime?, read]
        rfl
      · have inRange : (a.isDigit && b.isDigit && decide (0 ≤ Text.digitsValue 10 [a, b]) &&
            decide (Text.digitsValue 10 [a, b] ≤ 23)) = true := by
          by_contra outOfRange
          exact read (if_neg outOfRange)
        have first : readPair 0 23 (a :: b :: later) = some (Text.digitsValue 10 [a, b], later) :=
          if_pos inRange
        simp only [Bool.and_eq_true] at inRange
        have behind : expect ':' later = none := by
          refine point (by simp) fun c member => ?_
          rcases List.mem_cons.mp member with rfl | member
          · exact inRange.1.1.1
          · exact List.mem_singleton.mp member ▸ inRange.1.1.2
        rw [dropTime?, first, Option.bind_eq_bind, Option.bind_some]
        simp only [behind]
        rfl

theorem dropDateTime?_digits (all : ∀ c ∈ digits, c.isDigit = true) (ends : EndsValue rest) :
    dropDateTime? (digits ++ rest) = none := by
  rw [dropDateTime?, dropDate?_digits all ends]
  exact dropTime?_digits all ends

/-- A number with a sign is no point in time. -/
theorem dropDateTime?_minus (input : List Char) : dropDateTime? ('-' :: input) = none := by
  have noDate : dropDate? ('-' :: input) = none := by
    rw [dropDate?]
    refine if_pos ?_
    simp
  have noTime : dropTime? ('-' :: input) = none := by
    cases input with
    | nil => rfl
    | cons c input => rfl
  rw [dropDateTime?, noDate]
  exact noTime

theorem readSign_digits (n : Nat) (rest : List Char) :
    readSign (Nat.toDigits 10 n ++ rest) = (false, Nat.toDigits 10 n ++ rest) := by
  obtain ⟨c, digits, same⟩ := List.exists_cons_of_ne_nil (Nat.toDigits_ne_nil (n := n) (b := 10))
  have digit : c.isDigit = true :=
    Text.isDigit_of_mem_toDigits (by rw [same]; exact List.mem_cons_self : c ∈ Nat.toDigits 10 n)
  rw [same, List.cons_append, readSign]
  · exact fun _ same => ne_of_isDigit digit rfl (List.cons.inj same).1
  · exact fun _ same => ne_of_isDigit digit rfl (List.cons.inj same).1

/-- Nothing follows an integer that goes on with a fraction or an exponent. -/
theorem readFraction_ends (ends : EndsValue rest) : readFraction rest = none := by
  unfold readFraction
  split
  · exact absurd (ends '.' rfl) (by decide)
  · rfl

theorem readExponent_ends (ends : EndsValue rest) : readExponent rest = none := by
  cases rest with
  | nil => rfl
  | cons c rest =>
      refine if_neg ?_
      have all : ∀ c ∈ ['\n', ',', ']'], ¬ (decide (c = 'e') || decide (c = 'E')) = true := by
        simp
      simpa using all c (ends c rfl)

/-- The digits of an integer are no number with a fraction or an exponent. -/
theorem dropFloat?_toDigits {input : List Char} {isNegative : Bool} {n : Nat}
    (sign : readSign input = (isNegative, Nat.toDigits 10 n ++ rest)) (ends : EndsValue rest) :
    dropFloat? input = none := by
  have whole := readWhole_toDigits n ends
  obtain ⟨c, digits, same⟩ := List.exists_cons_of_ne_nil (Nat.toDigits_ne_nil (n := n) (b := 10))
  have digit : c.isDigit = true :=
    Text.isDigit_of_mem_toDigits (by rw [same]; exact List.mem_cons_self : c ∈ Nat.toDigits 10 n)
  unfold dropFloat?
  rw [sign]
  simp only
  split
  · next word =>
      rw [same] at word
      exact absurd (List.cons.inj word).1 (ne_of_isDigit digit rfl)
  · next word =>
      rw [same] at word
      exact absurd (List.cons.inj word).1 (ne_of_isDigit digit rfl)
  · rw [whole]
    simp [readFraction_ends ends, readExponent_ends ends]

/-- No mark of another base stands behind the first digit. -/
theorem toDigits_ne_based (n : Nat) (ends : EndsValue rest) {c : Char}
    (noDigit : c.isDigit = false) (noEnd : c ∉ ['\n', ',', ']']) (later : List Char) :
    Nat.toDigits 10 n ++ rest ≠ '0' :: c :: later := by
  intro same
  have all : ∀ c ∈ Nat.toDigits 10 n, c.isDigit = true := fun _ => Text.isDigit_of_mem_toDigits
  have next : ∀ c ∈ ((Nat.toDigits 10 n ++ rest).drop 1).head?,
      c.isDigit = true ∨ c ∈ ['\n', ',', ']'] := by
    refine head?_drop_digits all ends ?_ ?_
    · rw [same]
      exact Nat.lt_irrefl 1
    · rw [same]
      exact fun c member => List.mem_singleton.mp member ▸ rfl
  rw [same] at next
  rcases next c rfl with digit | isEnd
  · rw [digit] at noDigit
    cases noDigit
  · exact noEnd isEnd

theorem readInteger_toDigits {n : Nat} (fits : n < integerLimit) (ends : EndsValue rest) :
    readInteger (Nat.toDigits 10 n ++ rest) = some ((n : Int), rest) := by
  rw [readInteger]
  · simp only [readSign_digits, readWhole_toDigits n ends, Option.bind_eq_bind, Option.bind_some,
      Text.digitsValue_toDigits, Bool.false_eq_true, if_false, if_pos fits]
  · exact toDigits_ne_based n ends rfl (by decide)
  · exact toDigits_ne_based n ends rfl (by decide)
  · exact toDigits_ne_based n ends rfl (by decide)

theorem readInteger_minus {n : Nat} (fits : n ≤ integerLimit) (ends : EndsValue rest) :
    readInteger ('-' :: (Nat.toDigits 10 n ++ rest)) = some (-(n : Int), rest) := by
  rw [readInteger]
  · simp only [readSign, readWhole_toDigits n ends, Option.bind_eq_bind, Option.bind_some,
      Text.digitsValue_toDigits, if_true, if_pos fits]
  · exact fun _ same => by cases same
  · exact fun _ same => by cases same
  · exact fun _ same => by cases same

end Digits

theorem inRange_iff {value : Int} :
    inRange value = true ↔ -(integerLimit : Int) ≤ value ∧ value < integerLimit := by
  rw [inRange, Bool.and_eq_true, decide_eq_true_eq, decide_eq_true_eq]

/-- An integer in range is read back. -/
theorem readNumeric_toString {value : Int} (fits : inRange value = true) {rest : List Char}
    (ends : EndsValue rest) :
    readNumeric ((toString value).toList ++ rest) = some (.integer value, rest) := by
  rw [inRange_iff] at fits
  cases value with
  | ofNat n =>
      have all : ∀ c ∈ Nat.toDigits 10 n, c.isDigit = true := fun _ => Text.isDigit_of_mem_toDigits
      have small : n < integerLimit := Int.ofNat_lt.mp fits.2
      rw [Text.toList_toString_ofNat, readNumeric, dropDateTime?_digits all ends,
        dropFloat?_toDigits (readSign_digits n rest) ends, readInteger_toDigits small ends]
      rfl
  | negSucc n =>
      have small : n + 1 ≤ integerLimit := by omega
      rw [Text.toList_toString_negSucc, List.cons_append, readNumeric, dropDateTime?_minus,
        dropFloat?_toDigits rfl ends, readInteger_minus small ends]
      rfl

/-! ## Values that hold no others -/

/-- Values that are written on one line and hold no others. -/
inductive IsSimple : Toml → Prop
  | text (value : String) : IsSimple (text value)
  | integer {value : Int} (fits : inRange value = true) : IsSimple (integer value)
  | bool (value : Bool) : IsSimple (bool value)

/-- Characters of space, brackets, and the marks of comments and of documents. -/
def frontMarks : List Char :=
  [' ', '\t', '\n', '\r', '#', '[', ']', '\x7b', '\x7d', byteOrderMark]

/-- A character that keys and simple values may start with. -/
def StartsValue (c : Char) : Prop := c ∉ frontMarks

instance (c : Char) : Decidable (StartsValue c) := inferInstanceAs (Decidable (c ∉ _))

theorem StartsValue.solid {c : Char} (starts : StartsValue c) :
    c ∉ [' ', '\t', '\n', '\r', '#'] := by
  have all : ∀ c ∈ [' ', '\t', '\n', '\r', '#'],
      c ∈ frontMarks := by simp [frontMarks]
  exact fun member => starts (all c member)

theorem StartsValue.ne {c : Char} (starts : StartsValue c) {other : Char}
    (listed : other ∈ frontMarks) : c ≠ other := by
  rintro rfl
  exact starts listed

theorem StartsValue.isSpace {c : Char} (starts : StartsValue c) : Toml.isSpace c = false := by
  simp [Toml.isSpace, starts.ne (by decide : ' ' ∈ frontMarks),
    starts.ne (by decide : '\t' ∈ frontMarks)]

theorem startsValue_of_isDigit {c : Char} (digit : c.isDigit = true) : StartsValue c := by
  have all : ∀ c ∈ frontMarks, c.isDigit = false := by
    simp [frontMarks, byteOrderMark]
  intro member
  rw [all c member] at digit
  cases digit

theorem exists_quote_eq_cons (text : String) :
    ∃ c rest, (quote text).toList = c :: rest ∧ (c = '"' ∨ c = '\'') := by
  have quotes : "\"\"\"".toList = ['"', '"', '"'] := by simp
  have quotes' : "'''".toList = ['\'', '\'', '\''] := by simp
  rw [quote, String.toList_ofList]
  cases quotingOf text.toList with
  | basic => exact ⟨_, _, rfl, .inl rfl⟩
  | literal => exact ⟨_, _, rfl, .inr rfl⟩
  | longBasic => exact ⟨'"', _, by rw [Quoting.write, quotes]; rfl, .inl rfl⟩
  | longLiteral => exact ⟨'\'', _, by rw [Quoting.write, quotes']; rfl, .inr rfl⟩

theorem exists_toString_eq_cons (value : Int) :
    ∃ c rest, (toString value).toList = c :: rest ∧ (c = '-' ∨ c.isDigit = true) := by
  cases value with
  | ofNat n =>
      rw [Text.toList_toString_ofNat]
      obtain ⟨c, rest, same⟩ := List.exists_cons_of_ne_nil (Nat.toDigits_ne_nil (n := n) (b := 10))
      refine ⟨c, rest, same, .inr (Text.isDigit_of_mem_toDigits (?_ : c ∈ Nat.toDigits 10 n))⟩
      rw [same]
      exact List.mem_cons_self
  | negSucc n =>
      rw [Text.toList_toString_negSucc]
      exact ⟨_, _, rfl, .inl rfl⟩

theorem IsSimple.exists_inline_eq_cons {value : Toml} (simple : IsSimple value) :
    ∃ c rest, (inline value).toList = c :: rest ∧ StartsValue c := by
  cases simple with
  | text value =>
      obtain ⟨c, rest, same, rfl | rfl⟩ := exists_quote_eq_cons value
      · exact ⟨_, rest, same, by decide⟩
      · exact ⟨_, rest, same, by decide⟩
  | @integer value fits =>
      obtain ⟨c, rest, same, rfl | digit⟩ := exists_toString_eq_cons value
      · exact ⟨_, rest, same, by decide⟩
      · exact ⟨_, rest, same, startsValue_of_isDigit digit⟩
  | bool value =>
      cases value with
      | false => exact ⟨'f', _, by rw [inline]; simp; rfl, by decide⟩
      | true => exact ⟨'t', _, by rw [inline]; simp; rfl, by decide⟩

theorem readSimple_inline {value : Toml} (simple : IsSimple value) {rest : List Char}
    (ends : EndsValue rest) :
    readSimple ((inline value).toList ++ rest) = some (value, rest) := by
  cases simple with
  | text value =>
      have noDouble : rest.head? ≠ some '"' := ends.ne_of_head? (by decide)
      have noSingle : rest.head? ≠ some '\'' := ends.ne_of_head? (by decide)
      have read := readText_quote value noDouble noSingle
      rw [inline]
      obtain ⟨c, later, same, rfl | rfl⟩ := exists_quote_eq_cons value
      · rw [same] at read ⊢
        rw [List.cons_append] at read ⊢
        rw [readSimple, read, Option.map_some]
      · rw [same] at read ⊢
        rw [List.cons_append] at read ⊢
        rw [readSimple, read, Option.map_some]
  | @integer value fits =>
      have read := readNumeric_toString fits ends
      obtain ⟨c, later, same, first⟩ := exists_toString_eq_cons value
      have other {d : Char} (noMinus : '-' ≠ d) (noDigit : d.isDigit = false) : c ≠ d := by
        rcases first with rfl | digit
        · exact noMinus
        · exact ne_of_isDigit digit noDigit
      rw [inline]
      rw [same, List.cons_append] at read ⊢
      rw [readSimple]
      · exact read
      · exact fun _ same => other (by decide) rfl (List.cons.inj same).1
      · exact fun _ same => other (by decide) rfl (List.cons.inj same).1
      · exact fun _ same => other (by decide) rfl (List.cons.inj same).1
      · exact fun _ same => other (by decide) rfl (List.cons.inj same).1
  | bool value =>
      cases value with
      | false => simp [inline, readSimple]
      | true => simp [inline, readSimple]

/-! ## Arrays -/

/-- The space before an item. -/
def IsGap (gap : List Char) : Prop := ∀ c ∈ gap, c = ' ' ∨ c = '\n'

instance (gap : List Char) : Decidable (IsGap gap) := List.decidableBAll _ gap

theorem skipLines_gap {gap : List Char} (isGap : IsGap gap) {c : Char}
    (stops : c ∉ [' ', '\t', '\n', '\r', '#']) (rest : List Char) :
    skipLines false (gap ++ c :: rest) = some (c :: rest) := by
  induction gap with
  | nil =>
      simp only [List.mem_cons, List.not_mem_nil, or_false, not_or] at stops
      obtain ⟨noSpace, noTab, noFeed, noReturn, noComment⟩ := stops
      have solid : isSpace c = false := by simp [isSpace, noSpace, noTab]
      rw [List.nil_append, skipLines]
      · rw [if_neg (by rw [solid]; exact Bool.false_ne_true), if_neg noComment]
      · exact noFeed
      · exact fun _ same _ => noReturn same
  | cons space gap inductionHypothesis =>
      obtain ⟨first, later⟩ := List.forall_mem_cons.mp isGap
      rcases first with rfl | rfl
      · exact inductionHypothesis later
      · exact inductionHypothesis later

section Items

variable {element : Reader Toml} {fuel : Nat} {gap written more rest : List Char} {value : Toml}
  {values : List Toml}

/-- What is written is read as a value, whatever may follow a value behind it. -/
structure ReadsValue (element : Reader Toml) (written : List Char) (value : Toml) : Prop where
  reads : ∀ rest, EndsValue rest → element (written ++ rest) = some (value, rest)
  starts : ∃ c later, written = c :: later ∧ StartsValue c

theorem readItems_end (isGap : IsGap gap) :
    readItems element (fuel + 1) (gap ++ ']' :: rest) = some ([], rest) := by
  rw [readItems, skipLines_gap isGap (by decide)]
  rfl

theorem readItems_item (isGap : IsGap gap) (item : ReadsValue element written value)
    (ends : EndsValue more) :
    readItems element (fuel + 1) (gap ++ written ++ more) = (do
      match ← skipLines false more with
      | ']' :: rest => some ([value], rest)
      | ',' :: rest => do
          let (items, rest) ← readItems element fuel rest
          some (value :: items, rest)
      | _ => none) := by
  obtain ⟨c, later, same, starts⟩ := item.starts
  have skipped : skipLines false (gap ++ written ++ more) = some (written ++ more) := by
    rw [same, List.append_assoc, List.cons_append]
    exact skipLines_gap isGap starts.solid _
  have noEnd : c ≠ ']' := starts.ne (by decide)
  rw [readItems, skipped]
  simp only [Option.bind_eq_bind, Option.bind_some]
  split
  · next same' =>
      rw [same] at same'
      exact absurd (List.cons.inj same').1 noEnd
  · exact (congrArg (Option.bind · _) (item.reads more ends)).trans rfl

theorem readItems_last (isGap : IsGap gap) (item : ReadsValue element written value) :
    readItems element (fuel + 1) (gap ++ written ++ ']' :: rest) = some ([value], rest) := by
  rw [readItems_item isGap item (endsValue_cons (by decide) _)]
  rfl

theorem readItems_cons (isGap : IsGap gap) (item : ReadsValue element written value)
    (read : readItems element fuel more = some (values, rest)) :
    readItems element (fuel + 1) (gap ++ written ++ ',' :: more) =
      some (value :: values, rest) := by
  rw [readItems_item isGap item (endsValue_cons (by decide) _)]
  change (readItems element fuel more).bind (fun (items, rest) => some (value :: items, rest)) = _
  rw [read, Option.bind_some]

end Items

theorem readsValue_inline {value : Toml} (simple : IsSimple value) (depth : Nat) :
    ReadsValue (readValue depth) (inline value).toList value := by
  obtain ⟨c, later, same, starts⟩ := simple.exists_inline_eq_cons
  refine ⟨fun rest ends => ?_, c, later, same, starts⟩
  have read := readSimple_inline simple ends
  have noBracket : c ≠ '[' := starts.ne (by decide)
  have noBrace : c ≠ '\x7b' := starts.ne (by decide)
  rw [same, List.cons_append] at read ⊢
  rw [readValue]
  · exact read
  · exact fun _ _ _ same => noBracket (List.cons.inj same).1
  · exact fun _ _ _ same => noBrace (List.cons.inj same).1

/-- The lines of an array, one for each item. -/
theorem readItems_lines {items : List Toml} (simple : ∀ item ∈ items, IsSimple item) (depth : Nat)
    (rest : List Char) {fuel : Nat} (enough : items.length < fuel) :
    readItems (readValue depth) fuel
        (items.flatMap (fun item => "\n    ".toList ++ (inline item).toList ++ [',']) ++
          '\n' :: ']' :: rest) =
      some (items, rest) := by
  induction items generalizing fuel with
  | nil =>
      obtain ⟨fuel, rfl⟩ : ∃ left, fuel = left + 1 := ⟨fuel - 1, by omega⟩
      exact readItems_end (by decide : IsGap ['\n'])
  | cons item items inductionHypothesis =>
      obtain ⟨fuel, rfl⟩ : ∃ left, fuel = left + 1 := ⟨fuel - 1, by omega⟩
      obtain ⟨first, later⟩ := List.forall_mem_cons.mp simple
      have margin : IsGap "\n    ".toList := by simp [IsGap]
      have read := inductionHypothesis later (Nat.lt_of_succ_lt_succ enough)
      have split : (item :: items).flatMap
            (fun item => "\n    ".toList ++ (inline item).toList ++ [',']) ++ '\n' :: ']' :: rest =
          "\n    ".toList ++ (inline item).toList ++ ',' ::
            (items.flatMap (fun item => "\n    ".toList ++ (inline item).toList ++ [',']) ++
              '\n' :: ']' :: rest) := by
        simp only [List.flatMap_cons, List.append_assoc, List.cons_append, List.nil_append]
      rw [split]
      exact readItems_cons margin (readsValue_inline first depth) read

/-- The items of an array on one line. -/
theorem readItems_inline {first : Toml} {items : List Toml} {gap : List Char} (isGap : IsGap gap)
    (simple : ∀ item ∈ first :: items, IsSimple item) (depth : Nat) (rest : List Char) {fuel : Nat}
    (enough : items.length + 1 < fuel) :
    readItems (readValue depth) fuel
        (gap ++ (Text.joinWith ", " ((first :: items).map inline)).toList ++ ']' :: rest) =
      some (first :: items, rest) := by
  induction items generalizing first gap fuel with
  | nil =>
      obtain ⟨fuel, rfl⟩ : ∃ left, fuel = left + 1 := ⟨fuel - 1, by omega⟩
      have single := readsValue_inline (simple first List.mem_cons_self) depth
      exact readItems_last isGap single
  | cons second items inductionHypothesis =>
      obtain ⟨fuel, rfl⟩ : ∃ left, fuel = left + 1 := ⟨fuel - 1, by omega⟩
      obtain ⟨isSimple, later⟩ := List.forall_mem_cons.mp simple
      have comma : ", ".toList = [',', ' '] := by simp
      have read := inductionHypothesis (by decide : IsGap [' ']) later (by simpa using enough)
      have split : gap ++ (Text.joinWith ", " ((first :: second :: items).map inline)).toList ++
            ']' :: rest =
          gap ++ (inline first).toList ++ ',' :: ([' '] ++
            (Text.joinWith ", " ((second :: items).map inline)).toList ++ ']' :: rest) := by
        simp only [List.map_cons, Text.joinWith, String.toList_append, comma, List.append_assoc,
          List.cons_append, List.nil_append]
      rw [split]
      exact readItems_cons isGap (readsValue_inline isSimple depth) read

/-! ## Values of keys -/

/-- Values that stand behind a key: simple ones, and arrays of them. -/
inductive IsLeaf : Toml → Prop
  | simple {value : Toml} (simple : IsSimple value) : IsLeaf value
  | array {items : List Toml} (simple : ∀ item ∈ items, IsSimple item) : IsLeaf (array items)

theorem inlineItems_eq_map (items : List Toml) : inlineItems items = items.map inline := by
  induction items with
  | nil => rfl
  | cons item items inductionHypothesis =>
      rw [inlineItems, inductionHypothesis, List.map_cons]

theorem length_le_joinWith (texts : List String) :
    texts.length ≤ (Text.joinWith ", " texts).toList.length + 1 := by
  induction texts with
  | nil => exact Nat.zero_le _
  | cons text texts inductionHypothesis =>
      cases texts with
      | nil => exact Nat.le_add_left ..
      | cons next texts =>
          have comma : ", ".toList = [',', ' '] := by simp
          have split : Text.joinWith ", " (text :: next :: texts) =
              text ++ ", " ++ Text.joinWith ", " (next :: texts) := rfl
          rw [split, String.toList_append, String.toList_append, comma, List.length_append,
            List.length_append]
          simp only [List.length_cons, List.length_nil] at inductionHypothesis ⊢
          omega

theorem length_le_flatMap {α β : Type} (write : α → List β) (written : ∀ item, write item ≠ [])
    (items : List α) : items.length ≤ (items.flatMap write).length := by
  induction items with
  | nil => exact Nat.le_refl 0
  | cons item items inductionHypothesis =>
      have positive : 0 < (write item).length := List.length_pos_iff.mpr (written item)
      rw [List.flatMap_cons, List.length_append, List.length_cons]
      omega

/-- An array is read from behind its bracket. -/
theorem readValue_bracket {depth : Nat} {body rest : List Char} {items : List Toml}
    (read : readItems (readValue depth) (body.length + 1) body = some (items, rest)) :
    readValue (depth + 1) ('[' :: body) = some (.array items, rest) := by
  rw [readValue, read, Option.map_some]

/-- An array on one line is read back. -/
theorem readValue_array_inline {items : List Toml} (simple : ∀ item ∈ items, IsSimple item)
    (depth : Nat) (rest : List Char) :
    readValue (depth + 1) ((inline (.array items)).toList ++ rest) = some (.array items, rest) := by
  have opening : "[".toList = ['['] := by simp
  have closing : "]".toList = [']'] := by simp
  have split : (inline (.array items)).toList ++ rest =
      '[' :: ((Text.joinWith ", " (items.map inline)).toList ++ ']' :: rest) := by
    rw [inline, inlineItems_eq_map]
    simp only [String.toList_append, opening, closing, List.append_assoc, List.cons_append,
      List.nil_append]
  rw [split]
  refine readValue_bracket ?_
  cases items with
  | nil => exact readItems_end (by decide : IsGap [])
  | cons first items =>
      have bound := length_le_joinWith ((first :: items).map inline)
      refine readItems_inline (by decide : IsGap []) simple depth rest ?_
      simp only [List.length_map, List.length_cons, List.length_append] at bound ⊢
      omega

/-- An array with one item to a line is read back. -/
theorem readValue_array_lines {items : List Toml} (simple : ∀ item ∈ items, IsSimple item)
    (depth : Nat) (rest : List Char) :
    readValue (depth + 1) (("[" ++ String.join (items.map fun item => "\n    " ++ inline item ++ ",") ++
        "\n]").toList ++ rest) = some (.array items, rest) := by
  have opening : "[".toList = ['['] := by simp
  have closing : "\n]".toList = ['\n', ']'] := by simp
  have comma : ",".toList = [','] := by simp
  have split : ("[" ++ String.join (items.map fun item => "\n    " ++ inline item ++ ",") ++
        "\n]").toList ++ rest =
      '[' :: (items.flatMap (fun item => "\n    ".toList ++ (inline item).toList ++ [',']) ++
        '\n' :: ']' :: rest) := by
    simp only [String.toList_append, String.toList_join, List.flatMap_map, opening, closing, comma,
      List.append_assoc, List.cons_append, List.nil_append]
  have bound := length_le_flatMap
    (fun item => "\n    ".toList ++ (inline item).toList ++ [',']) (fun item => by simp) items
  rw [split]
  refine readValue_bracket (readItems_lines simple depth rest ?_)
  rw [List.length_append]
  omega

theorem skipSpace_of_starts {written : List Char} {c : Char} {later : List Char}
    (starts : written = c :: later) (solid : isSpace c = false) (rest : List Char) :
    skipSpace (written ++ rest) = written ++ rest := by
  rw [starts]
  exact List.dropWhile_cons_of_neg (by rw [solid]; exact Bool.false_ne_true)

/-- An array starts with its bracket. -/
theorem toList_bracket (front back : String) :
    ("[" ++ front ++ back).toList = '[' :: (front ++ back).toList := by simp

theorem IsLeaf.skipSpace_inline {value : Toml} (leaf : IsLeaf value) (rest : List Char) :
    skipSpace ((inline value).toList ++ rest) = (inline value).toList ++ rest := by
  cases leaf with
  | simple simple =>
      obtain ⟨c, later, front, starts⟩ := simple.exists_inline_eq_cons
      exact skipSpace_of_starts front starts.isSpace rest
  | array => exact skipSpace_of_starts (toList_bracket _ _) rfl rest

/-- The value of a key does not start with space. -/
theorem IsLeaf.skipSpace_valueText {value : Toml} (leaf : IsLeaf value) (rest : List Char) :
    skipSpace ((valueText value).toList ++ rest) = (valueText value).toList ++ rest := by
  cases leaf with
  | simple simple =>
      have same : valueText value = inline value := by cases simple <;> rfl
      rw [same]
      exact (IsLeaf.simple simple).skipSpace_inline rest
  | @array items simple =>
      match items with
      | [] => exact skipSpace_of_starts (toList_bracket _ _) rfl rest
      | [_] => exact skipSpace_of_starts (toList_bracket _ _) rfl rest
      | _ :: _ :: _ => exact skipSpace_of_starts (toList_bracket _ _) rfl rest

/-- A value is read back from one line. -/
theorem IsLeaf.readsInline {value : Toml} (leaf : IsLeaf value) (depth : Nat) {rest : List Char}
    (ends : EndsValue rest) :
    readValue (depth + 1) ((inline value).toList ++ rest) = some (value, rest) := by
  cases leaf with
  | simple simple => exact (readsValue_inline simple (depth + 1)).reads rest ends
  | array simple => exact readValue_array_inline simple depth rest

/-- The value of a key is read back. -/
theorem IsLeaf.readsValue {value : Toml} (leaf : IsLeaf value) (depth : Nat) {rest : List Char}
    (ends : EndsValue rest) :
    readValue (depth + 1) ((valueText value).toList ++ rest) = some (value, rest) := by
  cases leaf with
  | simple simple =>
      have same : valueText value = inline value := by cases simple <;> rfl
      rw [same]
      exact (IsLeaf.simple simple).readsInline depth ends
  | @array items simple =>
      match items, simple with
      | [], simple => exact readValue_array_inline simple depth rest
      | [_], simple => exact readValue_array_inline simple depth rest
      | first :: second :: items, simple => exact readValue_array_lines simple depth rest

end DiskWarden.Toml
