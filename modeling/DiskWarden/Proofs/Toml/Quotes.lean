import DiskWarden.Proofs.Text.Digits
import DiskWarden.Toml.Text

/-!
# Texts and keys that are read back

A text stands between single or double quotes, on one line or over several.  In all four ways its
characters are written one by one: as themselves, or as an escape where escapes count.  Up to two
quotes in a row may be among the characters of a long text.  What is written like this is read
back up to the closing quotes, if no further quote follows them.
-/

namespace DiskWarden.Toml

/-! ## Forms -/

/-- How many quotes in a row the characters of a text may hold. -/
def quotesInRow (isLong : Bool) : Nat := if isLong then 2 else 0

/-- What is written behind a backslash for a character.  It does not look like an escaped line
break. -/
structure Escapes (c letter : Char) (letters : List Char) : Prop where
  noSpace : isSpace letter = false
  noFeed : letter ≠ '\n'
  noReturn : letter ≠ '\r'
  reads : ∀ rest, escape? (letter :: letters ++ rest) = some (c, rest)

/-- What characters may be written as, behind a number of quotes. -/
inductive TextForm (quote : Char) (escapes isLong : Bool) : Nat → List Char → List Char → Prop
  | nil {before : Nat} : TextForm quote escapes isLong before [] []
  | quote {before : Nat} {written chars : List Char} (few : before < quotesInRow isLong)
      (rest : TextForm quote escapes isLong (before + 1) written chars) :
      TextForm quote escapes isLong before (quote :: written) (quote :: chars)
  | plain {before : Nat} {c : Char} {written chars : List Char} (noQuote : c ≠ quote)
      (noEscape : escapes = true → c ≠ '\\')
      (legible : isPrintable c = true ∨ isLong = true ∧ c = '\n')
      (rest : TextForm quote escapes isLong 0 written chars) :
      TextForm quote escapes isLong before (c :: written) (c :: chars)
  | escape {before : Nat} {c letter : Char} {letters written chars : List Char}
      (escaping : escapes = true) (escape : Escapes c letter letters)
      (rest : TextForm quote escapes isLong 0 written chars) :
      TextForm quote escapes isLong before ('\\' :: letter :: letters ++ written) (c :: chars)

/-! ## Escapes -/

theorem escapes_numbered {c : Char} (small : c.toNat < 16 ^ 4) :
    Escapes c 'u' (Text.upperHex 4 c.toNat) := by
  refine ⟨rfl, by decide, by decide, fun rest => ?_⟩
  have length := Text.length_upperHex 4 c.toNat
  have front : (Text.upperHex 4 c.toNat ++ rest).take 4 = Text.upperHex 4 c.toNat :=
    List.take_left' length
  have back : (Text.upperHex 4 c.toNat ++ rest).drop 4 = rest := List.drop_left' length
  have enough : ¬ (Text.upperHex 4 c.toNat ++ rest).length < 4 := by
    rw [List.length_append, length]
    omega
  change escape?.numbered 4 (Text.upperHex 4 c.toNat ++ rest) = _
  rw [escape?.numbered, if_neg enough, front, back, Text.hexNumber?_upperHex small,
    Option.bind_some, Text.charOfNat?_toNat, Option.map_some]

/-- The letters that are written for single characters. -/
def escapeLetters : List (Char × Char) :=
  [('"', '"'), ('\\', '\\'), ('\x08', 'b'), ('\t', 't'), ('\n', 'n'), ('\x0c', 'f'), ('\r', 'r')]

theorem escapes_letter {c letter : Char} (listed : (c, letter) ∈ escapeLetters) :
    Escapes c letter [] := by
  simp only [escapeLetters, List.mem_cons, Prod.mk.injEq, List.not_mem_nil, or_false] at listed
  rcases listed with ⟨rfl, rfl⟩ | ⟨rfl, rfl⟩ | ⟨rfl, rfl⟩ | ⟨rfl, rfl⟩ | ⟨rfl, rfl⟩ | ⟨rfl, rfl⟩ |
    ⟨rfl, rfl⟩ <;> exact ⟨rfl, by decide, by decide, fun _ => rfl⟩

/-- What is written for a character that has to be escaped is an escape for it. -/
theorem escapeOf?_cases (isLong : Bool) (before : Nat) (c : Char) :
    (∃ letter letters, escapeOf? isLong before c = some ('\\' :: letter :: letters) ∧
        Escapes c letter letters) ∨
      escapeOf? isLong before c = none ∧
        (c = '"' ∧ before < quotesInRow isLong ∨
          c ≠ '"' ∧ c ≠ '\\' ∧ (isPrintable c = true ∨ isLong = true ∧ c = '\n')) := by
  have letter (letter : Char) (listed : (c, letter) ∈ escapeLetters)
      (same : escapeOf? isLong before c = some ['\\', letter]) :
      ∃ letter letters, escapeOf? isLong before c = some ('\\' :: letter :: letters) ∧
        Escapes c letter letters :=
    ⟨letter, [], same, escapes_letter listed⟩
  by_cases isQuote : c = '"'
  · subst isQuote
    by_cases many : quotesInRow isLong ≤ before
    · exact .inl (letter '"' (by decide) (if_pos many))
    · exact .inr ⟨if_neg many, .inl ⟨rfl, Nat.lt_of_not_le many⟩⟩
  by_cases isFeed : c = '\n'
  · subst isFeed
    cases isLong with
    | false => exact .inl (letter 'n' (by decide) rfl)
    | true => exact .inr ⟨rfl, .inr ⟨isQuote, by decide, .inr ⟨rfl, rfl⟩⟩⟩
  by_cases listed : c = '\\' ∨ c = '\x08' ∨ c = '\t' ∨ c = '\x0c' ∨ c = '\r'
  · rcases listed with rfl | rfl | rfl | rfl | rfl
    · exact .inl (letter '\\' (by decide) rfl)
    · exact .inl (letter 'b' (by decide) rfl)
    · exact .inl (letter 't' (by decide) rfl)
    · exact .inl (letter 'f' (by decide) rfl)
    · exact .inl (letter 'r' (by decide) rfl)
  obtain ⟨noEscape, noBackspace, noTab, noForm, noReturn⟩ := by
    simpa only [not_or] using listed
  by_cases isControl : c.toNat < 0x20 ∨ c.toNat = 0x7F
  · refine .inl ⟨'u', Text.upperHex 4 c.toNat, ?_, escapes_numbered (by omega)⟩
    simp [escapeOf?, isQuote, noEscape, noBackspace, noTab, isFeed, noForm, noReturn, isControl]
  · refine .inr ⟨?_, .inr ⟨isQuote, noEscape, .inl ?_⟩⟩
    · simp [escapeOf?, isQuote, noEscape, noBackspace, noTab, isFeed, noForm, noReturn, isControl]
    · simp only [isPrintable, Bool.or_eq_true, Bool.and_eq_true, decide_eq_true_eq]
      omega

/-- What is written between double quotes. -/
theorem textForm_escaped (isLong : Bool) (before : Nat) (chars : List Char) :
    TextForm '"' true isLong before (escaped isLong before chars) chars := by
  induction chars generalizing before with
  | nil => exact .nil
  | cons c chars inductionHypothesis =>
      rw [escaped]
      rcases escapeOf?_cases isLong before c with ⟨letter, letters, written, escape⟩ |
        ⟨raw, ⟨rfl, few⟩ | ⟨noQuote, noEscape, legible⟩⟩
      · rw [written]
        exact .escape rfl escape (inductionHypothesis 0)
      · rw [raw]
        exact .quote few (inductionHypothesis (before + 1))
      · rw [raw]
        simp only [if_neg noQuote]
        exact .plain noQuote (fun _ => noEscape) legible (inductionHypothesis 0)

/-! ## Runs of quotes -/

/-- The longest run so far and the one at the end, with one more character. -/
def runStep (c : Char) (runs : Nat × Nat) (char : Char) : Nat × Nat :=
  let current := if char = c then runs.2 + 1 else 0
  (max runs.1 current, current)

theorem le_foldl_runStep (c : Char) (chars : List Char) (runs : Nat × Nat) :
    runs.1 ≤ (chars.foldl (runStep c) runs).1 := by
  induction chars generalizing runs with
  | nil => exact Nat.le_refl _
  | cons char chars inductionHypothesis =>
      exact Nat.le_trans (Nat.le_max_left ..) (inductionHypothesis (runStep c runs char))

/-- Characters that are written without escapes. -/
theorem textForm_raw {quote : Char} {isLong : Bool} {chars : List Char}
    (legible : ∀ c ∈ chars, isPrintable c = true ∨ isLong = true ∧ c = '\n')
    (few : longestRun quote chars ≤ quotesInRow isLong) :
    TextForm quote false isLong 0 chars chars := by
  have run : ∀ runs : Nat × Nat, (chars.foldl (runStep quote) runs).1 ≤ quotesInRow isLong →
      TextForm quote false isLong runs.2 chars chars := by
    clear few
    induction chars with
    | nil => exact fun _ _ => .nil
    | cons c chars inductionHypothesis =>
        intro runs few
        obtain ⟨first, later⟩ := List.forall_mem_cons.mp legible
        have rest := inductionHypothesis later (runStep quote runs c) few
        by_cases isQuote : c = quote
        · subst isQuote
          have longer : runs.2 + 1 ≤ (runStep c runs c).1 := by
            simp only [runStep, if_true]
            exact Nat.le_max_right ..
          have bound := le_foldl_runStep c chars (runStep c runs c)
          have current : (runStep c runs c).2 = runs.2 + 1 := if_pos rfl
          exact .quote (by rw [List.foldl_cons] at few; omega) (current ▸ rest)
        · have current : (runStep quote runs c).2 = 0 := if_neg isQuote
          exact .plain isQuote nofun first (current ▸ rest)
  exact run (0, 0) few

/-! ## Reading short texts -/

/-- A short text holds no quote of its own, so that its quotes are not those of a long one. -/
theorem TextForm.ne_quotes {quote : Char} {escapes : Bool} {written chars rest : List Char}
    (form : TextForm quote escapes false 0 written chars) (notEscape : quote ≠ '\\')
    (single : rest.head? ≠ some quote) (later : List Char) :
    written ++ quote :: rest ≠ quote :: quote :: later := by
  cases form with
  | nil =>
      intro same
      rw [List.nil_append] at same
      exact single (by rw [(List.cons.inj same).2]; rfl)
  | quote few => cases few
  | plain noQuote => exact fun same => noQuote (List.cons.inj same).1
  | escape => exact fun same => notEscape (List.cons.inj same).1.symm

theorem readBasic_form {before : Nat} {written chars : List Char}
    (form : TextForm '"' true false before written chars) (rest : List Char) {fuel : Nat}
    (enough : written.length < fuel) :
    readBasic fuel (written ++ '"' :: rest) = some (chars, rest) := by
  induction form generalizing fuel with
  | nil =>
      obtain ⟨fuel, rfl⟩ : ∃ left, fuel = left + 1 := ⟨fuel - 1, by omega⟩
      rfl
  | quote few => cases few
  | @plain before c written chars noQuote noEscape legible form inductionHypothesis =>
      obtain ⟨fuel, rfl⟩ : ∃ left, fuel = left + 1 := ⟨fuel - 1, by omega⟩
      have printable : isPrintable c = true := by simpa using legible
      have read := inductionHypothesis (by simpa using enough)
      rw [List.cons_append, readBasic]
      · rw [if_pos printable, read, Option.map_some]
      · exact noQuote
      · exact noEscape rfl
  | @escape before c letter letters written chars escaping escape form inductionHypothesis =>
      obtain ⟨fuel, rfl⟩ : ∃ left, fuel = left + 1 := ⟨fuel - 1, by omega⟩
      have read : readBasic fuel (written ++ '"' :: rest) = some (chars, rest) :=
        inductionHypothesis (by simp at enough; omega)
      have split : '\\' :: letter :: letters ++ written ++ '"' :: rest =
          '\\' :: (letter :: letters ++ (written ++ '"' :: rest)) := by simp
      rw [split, readBasic, escape.reads, Option.bind_eq_bind, Option.bind_some]
      simp only [read]
      rfl

theorem readLiteral_form {before : Nat} {written chars : List Char}
    (form : TextForm '\'' false false before written chars) (rest : List Char) :
    readLiteral (written ++ '\'' :: rest) = some (chars, rest) := by
  induction form with
  | nil => rfl
  | quote few => cases few
  | @plain before c written chars noQuote noEscape legible form inductionHypothesis =>
      have printable : isPrintable c = true := by simpa using legible
      rw [List.cons_append, readLiteral]
      · rw [if_pos printable, inductionHypothesis, Option.map_some]
      · exact noQuote
  | escape escaping => cases escaping

/-! ## Reading long texts -/

theorem closingQuotes?_eq_none {quote : Char} {input : List Char}
    (few : (input.takeWhile (· == quote)).length ≤ 2) : closingQuotes? quote input = none := by
  rw [closingQuotes?, if_pos (Nat.lt_succ_of_le few)]

theorem closingQuotes?_replicate {quote : Char} {count : Nat} (few : count ≤ 2) {rest : List Char}
    (single : rest.head? ≠ some quote) :
    closingQuotes? quote (List.replicate count quote ++ quote :: quote :: quote :: rest) =
      some (List.replicate count quote, rest) := by
  have quotes : List.replicate count quote ++ quote :: quote :: quote :: rest =
      List.replicate (count + 3) quote ++ rest := by
    rw [List.replicate_add, List.append_assoc]
    rfl
  have noneLeft : rest.takeWhile (· == quote) = [] := by
    cases rest with
    | nil => rfl
    | cons c rest =>
        have differs : c ≠ quote := fun same => single (by rw [same]; rfl)
        rw [List.takeWhile_cons_of_neg (by simpa using differs)]
  have run : ((List.replicate (count + 3) quote ++ rest).takeWhile (· == quote)).length =
      count + 3 := by
    rw [List.takeWhile_append_of_pos fun c member => beq_iff_eq.mpr (List.eq_of_mem_replicate member),
      noneLeft, List.append_nil, List.length_replicate]
  have inside : min (count + 3 - 3) 2 = count := by omega
  rw [quotes, closingQuotes?, run, if_neg (by omega)]
  simp only [inside]
  rw [List.drop_left' List.length_replicate]

/-- Behind a number of quotes, the characters are quotes up to the end, or few quotes follow. -/
theorem TextForm.quotes {quote : Char} {escapes : Bool} {before : Nat}
    {written chars : List Char} (form : TextForm quote escapes true before written chars)
    (notEscape : quote ≠ '\\') (few : before ≤ 2) :
    (∃ count, count + before ≤ 2 ∧ written = List.replicate count quote ∧
        chars = List.replicate count quote) ∨
      ∀ rest, ((written ++ rest).takeWhile (· == quote)).length + before ≤ 2 := by
  induction form with
  | nil => exact .inl ⟨0, by omega, rfl, rfl⟩
  | @quote before written chars fewer form inductionHypothesis =>
      have limit : before < 2 := fewer
      rcases inductionHypothesis limit with ⟨count, bound, rfl, rfl⟩ | bound
      · exact .inl ⟨count + 1, by omega, rfl, rfl⟩
      · refine .inr fun rest => ?_
        have := bound rest
        rw [List.cons_append, List.takeWhile_cons_of_pos (by exact beq_self_eq_true quote),
          List.length_cons]
        omega
  | plain noQuote =>
      refine .inr fun rest => ?_
      rw [List.cons_append, List.takeWhile_cons_of_neg (by simpa using noQuote)]
      simpa using few
  | escape =>
      refine .inr fun rest => ?_
      rw [List.cons_append, List.cons_append,
        List.takeWhile_cons_of_neg (by simpa using notEscape.symm)]
      simpa using few

theorem dropLineBreak?_cons {c : Char} (noFeed : c ≠ '\n') (noReturn : c ≠ '\r')
    (rest : List Char) : dropLineBreak? (c :: rest) = none := by
  unfold dropLineBreak?
  split
  · next same => exact absurd (List.cons.inj same).1 noFeed
  · next same => exact absurd (List.cons.inj same).1 noReturn
  · rfl

theorem ne_return_of_isPrintable {c : Char} (printable : isPrintable c = true) : c ≠ '\r' := by
  rintro rfl
  cases printable

theorem ne_feed_of_isPrintable {c : Char} (printable : isPrintable c = true) : c ≠ '\n' := by
  rintro rfl
  cases printable

section ReadLong

variable {quote : Char} {escapes : Bool} {fuel : Nat} {input chars rest : List Char} {c : Char}

theorem readLong_closed (closed : closingQuotes? quote input = some (chars, rest)) :
    readLong quote escapes (fuel + 1) input = some (chars, rest) := by
  rw [readLong]
  simp only [closed]

theorem readLong_plain (going : closingQuotes? quote (c :: input) = none)
    (noEscape : escapes = true → c ≠ '\\') (legible : isPrintable c = true ∨ c = '\n')
    (read : readLong quote escapes fuel input = some (chars, rest)) :
    readLong quote escapes (fuel + 1) (c :: input) = some (c :: chars, rest) := by
  rw [readLong]
  simp only [going]
  rcases legible with printable | rfl
  · have unbroken := dropLineBreak?_cons (ne_feed_of_isPrintable printable)
      (ne_return_of_isPrintable printable) input
    have notEscape : (escapes && c == '\\') = false := by
      cases escapes with
      | false => rfl
      | true => exact beq_eq_false_iff_ne.mpr (noEscape rfl)
    simp only [unbroken, notEscape, printable, read]
    rfl
  · simp only [dropLineBreak?, read]
    rfl

theorem readLong_escape {letter : Char} {letters : List Char} (escape : Escapes c letter letters)
    (going : closingQuotes? quote ('\\' :: (letter :: letters ++ input)) = none)
    (read : readLong quote true fuel input = some (chars, rest)) :
    readLong quote true (fuel + 1) ('\\' :: (letter :: letters ++ input)) =
      some (c :: chars, rest) := by
  have noBreak : dropEscapedBreak? (letter :: letters ++ input) = none := by
    have noSpace : skipSpace (letter :: letters ++ input) = letter :: (letters ++ input) := by
      rw [skipSpace, List.cons_append, List.dropWhile_cons_of_neg]
      rw [escape.noSpace]
      exact Bool.false_ne_true
    rw [dropEscapedBreak?, noSpace, dropLineBreak?_cons escape.noFeed escape.noReturn]
    rfl
  rw [readLong]
  simp only [going, dropLineBreak?_cons (by decide : '\\' ≠ '\n') (by decide), noBreak,
    escape.reads, read]
  rfl

/-- The quotes in front close the text, with those before them that belong to it, or they close
nothing. -/
theorem TextForm.closes {before : Nat} {written : List Char}
    (form : TextForm quote escapes true before written chars) (few : before ≤ 2)
    (notEscape : quote ≠ '\\') (single : rest.head? ≠ some quote) :
    closingQuotes? quote (written ++ quote :: quote :: quote :: rest) = some (chars, rest) ∨
      closingQuotes? quote (written ++ quote :: quote :: quote :: rest) = none := by
  rcases form.quotes notEscape few with ⟨count, bound, rfl, rfl⟩ | bound
  · exact .inl (closingQuotes?_replicate (by omega) single)
  · have := bound (quote :: quote :: quote :: rest)
    exact .inr (closingQuotes?_eq_none (by omega))

theorem readLong_form {before : Nat} {written : List Char}
    (form : TextForm quote escapes true before written chars) (few : before ≤ 2)
    (isQuote : quote = '"' ∨ quote = '\'') (single : rest.head? ≠ some quote)
    (enough : written.length < fuel) :
    readLong quote escapes fuel (written ++ quote :: quote :: quote :: rest) =
      some (chars, rest) := by
  have notEscape : quote ≠ '\\' := by rcases isQuote with rfl | rfl <;> decide
  have printable : isPrintable quote = true := by rcases isQuote with rfl | rfl <;> rfl
  induction form generalizing fuel with
  | nil =>
      obtain ⟨fuel, rfl⟩ : ∃ left, fuel = left + 1 := ⟨fuel - 1, by omega⟩
      exact readLong_closed (closingQuotes?_replicate (Nat.zero_le 2) single)
  | @quote before written chars fewer form inductionHypothesis =>
      obtain ⟨fuel, rfl⟩ : ∃ left, fuel = left + 1 := ⟨fuel - 1, by omega⟩
      rcases (TextForm.quote fewer form).closes few notEscape single with closed | going
      · exact readLong_closed closed
      · exact readLong_plain going (fun _ => notEscape) (.inl printable)
          (inductionHypothesis fewer (by simpa using enough))
  | @plain before c written chars noQuote noEscape legible form inductionHypothesis =>
      obtain ⟨fuel, rfl⟩ : ∃ left, fuel = left + 1 := ⟨fuel - 1, by omega⟩
      rcases (TextForm.plain noQuote noEscape legible form).closes few notEscape single with
        closed | going
      · exact readLong_closed closed
      · exact readLong_plain going noEscape (legible.imp_right And.right)
          (inductionHypothesis (Nat.zero_le 2) (by simpa using enough))
  | @escape before c letter letters written chars escaping escape form inductionHypothesis =>
      obtain ⟨fuel, rfl⟩ : ∃ left, fuel = left + 1 := ⟨fuel - 1, by omega⟩
      subst escaping
      have split : '\\' :: letter :: letters ++ written ++ quote :: quote :: quote :: rest =
          '\\' :: (letter :: letters ++ (written ++ quote :: quote :: quote :: rest)) := by simp
      rcases (TextForm.escape rfl escape form).closes few notEscape single with closed | going
      · exact readLong_closed closed
      · rw [split] at going ⊢
        exact readLong_escape escape going
          (inductionHypothesis (Nat.zero_le 2) (by simp at enough; omega))

end ReadLong

/-! ## Reading texts of any kind -/

/-- A text without line breaks does not start with one. -/
theorem TextForm.dropLineBreak? {quote : Char} {escapes isLong : Bool} {before : Nat}
    {written chars : List Char} (form : TextForm quote escapes isLong before written chars)
    (printable : isPrintable quote = true) (unbroken : '\n' ∉ chars) (rest : List Char) :
    Toml.dropLineBreak? (written ++ quote :: rest) = none := by
  have printed {c : Char} (printable : isPrintable c = true) (rest : List Char) :
      Toml.dropLineBreak? (c :: rest) = none :=
    dropLineBreak?_cons (ne_feed_of_isPrintable printable) (ne_return_of_isPrintable printable) rest
  cases form with
  | nil => exact printed printable rest
  | quote => exact printed printable _
  | plain noQuote noEscape legible =>
      rcases legible with legible | ⟨-, rfl⟩
      · exact printed legible _
      · exact absurd List.mem_cons_self unbroken
  | escape => exact printed rfl _

section ReadText

variable {chars rest : List Char}

theorem basic_append (chars rest : List Char) :
    Quoting.basic.write chars ++ rest = '"' :: (escaped false 0 chars ++ '"' :: rest) := by
  change ['"'] ++ escaped false 0 chars ++ ['"'] ++ rest = _
  simp only [List.append_assoc, List.cons_append, List.nil_append]

theorem literal_append (chars rest : List Char) :
    Quoting.literal.write chars ++ rest = '\'' :: (chars ++ '\'' :: rest) := by
  change ['\''] ++ chars ++ ['\''] ++ rest = _
  simp only [List.append_assoc, List.cons_append, List.nil_append]

theorem readShortText_basic (chars rest : List Char) :
    readShortText (Quoting.basic.write chars ++ rest) = some (chars, rest) := by
  rw [basic_append, readShortText]
  refine readBasic_form (textForm_escaped false 0 chars) rest ?_
  rw [List.length_append]
  omega

theorem readShortText_literal (legible : ∀ c ∈ chars, isPrintable c = true)
    (few : longestRun '\'' chars = 0) (rest : List Char) :
    readShortText (Quoting.literal.write chars ++ rest) = some (chars, rest) := by
  rw [literal_append, readShortText]
  exact readLiteral_form (textForm_raw (fun c member => .inl (legible c member)) (Nat.le_of_eq few))
    rest

theorem readText_basic (single : rest.head? ≠ some '"') :
    readText (Quoting.basic.write chars ++ rest) = some (String.ofList chars, rest) := by
  have read := readShortText_basic chars rest
  rw [basic_append] at read ⊢
  rw [readText]
  · rw [read, Option.map_some]
  · intro later same
    exact (textForm_escaped false 0 chars).ne_quotes (by decide) single later
      (List.cons.inj same).2
  · intro later same
    cases (List.cons.inj same).1

theorem readText_literal (legible : ∀ c ∈ chars, isPrintable c = true)
    (few : longestRun '\'' chars = 0) (single : rest.head? ≠ some '\'') :
    readText (Quoting.literal.write chars ++ rest) = some (String.ofList chars, rest) := by
  have form : TextForm '\'' false false 0 chars chars :=
    textForm_raw (fun c member => .inl (legible c member)) (Nat.le_of_eq few)
  have read := readShortText_literal legible few rest
  rw [literal_append] at read ⊢
  rw [readText]
  · rw [read, Option.map_some]
  · intro later same
    cases (List.cons.inj same).1
  · intro later same
    exact form.ne_quotes (by decide) single later (List.cons.inj same).2

/-- A long text is read from behind the quotes that open it.  A line break that stands there is
not among its characters. -/
theorem readLong_body {quote : Char} {escapes : Bool} {written : List Char}
    (form : TextForm quote escapes true 0 written chars) (isQuote : quote = '"' ∨ quote = '\'')
    (single : rest.head? ≠ some quote) :
    let body := (if chars.contains '\n' then ['\n'] else []) ++ written ++
      quote :: quote :: quote :: rest
    readLong quote escapes (body.length + 1) ((dropLineBreak? body).getD body) =
      some (chars, rest) := by
  intro body
  have printable : isPrintable quote = true := by rcases isQuote with rfl | rfl <;> rfl
  have behind : (dropLineBreak? body).getD body = written ++ quote :: quote :: quote :: rest := by
    by_cases broken : '\n' ∈ chars
    · simp [body, broken, dropLineBreak?]
    · have unbroken := form.dropLineBreak? printable broken (quote :: quote :: rest)
      simp [body, broken, unbroken]
  rw [behind]
  refine readLong_form form (Nat.zero_le 2) isQuote single ?_
  simp only [body, List.length_append]
  omega

theorem readText_longBasic (single : rest.head? ≠ some '"') :
    readText (Quoting.longBasic.write chars ++ rest) = some (String.ofList chars, rest) := by
  have quotes : "\"\"\"".toList = ['"', '"', '"'] := by simp
  have read := readLong_body (textForm_escaped true 0 chars) (.inl rfl) single
  have split : Quoting.longBasic.write chars ++ rest =
      '"' :: '"' :: '"' :: ((if chars.contains '\n' then ['\n'] else []) ++ escaped true 0 chars ++
        '"' :: '"' :: '"' :: rest) := by
    change "\"\"\"".toList ++ _ ++ escaped true 0 chars ++ "\"\"\"".toList ++ rest = _
    simp only [quotes, List.append_assoc, List.cons_append, List.nil_append]
  rw [split, readText]
  exact congrArg (Option.map _) read

theorem readText_longLiteral (legible : ∀ c ∈ chars, isPrintable c = true ∨ c = '\n')
    (few : longestRun '\'' chars ≤ 2) (single : rest.head? ≠ some '\'') :
    readText (Quoting.longLiteral.write chars ++ rest) = some (String.ofList chars, rest) := by
  have quotes : "'''".toList = ['\'', '\'', '\''] := by simp
  have form : TextForm '\'' false true 0 chars chars :=
    textForm_raw (fun c member => (legible c member).imp_right fun same => ⟨rfl, same⟩) few
  have read := readLong_body form (.inr rfl) single
  have split : Quoting.longLiteral.write chars ++ rest =
      '\'' :: '\'' :: '\'' :: ((if chars.contains '\n' then ['\n'] else []) ++ chars ++
        '\'' :: '\'' :: '\'' :: rest) := by
    change "'''".toList ++ _ ++ chars ++ "'''".toList ++ rest = _
    simp only [quotes, List.append_assoc, List.cons_append, List.nil_append]
  rw [split, readText]
  exact congrArg (Option.map _) read

theorem isPrintable_of_isControl {c : Char} (noControl : isControl c = false) :
    isPrintable c = true ∨ c = '\n' := by
  by_cases feed : c = '\n'
  · exact .inr feed
  · refine .inl ?_
    by_cases tab : c = '\t'
    · subst tab
      rfl
    · simp [isControl, feed, tab] at noControl
      simp [isPrintable, noControl]

/-- What a way of writing without escapes asks for. -/
theorem quotingOf_cases (chars : List Char) :
    quotingOf chars = .basic ∨ quotingOf chars = .longBasic ∨
      quotingOf chars = .literal ∧ (∀ c ∈ chars, isPrintable c = true) ∧
        longestRun '\'' chars = 0 ∨
      quotingOf chars = .longLiteral ∧ (∀ c ∈ chars, isPrintable c = true ∨ c = '\n') ∧
        longestRun '\'' chars ≤ 2 := by
  have legible (noControls : (!chars.any isControl) = true) :
      ∀ c ∈ chars, isPrintable c = true ∨ c = '\n' := by
    intro c member
    rw [Bool.not_eq_true', List.any_eq_false] at noControls
    exact isPrintable_of_isControl (Bool.eq_false_iff.mpr (noControls c member))
  unfold quotingOf
  simp only
  split
  · exact .inl rfl
  split
  · next literal =>
      simp only [Bool.and_eq_true, decide_eq_true_eq, Bool.not_eq_true'] at literal
      obtain ⟨⟨noControls, noQuotes⟩, unbroken⟩ := literal
      refine .inr (.inr (.inl ⟨rfl, fun c member => ?_, noQuotes⟩))
      refine (legible (by rw [noControls]; rfl) c member).resolve_right ?_
      rintro rfl
      rw [List.contains_iff_mem.mpr member] at unbroken
      cases unbroken
  split
  · exact .inr (.inl rfl)
  split
  · next literal =>
      simp only [Bool.and_eq_true, decide_eq_true_eq] at literal
      exact .inr (.inr (.inr ⟨rfl, legible literal.1, literal.2⟩))
  split
  · exact .inr (.inl rfl)
  · exact .inl rfl

/-- A text is read back from the way in which it is written. -/
theorem readText_quote (text : String) (noDouble : rest.head? ≠ some '"')
    (noSingle : rest.head? ≠ some '\'') :
    readText ((quote text).toList ++ rest) = some (text, rest) := by
  rw [quote, String.toList_ofList]
  rcases quotingOf_cases text.toList with same | same | ⟨same, legible, few⟩ | ⟨same, legible, few⟩
  · rw [same, readText_basic noDouble, String.ofList_toList]
  · rw [same, readText_longBasic noDouble, String.ofList_toList]
  · rw [same, readText_literal legible few noSingle, String.ofList_toList]
  · rw [same, readText_longLiteral legible few noSingle, String.ofList_toList]

end ReadText

/-! ## Keys -/

section ReadKey

variable {chars rest : List Char}

theorem ne_quote_of_isBareKeyChar {c : Char} (bare : isBareKeyChar c = true) :
    c ≠ '"' ∧ c ≠ '\'' := by
  refine ⟨?_, ?_⟩ <;> rintro rfl <;> revert bare <;> decide

theorem readKey_bare (some' : chars ≠ []) (bare : ∀ c ∈ chars, isBareKeyChar c = true)
    (ends : ∀ c ∈ rest.head?, isBareKeyChar c = false) :
    readKey (chars ++ rest) = some (String.ofList chars, rest) := by
  have noneLeft : rest.takeWhile isBareKeyChar = [] ∧ rest.dropWhile isBareKeyChar = rest := by
    cases rest with
    | nil => exact ⟨rfl, rfl⟩
    | cons c rest =>
        have stop : ¬ isBareKeyChar c = true := by
          rw [ends c rfl]
          exact Bool.false_ne_true
        exact ⟨List.takeWhile_cons_of_neg stop, List.dropWhile_cons_of_neg stop⟩
  have taken : (chars ++ rest).takeWhile isBareKeyChar = chars := by
    rw [List.takeWhile_append_of_pos bare, noneLeft.1, List.append_nil]
  have dropped : (chars ++ rest).dropWhile isBareKeyChar = rest := by
    rw [List.dropWhile_append_of_pos bare, noneLeft.2]
  obtain ⟨c, later, rfl⟩ := List.exists_cons_of_ne_nil some'
  obtain ⟨noDouble, noSingle⟩ := ne_quote_of_isBareKeyChar (bare c List.mem_cons_self)
  unfold readKey
  split
  · next same => exact absurd (List.cons.inj same).1 noDouble
  · next same => exact absurd (List.cons.inj same).1 noSingle
  · simp only [taken, dropped]

/-- A key is read back, if no further character of a key follows it. -/
theorem readKey_keyText (key : String) (ends : ∀ c ∈ rest.head?, isBareKeyChar c = false) :
    readKey ((keyText key).toList ++ rest) = some (key, rest) := by
  have basic : readKey (Quoting.basic.write key.toList ++ rest) = some (key, rest) := by
    have read := readShortText_basic key.toList rest
    rw [basic_append] at read ⊢
    rw [readKey, read, Option.map_some]
    simp only [String.ofList_toList]
  unfold keyText
  by_cases bare : (key.toList ≠ [] && key.toList.all isBareKeyChar) = true
  · rw [if_pos bare]
    rw [Bool.and_eq_true, decide_eq_true_eq, List.all_eq_true] at bare
    rw [readKey_bare bare.1 bare.2 ends, String.ofList_toList]
  · rw [if_neg bare]
    rcases quotingOf_cases key.toList with same | same | ⟨same, legible, few⟩ | ⟨same, -, -⟩
    · simp only [same, String.toList_ofList, basic]
    · simp only [same, String.toList_ofList, basic]
    · have read := readShortText_literal legible few rest
      simp only [same, String.toList_ofList]
      rw [literal_append] at read ⊢
      rw [readKey, read, Option.map_some]
      simp only [String.ofList_toList]
    · simp only [same, String.toList_ofList, basic]

end ReadKey

end DiskWarden.Toml
