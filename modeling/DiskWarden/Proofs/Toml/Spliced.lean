import DiskWarden.Proofs.Toml.Values
import Mathlib.Data.List.TakeWhile

/-!
# Texts that are put between quotes as they are

What is read between double quotes is what stands there if every character is plain.  Otherwise
it is shorter than what stands there, as each escape takes more than one character.  A text of
several lines ends where three quotes stand.
-/

namespace DiskWarden.Toml

/-- A character that stands for itself between double quotes. -/
def IsPlain (c : Char) : Prop := isPrintable c = true ∧ c ≠ '"' ∧ c ≠ '\\'

instance (c : Char) : Decidable (IsPlain c) :=
  inferInstanceAs (Decidable (_ ∧ _))

/-! ## Plain texts -/

theorem textForm_plain {chars : List Char} (plain : ∀ c ∈ chars, IsPlain c) (before : Nat) :
    TextForm '"' true false before chars chars := by
  induction chars generalizing before with
  | nil => exact .nil
  | cons c chars inductionHypothesis =>
      obtain ⟨⟨printable, noQuote, noEscape⟩, later⟩ := List.forall_mem_cons.mp plain
      exact .plain noQuote (fun _ => noEscape) (.inl printable) (inductionHypothesis later 0)

theorem readText_plain {chars rest : List Char} (plain : ∀ c ∈ chars, IsPlain c)
    (single : rest.head? ≠ some '"') :
    readText ('"' :: (chars ++ '"' :: rest)) = some (String.ofList chars, rest) := by
  have form := textForm_plain plain 0
  have read : readShortText ('"' :: (chars ++ '"' :: rest)) = some (chars, rest) := by
    rw [readShortText]
    refine readBasic_form form rest ?_
    rw [List.length_append]
    omega
  rw [readText]
  · rw [read, Option.map_some]
  · intro later same
    exact form.ne_quotes (by decide) single later (List.cons.inj same).2
  · intro later same
    cases (List.cons.inj same).1

/-! ## What a reader takes -/

theorem dropLineBreak?_sound {input rest : List Char} (dropped : dropLineBreak? input = some rest) :
    ∃ front, input = front ++ rest ∧ front ≠ [] := by
  unfold dropLineBreak? at dropped
  split at dropped
  · cases dropped
    exact ⟨['\n'], rfl, nofun⟩
  · cases dropped
    exact ⟨['\r', '\n'], rfl, nofun⟩
  · cases dropped

theorem hexNumber?_sound {digits : List Char} {value : Nat}
    (read : Text.hexNumber? digits = some value) : '\n' ∉ digits := by
  intro member
  unfold Text.hexNumber? at read
  split at read
  · next all => exact absurd (List.all_eq_true.mp all _ member) (by decide)
  · cases read

theorem escape?_sound {input rest : List Char} {c : Char} (read : escape? input = some (c, rest)) :
    ∃ letters, input = letters ++ rest ∧ letters ≠ [] ∧ '\n' ∉ letters := by
  have numbered {count : Nat} {digits : List Char}
      (read : escape?.numbered count digits = some (c, rest)) :
      digits = digits.take count ++ rest ∧ '\n' ∉ digits.take count := by
    rw [escape?.numbered] at read
    split at read
    · cases read
    · obtain ⟨char, valid, same⟩ := Option.map_eq_some_iff.mp read
      obtain ⟨value, number, -⟩ := Option.bind_eq_some_iff.mp valid
      cases same
      exact ⟨(List.take_append_drop count digits).symm, hexNumber?_sound number⟩
  unfold escape? at read
  split at read
  case h_8 digits =>
    obtain ⟨split, noFeed⟩ := numbered read
    exact ⟨'u' :: digits.take 4, congrArg _ split, List.cons_ne_nil _ _, by simpa using noFeed⟩
  case h_9 digits =>
    obtain ⟨split, noFeed⟩ := numbered read
    exact ⟨'U' :: digits.take 8, congrArg _ split, List.cons_ne_nil _ _, by simpa using noFeed⟩
  case h_10 => cases read
  all_goals
    cases read
    exact ⟨[_], rfl, List.cons_ne_nil _ _, by decide⟩

/-- What is read between double quotes either stands there as it is, or it is shorter. -/
theorem readBasic_sound {fuel : Nat} {input chars rest : List Char}
    (read : readBasic fuel input = some (chars, rest)) :
    ∃ written, input = written ++ '"' :: rest ∧ '\n' ∉ written ∧
      (written = chars ∧ (∀ c ∈ chars, IsPlain c) ∨ chars.length < written.length) := by
  induction fuel generalizing input chars with
  | zero => cases read
  | succ fuel inductionHypothesis =>
      unfold readBasic at read
      split at read
      · cases read
      · cases read
      · cases read
        exact ⟨[], rfl, nofun, .inl ⟨rfl, nofun⟩⟩
      · next same =>
          cases Nat.succ.inj same
          obtain ⟨⟨c, behind⟩, escaped, read⟩ := Option.bind_eq_some_iff.mp read
          obtain ⟨⟨chars, last⟩, later, same⟩ := Option.bind_eq_some_iff.mp read
          cases same
          obtain ⟨letters, rfl, some', noFeed⟩ := escape?_sound escaped
          obtain ⟨written, rfl, noFeed', shape⟩ := inductionHypothesis later
          refine ⟨'\\' :: (letters ++ written), by simp, by simp [noFeed, noFeed'], .inr ?_⟩
          have taken : 0 < letters.length := List.length_pos_iff.mpr some'
          have length : chars.length ≤ written.length := by
            rcases shape with ⟨rfl, -⟩ | shorter
            · exact Nat.le_refl _
            · exact Nat.le_of_lt shorter
          simp only [List.length_cons, List.length_append]
          omega
      · next c input noQuote noEscape same =>
          cases Nat.succ.inj same
          split at read
          · next printable =>
              obtain ⟨⟨chars, last⟩, later, same⟩ := Option.map_eq_some_iff.mp read
              cases same
              obtain ⟨written, rfl, noFeed, shape⟩ := inductionHypothesis later
              have differs := ne_feed_of_isPrintable printable
              refine ⟨c :: written, rfl, by simp [noFeed, differs.symm], ?_⟩
              rcases shape with ⟨rfl, plain⟩ | shorter
              · exact .inl ⟨rfl, List.forall_mem_cons.mpr ⟨⟨printable, noQuote, noEscape⟩, plain⟩⟩
              · exact .inr (Nat.succ_lt_succ shorter)
          · cases read

theorem closingQuotes?_sound {quote : Char} {input chars rest : List Char}
    (closed : closingQuotes? quote input = some (chars, rest)) :
    input = chars ++ quote :: quote :: quote :: rest := by
  have all : ∀ c ∈ input.takeWhile (· == quote), c = quote := fun c member => by
    simpa using List.mem_takeWhile_imp member
  have run := List.eq_replicate_of_mem all
  unfold closingQuotes? at closed
  simp only at closed
  split at closed
  · cases closed
  · next enough =>
      cases closed
      generalize (input.takeWhile (· == quote)).length = count at enough run ⊢
      have few : min (count - 3) 2 + 3 ≤ count := by omega
      generalize min (count - 3) 2 = inside at few ⊢
      have split : input = List.replicate count quote ++ input.dropWhile (· == quote) := by
        rw [← run, List.takeWhile_append_dropWhile]
      have front : input.take (inside + 3) = List.replicate (inside + 3) quote := by
        rw [split, List.take_append_of_le_length (by rwa [List.length_replicate]),
          List.take_replicate, Nat.min_eq_left few]
      calc input = input.take (inside + 3) ++ input.drop (inside + 3) :=
            (List.take_append_drop _ _).symm
        _ = _ := by
            rw [front, List.replicate_add, List.append_assoc]
            rfl

theorem dropBlankLines_suffix (input : List Char) :
    dropEscapedBreak?.dropBlankLines input <:+ input := by
  fun_induction dropEscapedBreak?.dropBlankLines input with
  | case1 rest inductionHypothesis => exact inductionHypothesis.trans (List.suffix_cons _ _)
  | case2 rest inductionHypothesis =>
      exact inductionHypothesis.trans ((List.suffix_cons _ _).trans (List.suffix_cons _ _))
  | case3 c rest noFeed noReturn space inductionHypothesis =>
      exact inductionHypothesis.trans (List.suffix_cons _ _)
  | case4 => exact List.suffix_refl _
  | case5 => exact List.suffix_refl _

theorem dropEscapedBreak?_suffix {input rest : List Char}
    (dropped : dropEscapedBreak? input = some rest) : rest <:+ input := by
  obtain ⟨behind, broken, rfl⟩ := Option.map_eq_some_iff.mp dropped
  obtain ⟨front, split, -⟩ := dropLineBreak?_sound broken
  have skipped : skipSpace input <:+ input := List.dropWhile_suffix _
  exact (dropBlankLines_suffix behind).trans (.trans ⟨front, split.symm⟩ skipped)

/-- A text of several lines ends with three quotes, and it is no longer than what stands before
them. -/
theorem readLong_sound {quote : Char} {escapes : Bool} {fuel : Nat} {input chars rest : List Char}
    (read : readLong quote escapes fuel input = some (chars, rest)) :
    ∃ written, input = written ++ quote :: quote :: quote :: rest ∧
      chars.length ≤ written.length := by
  induction fuel generalizing input chars with
  | zero => cases read
  | succ fuel inductionHypothesis =>
      -- some characters are read in the place of at least as many, or none for any number
      have go (front taken : List Char) {behind : List Char} (split : input = front ++ behind)
          (fewer : taken.length ≤ front.length)
          (read : (readLong quote escapes fuel behind).map
            (fun later => (taken ++ later.1, later.2)) = some (chars, rest)) :
          ∃ written, input = written ++ quote :: quote :: quote :: rest ∧
            chars.length ≤ written.length := by
        obtain ⟨⟨later, last⟩, behindRead, same⟩ := Option.map_eq_some_iff.mp read
        cases same
        obtain ⟨written, rfl, shorter⟩ := inductionHypothesis behindRead
        refine ⟨front ++ written, by rw [split, List.append_assoc], ?_⟩
        rw [List.length_append, List.length_append]
        exact Nat.add_le_add fewer shorter
      rw [readLong] at read
      split at read
      · next closed =>
          cases read
          exact ⟨chars, closingQuotes?_sound closed, Nat.le_refl _⟩
      simp only at read
      split at read
      · next broken =>
          obtain ⟨front, split, some'⟩ := dropLineBreak?_sound broken
          exact go front ['\n'] split (List.length_pos_iff.mpr some') read
      split at read
      · cases read
      next c behind _ _ =>
        split at read
        · split at read
          · next dropped =>
              obtain ⟨front, split⟩ := dropEscapedBreak?_suffix dropped
              exact go (c :: front) [] (by rw [← split, List.cons_append]) (Nat.zero_le _) read
          · split at read
            · next escaped =>
                obtain ⟨letters, split, -⟩ := escape?_sound escaped
                refine go (c :: letters) [_] (by rw [split, List.cons_append]) ?_ read
                exact Nat.succ_le_succ (Nat.zero_le _)
            · cases read
        · split at read
          · exact go [c] [c] rfl (Nat.le_refl _) read
          · cases read

/-! ## Texts that are put between quotes -/

section Spliced

variable {chars tail read rest : List Char}

/-- A text that is read between double quotes as it was put there, up to the end of the line, is
plain. -/
theorem plain_of_readBasic {fuel : Nat}
    (same : readBasic fuel (chars ++ '"' :: '\n' :: tail) = some (chars, rest)) :
    ∀ c ∈ chars, IsPlain c := by
  obtain ⟨written, split, noFeed, shape⟩ := readBasic_sound same
  rcases shape with ⟨-, plain⟩ | longer
  · exact plain
  rcases List.append_eq_append_iff.mp split with ⟨more, rfl, behind⟩ | ⟨less, rfl, -⟩
  · -- what is read reaches beyond the quote, up to which it has no line break
    match more with
    | [] => exact absurd longer (by simp)
    | [_] => cases behind
    | _ :: _ :: _ =>
        cases behind
        exact absurd (by simp) noFeed
  · rw [List.length_append] at longer
    omega

/-- Three quotes that open a text of several lines are closed by three others, so far behind that
they are not among what was put between the quotes. -/
theorem infix_of_readLong {fuel : Nat} {body : List Char}
    (opened : '"' :: (chars ++ '"' :: '\n' :: tail) = '"' :: '"' :: '"' :: body)
    (same : readLong '"' true fuel ((dropLineBreak? body).getD body) = some (chars, rest)) :
    ['"', '"', '"'] <:+: tail := by
  obtain ⟨front, split⟩ : ∃ front, body = front ++ (dropLineBreak? body).getD body := by
    cases broken : dropLineBreak? body with
    | none => exact ⟨[], rfl⟩
    | some behind =>
        obtain ⟨front, split, -⟩ := dropLineBreak?_sound broken
        exact ⟨front, split⟩
  obtain ⟨written, closed, length⟩ := readLong_sound same
  rw [closed] at split
  have whole : ('"' :: (chars ++ ['"', '\n'])) ++ tail =
      ('"' :: '"' :: '"' :: (front ++ written)) ++ (['"', '"', '"'] ++ rest) := by
    rw [split] at opened
    simpa using opened
  have far : ('"' :: (chars ++ ['"', '\n'])).length ≤
      ('"' :: '"' :: '"' :: (front ++ written)).length := by
    simp only [List.length_cons, List.length_append, List.length_nil]
    omega
  rcases List.append_eq_append_iff.mp whole with ⟨more, -, behind⟩ | ⟨less, before, behind⟩
  · exact ⟨more, rest, by rw [behind, List.append_assoc]⟩
  · have none : less = [] := by
      rw [before, List.length_append] at far
      exact List.length_eq_zero_iff.mp (by omega)
    rw [none, List.nil_append] at behind
    exact ⟨[], rest, behind⟩

/-- A text that is put between double quotes as it is, at the end of a line, is read as itself
exactly if it is plain, if no three quotes in a row follow. -/
theorem readText_spliced_iff (noQuotes : ¬ ['"', '"', '"'] <:+: tail) :
    (∃ rest, readText ('"' :: (chars ++ '"' :: '\n' :: tail)) = some (String.ofList chars, rest)) ↔
      ∀ c ∈ chars, IsPlain c := by
  constructor
  · rintro ⟨rest, read⟩
    obtain ⟨⟨later, behind⟩, read, same⟩ := Option.map_eq_some_iff.mp read
    obtain ⟨sameText, rfl⟩ := Prod.mk.inj same
    cases String.ofList_injective sameText
    split at read
    · next opened => exact absurd (infix_of_readLong opened read) noQuotes
    · next opened => cases (List.cons.inj opened).1
    · exact plain_of_readBasic read
  · intro plain
    exact ⟨_, readText_plain plain (by simp)⟩

end Spliced

end DiskWarden.Toml
