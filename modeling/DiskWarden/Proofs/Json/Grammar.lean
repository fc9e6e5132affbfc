import DiskWarden.Proofs.Json.Quotes

/-!
# Texts that stand for values

The texts of JSON, as they may be written by hand: with space between the parts, characters
behind a backslash or not, and numbers in any of their forms.  A reader takes each of them for the
value that it stands for, if brackets do not open more levels than the reader allows.
-/

namespace DiskWarden.Json

/-! ## Forms -/

/-- White space between the parts of a document. -/
def Spaces (chars : List Char) : Prop := ∀ c ∈ chars, isSpace c = true

/-- Texts of values that hold no others. -/
inductive LeafForm : List Char → Json → Prop
  | null : LeafForm ['n', 'u', 'l', 'l'] null
  | yes : LeafForm ['t', 'r', 'u', 'e'] (bool true)
  | no : LeafForm ['f', 'a', 'l', 's', 'e'] (bool false)
  | number {parts : NumberParts} {power : List Char} {value : Json} (legible : parts.Legible)
      (form : PowerForm power parts.exponent) (holds : parts.HasValue value) :
      LeafForm (parts.signed power) value
  | text {written : List Char} {value : String} (form : TextForm written value.toList) :
      LeafForm ('"' :: (written ++ ['"'])) (text value)

section Lists

variable {α : Type} (Part : List Char → α → Prop)

/-- Parts with space around each and a comma between each two. -/
inductive Listed : List Char → List α → Prop
  | last {before chars after : List Char} {value : α} (front : Spaces before)
      (part : Part chars value) (back : Spaces after) :
      Listed (before ++ (chars ++ after)) [value]
  | more {before chars after written : List Char} {value : α} {values : List α}
      (front : Spaces before) (part : Part chars value) (back : Spaces after)
      (rest : Listed written values) :
      Listed (before ++ (chars ++ (after ++ ',' :: written))) (value :: values)

/-- What may stand between two brackets: space alone, or some parts. -/
inductive Bracketed : List Char → List α → Prop
  | none {space : List Char} (spaces : Spaces space) : Bracketed space []
  | some {written : List Char} {values : List α} (listed : Listed Part written values) :
      Bracketed written values

end Lists

/-- A member of an object: a quoted name, a colon and a value, with space around the colon. -/
inductive MemberForm (Value : List Char → Json → Prop) : List Char → String × Json → Prop
  | pair {written before after chars : List Char} {name : String} {value : Json}
      (form : TextForm written name.toList) (front : Spaces before) (back : Spaces after)
      (holds : Value chars value) :
      MemberForm Value ('"' :: (written ++ '"' :: (before ++ ':' :: (after ++ chars))))
        (name, value)

/-- Texts of values, given those of the values inside. -/
inductive ValueForm (Inner : List Char → Json → Prop) : List Char → Json → Prop
  | leaf {chars : List Char} {value : Json} (form : LeafForm chars value) :
      ValueForm Inner chars value
  | array {chars : List Char} {items : List Json} (form : Bracketed Inner chars items) :
      ValueForm Inner ('[' :: (chars ++ [']'])) (array items)
  | object {chars : List Char} {members : List (String × Json)}
      (form : Bracketed (MemberForm Inner) chars members) :
      ValueForm Inner ('{' :: (chars ++ ['}'])) (object members)

/-- Whether a text stands for a value, where brackets may open `depth` levels. -/
def StandsFor : Nat → List Char → Json → Prop
  | 0 => LeafForm
  | depth + 1 => ValueForm (StandsFor depth)

theorem LeafForm.standsFor {chars : List Char} {value : Json} (form : LeafForm chars value)
    (depth : Nat) : StandsFor depth chars value := by
  cases depth with
  | zero => exact form
  | succ depth => exact .leaf form

/-! ## What may follow a value -/

theorem Stops.nil : Stops [] :=
  ⟨(nomatch ·, ·), (nomatch ·, ·), (nomatch ·, ·)⟩

theorem Stops.cons {c : Char} (digit : c.isDigit = false) (point : c ≠ '.')
    (power : c ≠ 'e' ∧ c ≠ 'E') (rest : List Char) : Stops (c :: rest) :=
  ⟨fun _ same => Option.some.inj same ▸ digit, fun _ same => Option.some.inj same ▸ point,
    fun _ same => Option.some.inj same ▸ power⟩

/-- Space may stand between a value and what may follow it. -/
theorem Spaces.stops {space rest : List Char} (spaces : Spaces space) (stops : Stops rest) :
    Stops (space ++ rest) := by
  cases space with
  | nil => exact stops
  | cons c space =>
      have isSpace := spaces c List.mem_cons_self
      simp only [Json.isSpace, Bool.or_eq_true, decide_eq_true_eq] at isSpace
      rcases isSpace with ((rfl | rfl) | rfl) | rfl
      all_goals exact .cons (by decide) (by decide) (by decide) _

theorem spaces_nil : Spaces [] := fun _ member => nomatch member

theorem skipSpace_append {space : List Char} {c : Char} (spaces : Spaces space)
    (dense : isSpace c = false) (rest : List Char) :
    skipSpace (space ++ c :: rest) = c :: rest := by
  rw [skipSpace, List.dropWhile_append_of_pos spaces, List.dropWhile_cons_of_neg]
  rw [dense]
  exact Bool.false_ne_true

/-! ## Reading values that hold no others -/

section Values

variable {items : Reader (List Json)} {members : Reader (List (String × Json))}
  {c : Char} {space rest last : List Char} {value : Json}

theorem readValueWith_append (spaces : Spaces space) (dense : isSpace c = false)
    (reads : ∃ shorter, readValueFrom items members c rest = .ok (value, ⟨last, shorter⟩)) :
    Reads (readValueWith items members) (space ++ c :: rest) value last := by
  obtain ⟨shorter, read⟩ := reads
  have front := skipSpace_append spaces dense rest
  refine ⟨?_, ?_⟩
  · rw [List.length_append]
    exact Nat.lt_add_left _ shorter
  · rw [readValueWith]
    split
    · next none => cases front.symm.trans none
    · next other =>
        cases front.symm.trans other
        rw [read]
        rfl

/-- What starts like a number is read as one. -/
theorem readValueFrom_number (number : c = '-' ∨ c.isDigit = true) (rest : List Char) :
    isSpace c = false ∧ readValueFrom items members c rest = readNumber (c :: rest) := by
  have other : ∀ d : Char, d ≠ '-' → d.isDigit = false → c ≠ d := by
    rintro d noMinus noDigit rfl
    rcases number with minus | digit
    · exact noMinus minus
    · rw [noDigit] at digit
      cases digit
  constructor
  · simp [isSpace, other]
  · simp [readValueFrom, other, number]

theorem exists_readValue_eq (depth : Nat) :
    ∃ items members, readValue depth = readValueWith items members := by
  cases depth with
  | zero => exact ⟨_, _, rfl⟩
  | succ depth => exact ⟨_, _, rfl⟩

/-- A reader takes the texts of a form, with space before them, if nothing behind goes on with a
number. -/
def Accepts {α : Type} (reader : Reader α) (Form : List Char → α → Prop) : Prop :=
  ∀ {chars : List Char} {value : α}, Form chars value →
    ∀ {space rest : List Char}, Spaces space → Stops rest →
      Reads reader (space ++ (chars ++ rest)) value rest

theorem accepts_leafForm : Accepts (readValueWith items members) LeafForm := by
  intro chars value form space rest spaces stops
  cases form with
  | null | yes | no =>
      simp only [List.cons_append, List.nil_append]
      exact readValueWith_append spaces (by decide)
        ⟨by simp only [List.length_cons]; omega, by simp [readValueFrom, readWord]⟩
  | number legible form holds =>
      have reads := readNumber_signed legible form (NumberParts.hasValue_iff.mp holds) stops
      obtain ⟨c, tail, same, number⟩ := legible.exists_signed_eq _
      rw [same, List.cons_append] at reads ⊢
      obtain ⟨dense, read⟩ := @readValueFrom_number items members c number (tail ++ rest)
      apply readValueWith_append spaces dense
      rw [read]
      exact reads
  | text form =>
      obtain ⟨shorter, read⟩ := readChars_textForm form rest
      simp only [List.cons_append, List.append_assoc, List.nil_append]
      exact readValueWith_append spaces (by decide)
        ⟨Nat.lt_succ_of_lt shorter, by simp [readValueFrom, read, Rest.widen]⟩

/-- No value starts with a closing bracket. -/
theorem exists_skipSpace_eq {input : List Char}
    (reads : Reads (readValueWith items members) input value rest) :
    ∃ c tail, skipSpace input = c :: tail ∧ c ≠ ']' := by
  obtain ⟨shorter, read⟩ := reads
  rw [readValueWith] at read
  split at read
  · cases read
  · next c tail front =>
      refine ⟨c, tail, front, ?_⟩
      rintro rfl
      simp [readValueFrom] at read

end Values

/-! ## Reading lists of parts -/

section Lists

variable {α : Type} {part : Reader α} {whole more : Reader (List α)} {close : Char}
  {Part : List Char → α → Prop}

/-- A reader of what stands between brackets, and one of what follows a part there. -/
structure ReadsLists (part : Reader α) (whole more : Reader (List α)) (close : Char) : Prop where
  stops : ∀ rest, Stops (close :: rest)
  empty : ∀ {space rest}, Spaces space → Reads whole (space ++ close :: rest) [] rest
  first : ∀ {input later rest value values}, Reads part input value later →
    Reads more later values rest → Reads whole input (value :: values) rest
  last : ∀ {space rest}, Spaces space → Reads more (space ++ close :: rest) [] rest
  next : ∀ {space input later rest value values}, Spaces space → Reads part input value later →
    Reads more later values rest → Reads more (space ++ ',' :: input) (value :: values) rest

theorem ReadsLists.reads_listed (readers : ReadsLists part whole more close)
    (accepts : Accepts part Part) {written : List Char} {values : List α}
    (listed : Listed Part written values) (rest : List Char) :
    ∃ value later others, values = value :: others ∧
      Reads part (written ++ close :: rest) value later ∧ Reads more later others rest := by
  induction listed with
  | @last before chars after value front form back =>
      have reads := accepts form front (back.stops (readers.stops rest))
      refine ⟨value, _, [], rfl, ?_, readers.last back⟩
      simpa only [List.append_assoc] using reads
  | @more before chars after written value values front form back _ inductionHypothesis =>
      obtain ⟨next, later, others, rfl, reads, readsOthers⟩ := inductionHypothesis
      have comma : Stops (',' :: (written ++ close :: rest)) :=
        .cons (by decide) (by decide) (by decide) _
      have readsFirst := accepts form front (back.stops comma)
      refine ⟨value, _, next :: others, rfl, ?_, readers.next back reads readsOthers⟩
      simpa only [List.append_assoc, List.cons_append] using readsFirst

theorem ReadsLists.reads_bracketed (readers : ReadsLists part whole more close)
    (accepts : Accepts part Part) {written : List Char} {values : List α}
    (bracketed : Bracketed Part written values) (rest : List Char) :
    Reads whole (written ++ close :: rest) values rest := by
  cases bracketed with
  | none spaces => exact readers.empty spaces
  | some listed =>
      obtain ⟨value, later, others, rfl, reads, readsOthers⟩ :=
        readers.reads_listed accepts listed rest
      exact readers.first reads readsOthers

end Lists

/-- What is left behind a character after space is shorter than the input. -/
theorem length_lt_append_cons {last rest : List Char} (shorter : last.length ≤ rest.length)
    (space : List Char) (c : Char) : last.length < (space ++ c :: rest).length := by
  rw [List.length_append, List.length_cons]
  omega

theorem readsLists_items {items : Reader (List Json)} {members : Reader (List (String × Json))} :
    ReadsLists (readValueWith items members) (readItems (readValueWith items members))
      (readMoreItems (readValueWith items members)) ']' where
  stops := .cons (by decide) (by decide) (by decide)
  empty {space rest} spaces := by
    have front := skipSpace_append spaces (by decide : isSpace ']' = false) rest
    refine ⟨length_lt_append_cons (Nat.le_refl _) space ']', ?_⟩
    rw [readItems]
    split
    · next none => cases front.symm.trans none
    · next other =>
        cases front.symm.trans other
        rfl
  first reads readsOthers := by
    obtain ⟨c, tail, front, opens⟩ := exists_skipSpace_eq reads
    obtain ⟨shorter, read⟩ := reads
    obtain ⟨shortest, readOthers⟩ := readsOthers
    refine ⟨Nat.lt_trans shortest shorter, ?_⟩
    rw [readItems]
    split
    · next none => cases front.symm.trans none
    · next other =>
        cases front.symm.trans other
        simp only [opens, read, readOthers, if_false, Rest.widen]
  last {space rest} spaces := by
    have front := skipSpace_append spaces (by decide : isSpace ']' = false) rest
    refine ⟨length_lt_append_cons (Nat.le_refl _) space ']', ?_⟩
    rw [readMoreItems]
    split
    · next none => cases front.symm.trans none
    · next other =>
        cases front.symm.trans other
        rfl
  next {space input later rest value values} spaces reads readsOthers := by
    have front := skipSpace_append spaces (by decide : isSpace ',' = false) input
    obtain ⟨c, tail, start, opens⟩ := exists_skipSpace_eq reads
    obtain ⟨shorter, read⟩ := reads
    obtain ⟨shortest, readOthers⟩ := readsOthers
    refine ⟨length_lt_append_cons (Nat.le_of_lt (Nat.lt_trans shortest shorter)) space ',', ?_⟩
    rw [readMoreItems]
    split
    · next none => cases front.symm.trans none
    · next other =>
        cases front.symm.trans other
        simp only [start, opens, read, readOthers, Char.reduceEq, if_true, if_false, Rest.widen]

/-! ## Reading members -/

theorem accepts_memberForm {element : Reader Json} {Value : List Char → Json → Prop}
    (accepts : Accepts element Value) : Accepts (readMember element) (MemberForm Value) := by
  intro chars member form space rest spaces stops
  cases form with
  | @pair written before after chars name value form front back holds =>
      obtain ⟨shorter, read⟩ := accepts holds back stops
      obtain ⟨nameShorter, readName⟩ :=
        readChars_textForm form (before ++ ':' :: (after ++ (chars ++ rest)))
      have start := skipSpace_append spaces (by decide : isSpace '"' = false)
        (written ++ '"' :: (before ++ ':' :: (after ++ (chars ++ rest))))
      have colon := skipSpace_append front (by decide : isSpace ':' = false)
        (after ++ (chars ++ rest))
      simp only [List.cons_append, List.append_assoc]
      refine ⟨?_, ?_⟩
      · apply length_lt_append_cons
        apply Nat.le_of_lt (Nat.lt_trans _ nameShorter)
        exact length_lt_append_cons (Nat.le_of_lt shorter) before ':'
      · rw [readMember]
        split
        · next none => cases start.symm.trans none
        · next other =>
            cases start.symm.trans other
            simp only [readName, if_true]
            split
            · next none => cases colon.symm.trans none
            · next other =>
                cases colon.symm.trans other
                simp only [read, if_true, String.ofList_toList, Rest.widen]

/-- Every member starts with a quote. -/
theorem exists_skipSpace_eq_quote {element : Reader Json} {input rest : List Char}
    {member : String × Json} (reads : Reads (readMember element) input member rest) :
    ∃ tail, skipSpace input = '"' :: tail := by
  obtain ⟨shorter, read⟩ := reads
  rw [readMember] at read
  split at read
  · cases read
  · next c tail front =>
      by_cases quote : c = '"'
      · exact ⟨tail, quote ▸ front⟩
      · simp only [quote, if_false] at read
        cases read

theorem readsLists_members {element : Reader Json} :
    ReadsLists (readMember element) (readMembers element) (readMoreMembers element) '}' where
  stops := .cons (by decide) (by decide) (by decide)
  empty {space rest} spaces := by
    have front := skipSpace_append spaces (by decide : isSpace '}' = false) rest
    refine ⟨length_lt_append_cons (Nat.le_refl _) space '}', ?_⟩
    rw [readMembers]
    split
    · next none => cases front.symm.trans none
    · next other =>
        cases front.symm.trans other
        rfl
  first reads readsOthers := by
    obtain ⟨tail, front⟩ := exists_skipSpace_eq_quote reads
    obtain ⟨shorter, read⟩ := reads
    obtain ⟨shortest, readOthers⟩ := readsOthers
    refine ⟨Nat.lt_trans shortest shorter, ?_⟩
    rw [readMembers]
    split
    · next none => cases front.symm.trans none
    · next other =>
        cases front.symm.trans other
        simp only [read, readOthers, Char.reduceEq, if_false, Rest.widen]
  last {space rest} spaces := by
    have front := skipSpace_append spaces (by decide : isSpace '}' = false) rest
    refine ⟨length_lt_append_cons (Nat.le_refl _) space '}', ?_⟩
    rw [readMoreMembers]
    split
    · next none => cases front.symm.trans none
    · next other =>
        cases front.symm.trans other
        rfl
  next {space input later rest value values} spaces reads readsOthers := by
    have front := skipSpace_append spaces (by decide : isSpace ',' = false) input
    obtain ⟨shorter, read⟩ := reads
    obtain ⟨shortest, readOthers⟩ := readsOthers
    refine ⟨length_lt_append_cons (Nat.le_of_lt (Nat.lt_trans shortest shorter)) space ',', ?_⟩
    rw [readMoreMembers]
    split
    · next none => cases front.symm.trans none
    · next other =>
        cases front.symm.trans other
        simp only [read, readOthers, Char.reduceEq, if_true, if_false, Rest.widen]

/-! ## Reading all values -/

/-- Every text that stands for a value is read as that value. -/
theorem accepts_standsFor (depth : Nat) : Accepts (readValue depth) (StandsFor depth) := by
  induction depth with
  | zero => exact accepts_leafForm
  | succ depth inductionHypothesis =>
      intro chars value form space rest spaces stops
      cases form with
      | leaf form => exact accepts_leafForm form spaces stops
      | array form =>
          obtain ⟨items, members, equal⟩ := exists_readValue_eq depth
          rw [equal] at inductionHypothesis
          obtain ⟨shorter, read⟩ := readsLists_items.reads_bracketed inductionHypothesis form rest
          simp only [List.cons_append, List.append_assoc, List.nil_append, readValue, equal]
          exact readValueWith_append spaces (by decide)
            ⟨Nat.lt_succ_of_lt shorter, by simp [readValueFrom, read, Rest.widen]⟩
      | object form =>
          obtain ⟨shorter, read⟩ := readsLists_members.reads_bracketed
            (accepts_memberForm inductionHypothesis) form rest
          simp only [List.cons_append, List.append_assoc, List.nil_append, readValue]
          exact readValueWith_append spaces (by decide)
            ⟨Nat.lt_succ_of_lt shorter, by simp [readValueFrom, read, Rest.widen]⟩

/-- A document is read as what it stands for, whatever shape is asked for. -/
theorem ofTextAs_of_standsFor {α : Type} {written : String} {value : Json}
    (stands : StandsFor depthLimit written.toList value) (shape? : Json → Option α) :
    ofTextAs shape? written =
      match shape? value with
      | none => .error .mismatched
      | some result => .ok result := by
  have reads := accepts_standsFor depthLimit stands spaces_nil .nil
  rw [List.nil_append, List.append_nil] at reads
  obtain ⟨shorter, read⟩ := reads
  rw [ofTextAs, read]
  cases shape : shape? value with
  | none => simp only [shape]
  | some result => simp [shape, skipSpace]

end DiskWarden.Json
