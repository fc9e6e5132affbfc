import DiskWarden.Proofs.Toml.Values

/-!
# Lines that are read back

A document is read line by line: empty lines and comments give nothing, a header or an assignment
gives a statement.  Lines of a text can therefore be read one after the other, whatever follows
them.
-/

namespace DiskWarden.Toml

/-! ## Blocks of lines -/

/-- The statements that are read from an input. -/
def ReadsAs (input : List Char) (statements : List Statement) : Prop :=
  ∀ fuel, input.length < fuel → readStatements fuel input = some statements

/-- Lines that give some statements, before whatever follows them. -/
def IsBlock (lines : List Char) (statements : List Statement) : Prop :=
  ∀ rest later, ReadsAs rest later → ReadsAs (lines ++ rest) (statements ++ later)

theorem readsAs_nil : ReadsAs [] [] := by
  intro fuel enough
  obtain ⟨fuel, rfl⟩ : ∃ left, fuel = left + 1 := ⟨fuel - 1, by omega⟩
  rfl

theorem isBlock_nil : IsBlock [] [] := fun _ _ reads => reads

theorem IsBlock.append {first second : List Char} {statements statements' : List Statement}
    (block : IsBlock first statements) (block' : IsBlock second statements') :
    IsBlock (first ++ second) (statements ++ statements') := by
  intro rest later reads
  rw [List.append_assoc, List.append_assoc]
  exact block _ _ (block' rest later reads)

theorem isBlock_flatMap {α : Type} {items : List α} {lines : α → List Char}
    {statement : α → Statement} (blocks : ∀ item ∈ items, IsBlock (lines item) [statement item]) :
    IsBlock (items.flatMap lines) (items.map statement) := by
  induction items with
  | nil => exact isBlock_nil
  | cons item items inductionHypothesis =>
      obtain ⟨first, later⟩ := List.forall_mem_cons.mp blocks
      exact first.append (inductionHypothesis later)

theorem IsBlock.readsAs {lines : List Char} {statements : List Statement}
    (block : IsBlock lines statements) : ReadsAs lines statements := by
  have reads := block [] [] readsAs_nil
  rwa [List.append_nil, List.append_nil] at reads

/-! ## Lines without statements -/

/-- A line that ends in front gives no statement. -/
theorem isBlock_of_endLine? {line : List Char}
    (ends : ∀ rest, skipSpace (line ++ '\n' :: rest) ≠ [] ∧
      endLine? (skipSpace (line ++ '\n' :: rest)) = some rest) :
    IsBlock (line ++ ['\n']) [] := by
  intro rest later reads fuel enough
  obtain ⟨fuel, rfl⟩ : ∃ left, fuel = left + 1 := ⟨fuel - 1, by omega⟩
  obtain ⟨some', left⟩ := ends rest
  rw [List.append_assoc, List.singleton_append] at enough ⊢
  rw [readStatements]
  split
  · next same => exact absurd same some'
  · rw [left]
    refine reads fuel ?_
    rw [List.length_append, List.length_cons] at enough
    omega

theorem isBlock_blank : IsBlock ['\n'] [] := by
  change IsBlock ([] ++ ['\n']) []
  exact isBlock_of_endLine? fun _ => ⟨nofun, rfl⟩

theorem isBlock_comment {comment : List Char} (printable : ∀ c ∈ comment, isPrintable c = true) :
    IsBlock ('#' :: comment ++ ['\n']) [] := by
  refine isBlock_of_endLine? fun rest => ⟨nofun, ?_⟩
  have skipped : (comment ++ '\n' :: rest).dropWhile isPrintable = '\n' :: rest := by
    rw [List.dropWhile_append_of_pos printable, List.dropWhile_cons_of_neg (by decide)]
  have skipped' : skipComment (skipSpace (skipSpace ('#' :: comment ++ '\n' :: rest))) =
      '\n' :: rest := skipped
  rw [endLine?, skipped']
  rfl

/-! ## Lines with a statement -/

theorem skipSpace_cons {c : Char} (starts : StartsValue c) (rest : List Char) :
    skipSpace (c :: rest) = c :: rest :=
  List.dropWhile_cons_of_neg (by rw [starts.isSpace]; exact Bool.false_ne_true)

/-- A line with a statement is read as one. -/
theorem isBlock_of_readStatement {line : List Char} {statement : Statement}
    (starts : ∃ c later, line = c :: later ∧ c ∉ [' ', '\t', '\n', '\r', '#'])
    (read : ∀ rest, readStatement (line ++ '\n' :: rest) = some (statement, rest)) :
    IsBlock (line ++ ['\n']) [statement] := by
  intro rest later reads fuel enough
  obtain ⟨fuel, rfl⟩ : ∃ left, fuel = left + 1 := ⟨fuel - 1, by omega⟩
  rw [List.append_assoc, List.singleton_append] at enough ⊢
  have behind := reads fuel (by rw [List.length_append, List.length_cons] at enough; omega)
  have parsed := read rest
  obtain ⟨c, front, rfl, solid⟩ := starts
  simp only [List.mem_cons, List.not_mem_nil, or_false, not_or] at solid
  obtain ⟨noSpace, noTab, noFeed, noReturn, noComment⟩ := solid
  rw [List.cons_append] at parsed ⊢
  have kept : skipSpace (c :: (front ++ '\n' :: rest)) = c :: (front ++ '\n' :: rest) :=
    List.dropWhile_cons_of_neg (by simp [isSpace, noSpace, noTab])
  have noComment : skipComment (c :: (front ++ '\n' :: rest)) = c :: (front ++ '\n' :: rest) := by
    rw [skipComment]
    exact fun _ same => noComment (List.cons.inj same).1
  have full : endLine? (c :: (front ++ '\n' :: rest)) = none := by
    rw [endLine?, kept, noComment]
    exact dropLineBreak?_cons noFeed noReturn _
  rw [readStatements, kept]
  simp only [full, parsed]
  change (readStatements fuel rest).bind (fun statements => some (statement :: statements)) = _
  rw [behind]
  rfl

/-! ## Keys -/

theorem startsValue_of_isBareKeyChar {c : Char} (bare : isBareKeyChar c = true) :
    StartsValue c := by
  have all : ∀ c ∈ frontMarks, isBareKeyChar c = false := by
    simp [frontMarks, byteOrderMark, isBareKeyChar]
  intro member
  rw [all c member] at bare
  cases bare

theorem exists_keyText_eq_cons (key : String) :
    ∃ c rest, (keyText key).toList = c :: rest ∧ StartsValue c := by
  unfold keyText
  by_cases bare : (key.toList ≠ [] && key.toList.all isBareKeyChar) = true
  · rw [if_pos bare]
    rw [Bool.and_eq_true, decide_eq_true_eq, List.all_eq_true] at bare
    obtain ⟨c, rest, same⟩ := List.exists_cons_of_ne_nil bare.1
    refine ⟨c, rest, same, startsValue_of_isBareKeyChar (bare.2 c ?_)⟩
    rw [same]
    exact List.mem_cons_self
  · rw [if_neg bare]
    split
    · exact ⟨'\'', _, by rw [String.toList_ofList]; rfl, by decide⟩
    · exact ⟨'"', _, by rw [String.toList_ofList]; rfl, by decide⟩

theorem exists_joinWith_eq_cons (key : String) (keys : List String) :
    ∃ c rest, (Text.joinWith "." ((key :: keys).map keyText)).toList = c :: rest ∧
      StartsValue c := by
  obtain ⟨c, front, same, starts⟩ := exists_keyText_eq_cons key
  cases keys with
  | nil => exact ⟨c, front, same, starts⟩
  | cons next keys =>
      have split : Text.joinWith "." ((key :: next :: keys).map keyText) =
          keyText key ++ "." ++ Text.joinWith "." ((next :: keys).map keyText) := rfl
      rw [split, String.toList_append, String.toList_append, same]
      exact ⟨c, _, rfl, starts⟩

/-- What follows the keys of a path. -/
structure EndsKeys (rest behind : List Char) : Prop where
  ends : ∀ c ∈ rest.head?, isBareKeyChar c = false
  skipped : skipSpace rest = behind
  noPoint : behind.head? ≠ some '.'

theorem readKeys_last {key : String} {rest behind : List Char} (ends : EndsKeys rest behind)
    (fuel : Nat) : readKeys (fuel + 1) ((keyText key).toList ++ rest) = some ([key], behind) := by
  have read := readKey_keyText key ends.ends
  obtain ⟨c, later, same, starts⟩ := exists_keyText_eq_cons key
  rw [same, List.cons_append] at read ⊢
  rw [readKeys, skipSpace_cons starts, read, Option.bind_eq_bind, Option.bind_some]
  simp only [ends.skipped]
  have noPoint := ends.noPoint
  split
  · exact absurd rfl noPoint
  · rfl

theorem readKeys_joinWith (key : String) {keys : List String} {rest behind : List Char}
    (ends : EndsKeys rest behind) {fuel : Nat} (enough : keys.length < fuel) :
    readKeys fuel ((Text.joinWith "." ((key :: keys).map keyText)).toList ++ rest) =
      some (key :: keys, behind) := by
  induction keys generalizing key fuel with
  | nil =>
      obtain ⟨fuel, rfl⟩ : ∃ left, fuel = left + 1 := ⟨fuel - 1, by omega⟩
      exact readKeys_last ends fuel
  | cons next keys inductionHypothesis =>
      obtain ⟨fuel, rfl⟩ : ∃ left, fuel = left + 1 := ⟨fuel - 1, by omega⟩
      have point : ".".toList = ['.'] := by simp
      have split : (Text.joinWith "." ((key :: next :: keys).map keyText)).toList ++ rest =
          (keyText key).toList ++
            '.' :: ((Text.joinWith "." ((next :: keys).map keyText)).toList ++ rest) := by
        simp only [List.map_cons, Text.joinWith, String.toList_append, point, List.append_assoc,
          List.cons_append, List.nil_append]
      have later := inductionHypothesis next (Nat.lt_of_succ_lt_succ enough)
      have first : readKey ((keyText key).toList ++
          '.' :: ((Text.joinWith "." ((next :: keys).map keyText)).toList ++ rest)) =
          some (key, '.' :: ((Text.joinWith "." ((next :: keys).map keyText)).toList ++ rest)) :=
        readKey_keyText key fun c same => by cases same; rfl
      rw [split]
      obtain ⟨c, front, same, starts⟩ := exists_keyText_eq_cons key
      rw [same, List.cons_append] at first ⊢
      rw [readKeys, skipSpace_cons starts, first, Option.bind_eq_bind, Option.bind_some]
      change (readKeys fuel ((Text.joinWith "." ((next :: keys).map keyText)).toList ++ rest)).bind
        (fun read => some (key :: read.1, read.2)) = _
      rw [later, Option.bind_some]

/-! ## Headers and assignments -/

/-- The header of a table is read back. -/
theorem isBlock_header {path : List String} (some' : path ≠ []) (short : path.length < keyPathLimit) :
    IsBlock ("[" ++ Text.joinWith "." (path.map keyText) ++ "]\n").toList [.header path] := by
  obtain ⟨key, keys, rfl⟩ := List.exists_cons_of_ne_nil some'
  have opening : "[".toList = ['['] := by simp
  have closing : "]\n".toList = [']', '\n'] := by simp
  have split : ("[" ++ Text.joinWith "." ((key :: keys).map keyText) ++ "]\n").toList =
      '[' :: ((Text.joinWith "." ((key :: keys).map keyText)).toList ++ [']']) ++ ['\n'] := by
    simp only [String.toList_append, opening, closing, List.append_assoc, List.cons_append,
      List.nil_append]
  rw [split]
  refine isBlock_of_readStatement ⟨_, _, rfl, by decide⟩ fun rest => ?_
  have ends : EndsKeys (']' :: '\n' :: rest) (']' :: '\n' :: rest) :=
    ⟨fun c same => by cases same; rfl, rfl, by simp⟩
  have few : keys.length < keyPathLimit - 1 := Nat.lt_sub_of_add_lt short
  have read := readKeys_joinWith key ends few
  obtain ⟨c, front, same, starts⟩ := exists_joinWith_eq_cons key keys
  have noBracket : c ≠ '[' := starts.ne (by decide)
  simp only [List.cons_append, List.append_assoc, List.nil_append]
  rw [same, List.cons_append] at read ⊢
  rw [readStatement, readKeyPath, read]
  · rfl
  · exact fun _ same => noBracket (List.cons.inj same).1

theorem readAssignment_key (key : String) {element : Reader Toml} {written rest : List Char}
    {value : Toml} (solid : skipSpace (written ++ rest) = written ++ rest)
    (read : element (written ++ rest) = some (value, rest)) :
    readAssignment element ((keyText key).toList ++ ' ' :: '=' :: ' ' :: (written ++ rest)) =
      some (([key], value), skipSpace rest) := by
  have ends : EndsKeys (' ' :: '=' :: ' ' :: (written ++ rest)) ('=' :: ' ' :: (written ++ rest)) :=
    ⟨fun c same => by cases same; rfl, rfl, by simp⟩
  have path : readKeyPath ((keyText key).toList ++ ' ' :: '=' :: ' ' :: (written ++ rest)) =
      some ([key], '=' :: ' ' :: (written ++ rest)) := readKeys_last ends (keyPathLimit - 2)
  have space : skipSpace (' ' :: (written ++ rest)) = written ++ rest := solid
  rw [readAssignment, path]
  change (element (skipSpace (' ' :: (written ++ rest)))).bind
    (fun read => some (([key], read.1), skipSpace read.2)) = _
  rw [space, read, Option.bind_some]

/-- An assignment to one key is read back, if its value is. -/
theorem isBlock_assignment (key : String) {written : List Char} {value : Toml}
    (solid : ∀ rest, skipSpace (written ++ rest) = written ++ rest)
    (reads : ∀ rest, EndsValue rest → readValue depthLimit (written ++ rest) = some (value, rest)) :
    IsBlock ((keyText key).toList ++ " = ".toList ++ written ++ ['\n'])
      [.assignment [key] value] := by
  have equals : " = ".toList = [' ', '=', ' '] := by simp
  obtain ⟨c, front, same, starts⟩ := exists_keyText_eq_cons key
  have noBracket : c ≠ '[' := starts.ne (by decide)
  refine isBlock_of_readStatement ⟨c, front ++ " = ".toList ++ written, by rw [same]; simp,
    starts.solid⟩ fun rest => ?_
  have split : (keyText key).toList ++ " = ".toList ++ written ++ '\n' :: rest =
      (keyText key).toList ++ ' ' :: '=' :: ' ' :: (written ++ '\n' :: rest) := by
    simp only [equals, List.append_assoc, List.cons_append, List.nil_append]
  have parsed := readAssignment_key key (solid ('\n' :: rest))
    (reads ('\n' :: rest) (endsValue_cons (by decide) rest))
  rw [split]
  rw [same, List.cons_append] at parsed ⊢
  rw [readStatement]
  · rw [parsed]
    rfl
  · exact fun _ same => noBracket (List.cons.inj same).1
  · exact fun _ same => noBracket (List.cons.inj same).1

/-- An assignment on one line is read back. -/
theorem isBlock_inline (key : String) {value : Toml} (leaf : IsLeaf value) :
    IsBlock (keyText key ++ " = " ++ inline value ++ "\n").toList [.assignment [key] value] := by
  have feed : "\n".toList = ['\n'] := by simp
  rw [String.toList_append, String.toList_append, String.toList_append, feed]
  exact isBlock_assignment key leaf.skipSpace_inline fun rest ends =>
    leaf.readsInline (depthLimit - 1) ends

/-! ## Documents -/

theorem ofText?_eq {text : String} (noMark : text.toList.head? ≠ some byteOrderMark) :
    ofText? text = (readStatements (text.toList.length + 1) text.toList).bind ofStatements? := by
  unfold ofText?
  generalize text.toList = chars at noMark
  cases chars with
  | nil => rfl
  | cons c rest =>
      have kept : c ≠ byteOrderMark := fun same => noMark (congrArg some same)
      simp only [if_neg kept]

theorem ofText?_of_readsAs {text : String} {statements : List Statement}
    (reads : ReadsAs text.toList statements) (noMark : text.toList.head? ≠ some byteOrderMark) :
    ofText? text = ofStatements? statements := by
  rw [ofText?_eq noMark, reads _ (Nat.lt_succ_self _), Option.bind_some]

/-! ## Sections -/

namespace Section

/-- The statements that the lines of a section write. -/
def statements (part : Section) : List Statement :=
  (if part.path = [] then [] else [.header part.path]) ++
    part.leaves.map fun leaf => .assignment [leaf.1] leaf.2

/-- A section that is read back: its header is short enough, and its members are no tables. -/
structure IsLegible (part : Section) : Prop where
  short : part.path.length < keyPathLimit
  leaves : ∀ leaf ∈ part.leaves, IsLeaf leaf.2
  written : part.path ≠ [] ∨ part.leaves ≠ []

theorem isBlock_leafText {leaf : String × Toml} (isLeaf : IsLeaf leaf.2) :
    IsBlock (leafText leaf).toList [.assignment [leaf.1] leaf.2] := by
  have feed : "\n".toList = ['\n'] := by simp
  rw [leafText, String.toList_append, String.toList_append, String.toList_append, feed]
  exact isBlock_assignment leaf.1 isLeaf.skipSpace_valueText fun rest ends =>
    isLeaf.readsValue (depthLimit - 1) ends

theorem isBlock_write {part : Section} (legible : part.IsLegible) :
    IsBlock part.write.toList part.statements := by
  have header : IsBlock part.headerText.toList
      (if part.path = [] then [] else [.header part.path]) := by
    by_cases root : part.path = []
    · rw [headerText, if_pos root, if_pos root]
      exact isBlock_nil
    · rw [headerText, if_neg root, if_neg root]
      exact isBlock_header root legible.short
  have leaves : IsBlock (part.leaves.flatMap fun leaf => (leafText leaf).toList)
      (part.leaves.map fun leaf => .assignment [leaf.1] leaf.2) :=
    isBlock_flatMap fun leaf member => isBlock_leafText (legible.leaves leaf member)
  rw [write, String.toList_append, String.toList_join, List.flatMap_map]
  exact header.append leaves

/-- Sections with an empty line between each two are read back. -/
theorem isBlock_joinWith {parts : List Section} (legible : ∀ part ∈ parts, part.IsLegible) :
    IsBlock (Text.joinWith "\n" (parts.map write)).toList (parts.flatMap statements) := by
  induction parts with
  | nil => exact isBlock_nil
  | cons part parts inductionHypothesis =>
      obtain ⟨first, later⟩ := List.forall_mem_cons.mp legible
      have block := isBlock_write first
      cases parts with
      | nil =>
          rw [List.flatMap_cons, List.flatMap_nil, List.append_nil]
          exact block
      | cons next parts =>
          have feed : "\n".toList = ['\n'] := by simp
          have split : Text.joinWith "\n" ((part :: next :: parts).map write) =
              part.write ++ "\n" ++ Text.joinWith "\n" ((next :: parts).map write) := rfl
          rw [split, String.toList_append, String.toList_append, feed, List.flatMap_cons,
            List.append_assoc]
          exact block.append (isBlock_blank.append (inductionHypothesis later))

/-- A section starts with a header or with a key, and so with no mark before a document. -/
theorem IsLegible.exists_write_eq_cons {part : Section} (legible : part.IsLegible) :
    ∃ c later, part.write.toList = c :: later ∧ c ≠ byteOrderMark := by
  by_cases root : part.path = []
  · obtain ⟨leaf, leaves, same⟩ := List.exists_cons_of_ne_nil
      (legible.written.resolve_left (not_not_intro root))
    obtain ⟨c, later, front, starts⟩ := exists_keyText_eq_cons leaf.1
    have split : part.write.toList = (keyText leaf.1).toList ++
        ((" = " ++ valueText leaf.2 ++ "\n").toList ++ (String.join (leaves.map leafText)).toList) := by
      rw [write, headerText, if_pos root, same, List.map_cons, String.join_cons, leafText]
      simp only [String.toList_append, String.toList_empty, List.append_assoc, List.nil_append]
    rw [split, front]
    exact ⟨c, _, rfl, starts.ne (by decide)⟩
  · have opening : "[".toList = ['['] := by simp
    rw [write, headerText, if_neg root]
    simp only [String.toList_append, opening, List.append_assoc]
    exact ⟨'[', _, rfl, by decide⟩

/-- The text of some sections is read as their statements. -/
theorem ofText?_joinWith {parts : List Section} (legible : ∀ part ∈ parts, part.IsLegible) :
    ofText? (Text.joinWith "\n" (parts.map write)) = ofStatements? (parts.flatMap statements) := by
  refine ofText?_of_readsAs (isBlock_joinWith legible).readsAs ?_
  cases parts with
  | nil => simp [Text.joinWith]
  | cons part parts =>
      obtain ⟨c, later, same, noMark⟩ :=
        (legible part List.mem_cons_self).exists_write_eq_cons
      have front : ∃ later, (Text.joinWith "\n" ((part :: parts).map write)).toList = c :: later := by
        cases parts with
        | nil => exact ⟨later, same⟩
        | cons next parts =>
            have split : Text.joinWith "\n" ((part :: next :: parts).map write) =
                part.write ++ "\n" ++ Text.joinWith "\n" ((next :: parts).map write) := rfl
            rw [split, String.toList_append, String.toList_append, same]
            exact ⟨_, rfl⟩
      obtain ⟨behind, whole⟩ := front
      rw [whole]
      exact fun same => noMark (Option.some.inj same)

end Section

end DiskWarden.Toml
