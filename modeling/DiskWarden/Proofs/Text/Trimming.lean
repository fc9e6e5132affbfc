import DiskWarden.Text.Blank
import Mathlib.Data.List.DropRight
import Mathlib.Data.List.TakeWhile

/-!
# Texts without what surrounds them

A text is trimmed by dropping white space at both ends, and a line loses the carriage returns and
line feeds at its end.  Both ways are said here by what is kept and what is dropped, and each text
has one such rest.
-/

namespace DiskWarden.Text

/-- What is left of a text without the white space at both ends. -/
def Trims (whole kept : String) : Prop :=
  ∃ before after : String, whole = before ++ kept ++ after ∧
    (∀ c ∈ before.toList, isBlank c = true) ∧ (∀ c ∈ after.toList, isBlank c = true) ∧
    (∀ c ∈ kept.toList.head?, isBlank c = false) ∧
    ∀ c ∈ kept.toList.getLast?, isBlank c = false

/-- What is left of a text without the carriage returns and line feeds at its end. -/
def Strips (whole kept : String) : Prop :=
  ∃ breaks : String, whole = kept ++ breaks ∧
    (∀ c ∈ breaks.toList, c = '\r' ∨ c = '\n') ∧
    ∀ c ∈ kept.toList.getLast?, c ≠ '\r' ∧ c ≠ '\n'

/-! ## What is dropped at an end -/

section Ends

variable {test : Char → Bool} {kept dropped : List Char}

theorem dropWhile_append_of_head? (all : ∀ c ∈ dropped, test c = true)
    (none : ∀ c ∈ kept.head?, test c = false) : (dropped ++ kept).dropWhile test = kept := by
  rw [List.dropWhile_append_of_pos all]
  cases kept with
  | nil => rfl
  | cons c rest =>
      rw [List.dropWhile_cons_of_neg]
      rw [none c rfl]
      exact Bool.false_ne_true

/-- Only what passes is dropped, and all of it. -/
theorem rdropWhile_append (all : ∀ c ∈ dropped, test c = true)
    (none : ∀ c ∈ kept.getLast?, test c = false) : (kept ++ dropped).rdropWhile test = kept := by
  have behind : ∀ c ∈ dropped.reverse, test c = true :=
    fun c member => all c (List.mem_reverse.mp member)
  have front : ∀ c ∈ kept.reverse.head?, test c = false := by
    rw [List.head?_reverse]
    exact none
  rw [List.rdropWhile, List.reverse_append, dropWhile_append_of_head? behind front,
    List.reverse_reverse]

theorem of_head?_dropWhile {c : Char} (first : c ∈ (kept.dropWhile test).head?) :
    test c = false := by
  have stops := List.head?_dropWhile_not test kept
  rw [first] at stops
  simpa using stops

theorem of_getLast?_rdropWhile {c : Char} (last : c ∈ (kept.rdropWhile test).getLast?) :
    test c = false := by
  rw [List.rdropWhile, List.getLast?_reverse] at last
  exact of_head?_dropWhile last

end Ends

/-! ## Breaks at the end of a line -/

variable {whole kept : String}

/-- The characters that end a line. -/
def isLineEnd (c : Char) : Bool := c == '\r' || c == '\n'

theorem isLineEnd_iff (c : Char) : isLineEnd c = true ↔ c = '\r' ∨ c = '\n' := by
  simp [isLineEnd]

theorem isLineEnd_eq_false_iff (c : Char) : isLineEnd c = false ↔ c ≠ '\r' ∧ c ≠ '\n' := by
  simp [isLineEnd]

theorem isBlank_of_isLineEnd {c : Char} (lineEnd : isLineEnd c = true) : isBlank c = true := by
  rcases (isLineEnd_iff c).mp lineEnd with rfl | rfl <;> rfl

theorem toList_trimLineEnd (text : String) :
    (trimLineEnd text).toList = text.toList.rdropWhile isLineEnd :=
  String.toList_ofList

theorem strips_trimLineEnd (whole : String) : Strips whole (trimLineEnd whole) := by
  refine ⟨String.ofList (whole.toList.rtakeWhile isLineEnd), ?_, ?_, ?_⟩
  · rw [← String.toList_inj, String.toList_append, toList_trimLineEnd, String.toList_ofList,
      List.rdropWhile_append_rtakeWhile]
  · intro c member
    rw [String.toList_ofList] at member
    exact (isLineEnd_iff c).mp (List.mem_rtakeWhile_imp member)
  · intro c last
    rw [toList_trimLineEnd] at last
    exact (isLineEnd_eq_false_iff c).mp (of_getLast?_rdropWhile last)

theorem strips_iff : Strips whole kept ↔ trimLineEnd whole = kept := by
  constructor
  · rintro ⟨breaks, rfl, all, none⟩
    rw [← String.toList_inj, toList_trimLineEnd, String.toList_append]
    apply rdropWhile_append
    · exact fun c member => (isLineEnd_iff c).mpr (all c member)
    · exact fun c last => (isLineEnd_eq_false_iff c).mpr (none c last)
  · rintro rfl
    exact strips_trimLineEnd whole

/-! ## White space at both ends -/

theorem toList_trim (text : String) :
    (trim text).toList = (text.toList.dropWhile isBlank).rdropWhile isBlank :=
  String.toList_ofList

theorem trims_trim (whole : String) : Trims whole (trim whole) := by
  let behind := whole.toList.dropWhile isBlank
  have split : behind = (trim whole).toList ++ behind.rtakeWhile isBlank := by
    rw [toList_trim, List.rdropWhile_append_rtakeWhile]
  refine ⟨String.ofList (whole.toList.takeWhile isBlank),
    String.ofList (behind.rtakeWhile isBlank), ?_, ?_, ?_, ?_, ?_⟩
  · rw [← String.toList_inj, String.toList_append, String.toList_append, String.toList_ofList,
      String.toList_ofList, List.append_assoc, ← split, List.takeWhile_append_dropWhile]
  · intro c member
    rw [String.toList_ofList] at member
    exact List.mem_takeWhile_imp member
  · intro c member
    rw [String.toList_ofList] at member
    exact List.mem_rtakeWhile_imp member
  · intro c first
    have firstBehind : c ∈ behind.head? := by
      rw [split, List.head?_append, first]
      rfl
    exact of_head?_dropWhile firstBehind
  · intro c last
    rw [toList_trim] at last
    exact of_getLast?_rdropWhile last

theorem trims_iff : Trims whole kept ↔ trim whole = kept := by
  constructor
  · rintro ⟨before, after, rfl, blankBefore, blankAfter, opens, closes⟩
    rw [← String.toList_inj, toList_trim, String.toList_append, String.toList_append,
      List.append_assoc]
    cases letters : kept.toList with
    | nil =>
        -- there is nothing but white space
        have all : ∀ c ∈ before.toList ++ ([] ++ after.toList), isBlank c = true := by
          intro c member
          exact (List.mem_append.mp member).elim (blankBefore c) (blankAfter c)
        rw [List.dropWhile_eq_nil_iff.mpr all, List.rdropWhile_nil]
    | cons first rest =>
        rw [letters] at opens closes
        have front : ∀ c ∈ (first :: rest ++ after.toList).head?, isBlank c = false := opens
        rw [dropWhile_append_of_head? blankBefore front, rdropWhile_append blankAfter closes]
  · rintro rfl
    exact trims_trim whole

theorem trims_empty_iff : Trims whole "" ↔ isBlankText whole = true := by
  rw [isBlankText, List.all_eq_true]
  constructor
  · rintro ⟨before, after, rfl, blankBefore, blankAfter, -⟩ c member
    rw [String.append_empty, String.toList_append, List.mem_append] at member
    exact member.elim (blankBefore c) (blankAfter c)
  · intro all
    refine ⟨whole, "", ?_, all, ?_, ?_, ?_⟩
    · rw [String.append_empty, String.append_empty]
    all_goals exact fun c impossible => nomatch impossible

/-- The breaks at the end of a line are white space. -/
theorem trim_trimLineEnd (whole : String) : trim (trimLineEnd whole) = trim whole := by
  have ⟨breaks, whole_eq, lineEnds, _⟩ := strips_trimLineEnd whole
  have ⟨before, after, line_eq, blankBefore, blankAfter, opens, closes⟩ :=
    trims_trim (trimLineEnd whole)
  refine (trims_iff.mp ⟨before, after ++ breaks, ?_, blankBefore, ?_, opens, closes⟩).symm
  · rw [← String.append_assoc, ← line_eq]
    exact whole_eq
  · intro c member
    rw [String.toList_append, List.mem_append] at member
    refine member.elim (blankAfter c) fun lineEnd => isBlank_of_isLineEnd ?_
    exact (isLineEnd_iff c).mpr (lineEnds c lineEnd)

theorem trim_ne_empty (printed : isBlankText whole = false) : trim whole ≠ "" := by
  intro empty
  rw [trims_empty_iff.mp (trims_iff.mpr empty)] at printed
  cases printed

theorem trimLineEnd_ne_empty (printed : isBlankText whole = false) : trimLineEnd whole ≠ "" := by
  intro empty
  have trimmed := trim_trimLineEnd whole
  rw [empty] at trimmed
  exact trim_ne_empty printed trimmed.symm

end DiskWarden.Text
