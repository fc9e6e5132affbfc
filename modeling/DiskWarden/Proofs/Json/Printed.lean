import DiskWarden.Proofs.Json.RoundTrip

/-!
# Written values hold no control characters

Whatever a value holds, its written form on a line is free of control characters, and so of line
breaks.
-/

namespace DiskWarden.Json

/-- Whether a text holds no control character below the space. -/
def Printed (chars : List Char) : Prop := ∀ c ∈ chars, 32 ≤ c.toNat

theorem Printed.append {first last : List Char} (front : Printed first) (back : Printed last) :
    Printed (first ++ last) :=
  List.forall_mem_append.mpr ⟨front, back⟩

theorem Printed.cons {c : Char} {chars : List Char} (front : 32 ≤ c.toNat)
    (back : Printed chars) : Printed (c :: chars) :=
  List.forall_mem_cons.mpr ⟨front, back⟩

theorem Printed.flatMap {α : Type} {written : α → List Char} {list : List α}
    (all : ∀ next ∈ list, Printed (written next)) : Printed (list.flatMap written) := by
  intro c member
  obtain ⟨next, source, within⟩ := List.mem_flatMap.mp member
  exact all next source c within

theorem printed_nil : Printed [] := fun _ member => nomatch member

theorem printed_of_isDigit {digits : List Char} (all : ∀ c ∈ digits, c.isDigit = true) :
    Printed digits := by
  intro c member
  have digit := all c member
  simp only [Char.isDigit, Bool.and_eq_true, decide_eq_true_eq, UInt32.le_iff_toNat_le] at digit
  exact Nat.le_trans (by decide) digit.1

theorem printed_signedChars {parts : NumberParts} (legible : parts.Legible) :
    Printed parts.signedChars := by
  have fraction : Printed (fractionChars parts.fraction) := by
    cases digits : parts.fraction with
    | nil => exact printed_nil
    | cons c tail => exact .cons (by decide) (digits ▸ printed_of_isDigit legible.fraction)
  have exponent : Printed (exponentChars parts.exponent) := by
    cases parts.exponent with
    | none => exact printed_nil
    | some power =>
        refine .cons (by decide) (.cons ?_ (printed_of_isDigit fun _ => Text.isDigit_of_mem_toDigits))
        split <;> decide
  have chars : Printed parts.chars :=
    ((printed_of_isDigit legible.whole.1).append fraction).append exponent
  unfold NumberParts.signedChars NumberParts.signed
  split
  · exact .cons (by decide) chars
  · exact chars

theorem printed_null : Printed "null".toList := by simp [Printed]

theorem printed_floatText (value : Float) : Printed (floatText value).toList := by
  cases same : Decimal.Binary.ofFloat value with
  | finite negative mantissa exponent =>
      rw [toList_floatText same]
      exact printed_signedChars (legible_writtenParts _ _ _)
  | infinite negative =>
      rw [floatText, Decimal.Style.text?, same]
      exact printed_null
  | notANumber =>
      rw [floatText, Decimal.Style.text?, same]
      exact printed_null

theorem printed_quote (value : String) : Printed (quote value).toList := by
  have chars := toList_quote value []
  rw [List.append_nil] at chars
  rw [chars]
  refine .cons (by decide) (.append ?_ (.cons (by decide) printed_nil))
  exact Printed.flatMap fun source _ => le_toNat_of_mem_escapeChar source

theorem printed_leafText (value : Json) : Printed value.leafText.toList := by
  cases value with
  | null => exact printed_null
  | bool value => cases value <;> simp [Printed, leafText]
  | integer value =>
      rw [leafText, toList_toString_int]
      exact printed_signedChars (legible_integerParts value)
  | float value => exact printed_floatText value
  | text value => exact printed_quote value
  | array items => exact printed_nil
  | object members => exact printed_nil

theorem printed_compactItems {list : List Json}
    (all : ∀ item ∈ list, Printed item.compact.toList) : Printed (compactItems list).toList := by
  cases list with
  | nil => exact printed_nil
  | cons item list =>
      rw [List.forall_mem_cons] at all
      rw [toList_compactItems]
      apply Printed.append all.1
      apply Printed.flatMap
      intro next member
      exact .cons (by decide) (all.2 next member)

theorem printed_memberChars {entry : String × Json} (value : Printed entry.2.compact.toList) :
    Printed (memberChars entry) :=
  .append (printed_quote entry.1) (.cons (by decide) value)

theorem printed_compactMembers {list : List (String × Json)}
    (all : ∀ entry ∈ list, Printed entry.2.compact.toList) :
    Printed (compactMembers list).toList := by
  cases list with
  | nil => exact printed_nil
  | cons entry list =>
      rw [List.forall_mem_cons] at all
      rw [toList_compactMembers]
      apply Printed.append (printed_memberChars all.1)
      apply Printed.flatMap
      intro next member
      exact .cons (by decide) (printed_memberChars (all.2 next member))

mutual

theorem printed_compact : ∀ value : Json, Printed value.compact.toList
  | array list => by
      have chars := toList_compact_array list []
      rw [List.append_nil] at chars
      rw [chars]
      have items := printed_compactItems (forall_printed_items list)
      exact .cons (by decide) (.append items (.cons (by decide) printed_nil))
  | object list => by
      have chars := toList_compact_object list []
      rw [List.append_nil] at chars
      rw [chars]
      have members := printed_compactMembers (forall_printed_members list)
      exact .cons (by decide) (.append members (.cons (by decide) printed_nil))
  | null => printed_leafText null
  | bool value => printed_leafText (bool value)
  | integer value => printed_leafText (integer value)
  | float value => printed_leafText (float value)
  | text value => printed_leafText (text value)

theorem forall_printed_items : ∀ list : List Json, ∀ item ∈ list, Printed item.compact.toList
  | [] => fun _ member => nomatch member
  | item :: list => List.forall_mem_cons.mpr ⟨printed_compact item, forall_printed_items list⟩

theorem forall_printed_members :
    ∀ list : List (String × Json), ∀ entry ∈ list, Printed entry.2.compact.toList
  | [] => fun _ member => nomatch member
  | (_, value) :: list =>
      List.forall_mem_cons.mpr ⟨printed_compact value, forall_printed_members list⟩

end

end DiskWarden.Json
