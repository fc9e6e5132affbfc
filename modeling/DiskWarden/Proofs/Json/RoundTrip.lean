import DiskWarden.Proofs.Json.Grammar
import DiskWarden.Proofs.Json.Numbers

/-!
# Values that are read back

What is written of a value on one line is read as that value again, with every double replaced
by the one that its digits stand for.  Integers have to be in range, doubles finite, and brackets
must not open more levels than a reader allows.
-/

namespace DiskWarden.Json

mutual

/-- What the written form of a value is read back as. -/
def reread : Json → Json
  | float value => float (rereadFloat value)
  | array items => array (rereadItems items)
  | object members => object (rereadMembers members)
  | leaf => leaf

def rereadItems : List Json → List Json
  | [] => []
  | item :: items => reread item :: rereadItems items

def rereadMembers : List (String × Json) → List (String × Json)
  | [] => []
  | (name, value) :: members => (name, reread value) :: rereadMembers members

end

theorem rereadItems_eq_map (items : List Json) : rereadItems items = items.map reread := by
  induction items with
  | nil => rfl
  | cons item items inductionHypothesis =>
      rw [rereadItems, inductionHypothesis, List.map_cons]

theorem rereadMembers_eq_map (members : List (String × Json)) :
    rereadMembers members = members.map fun member => (member.1, reread member.2) := by
  induction members with
  | nil => rfl
  | cons member members inductionHypothesis =>
      rw [rereadMembers, inductionHypothesis, List.map_cons]

/-! ## Values that hold no others -/

theorem leafForm_number {parts : NumberParts} {value : Json} (legible : parts.Legible)
    (holds : parts.value? = some value) : LeafForm parts.signedChars value :=
  .number legible (powerForm_exponentChars parts.exponent) (NumberParts.hasValue_iff.mpr holds)

theorem leafForm_integer {n : Int} (inRange : InRange n) :
    LeafForm (integer n).compact.toList (integer n) := by
  rw [compact, leafText, toList_toString_int]
  · exact leafForm_number (legible_integerParts n) (value?_integerParts inRange)
  · nofun
  · nofun

theorem leafForm_float {x : Float} (finite : x.isFinite = true) :
    LeafForm (floatText x).toList (float (rereadFloat x)) := by
  obtain ⟨parts, back, legible, holds, chars⟩ := exists_floatText_eq finite
  have form : LeafForm (floatText x).toList (float back) := chars ▸ leafForm_number legible holds
  have same : rereadFloat x = back := by
    rw [rereadFloat, ofText, ofTextAs_of_standsFor (form.standsFor depthLimit)]
  rw [same]
  exact form

theorem leafForm_text (value : String) : LeafForm (quote value).toList (text value) := by
  have chars := toList_quote value []
  rw [List.append_nil] at chars
  rw [chars]
  exact .text (textForm_flatMap value.toList)

/-! ## Lists of values -/

/-- Parts behind the first one are written with a comma before each. -/
theorem listed_flatMap {α β : Type} {Part : List Char → β → Prop} {written : α → List Char}
    {back : α → β} {first : α} {list : List α}
    (parts : ∀ next ∈ first :: list, Part (written next) (back next)) :
    Listed Part (written first ++ list.flatMap fun next => ',' :: written next)
      ((first :: list).map back) := by
  induction list generalizing first with
  | nil => exact .last spaces_nil (parts first List.mem_cons_self) spaces_nil
  | cons next list inductionHypothesis =>
      rw [List.forall_mem_cons] at parts
      exact .more spaces_nil parts.1 spaces_nil (inductionHypothesis parts.2)

theorem toList_compact_array (list : List Json) (rest : List Char) :
    (array list).compact.toList ++ rest = '[' :: ((compactItems list).toList ++ ']' :: rest) := by
  simp [compact]

theorem toList_compactItems (item : Json) (list : List Json) :
    (compactItems (item :: list)).toList =
      item.compact.toList ++ list.flatMap fun next => ',' :: next.compact.toList := by
  induction list generalizing item with
  | nil => simp [compactItems]
  | cons next list inductionHypothesis =>
      rw [compactItems, String.toList_append, String.toList_append, inductionHypothesis]
      · simp
      · exact List.cons_ne_nil _ _

theorem bracketed_compactItems {Part : List Char → Json → Prop} {list : List Json}
    (parts : ∀ item ∈ list, Part item.compact.toList (reread item)) :
    Bracketed Part (compactItems list).toList (rereadItems list) := by
  rw [rereadItems_eq_map]
  cases list with
  | nil => exact .none spaces_nil
  | cons item list =>
      rw [toList_compactItems]
      exact .some (listed_flatMap parts)

/-- How a member is written. -/
def memberChars (entry : String × Json) : List Char :=
  (quote entry.1).toList ++ ':' :: entry.2.compact.toList

theorem toList_compact_object (list : List (String × Json)) (rest : List Char) :
    (object list).compact.toList ++ rest =
      '{' :: ((compactMembers list).toList ++ '}' :: rest) := by
  simp [compact]

theorem toList_compactMembers (entry : String × Json) (list : List (String × Json)) :
    (compactMembers (entry :: list)).toList =
      memberChars entry ++ list.flatMap fun next => ',' :: memberChars next := by
  induction list generalizing entry with
  | nil => simp [compactMembers, memberChars]
  | cons next list inductionHypothesis =>
      rw [compactMembers, String.toList_append, String.toList_append, inductionHypothesis]
      · simp [memberChars]
      · exact List.cons_ne_nil _ _

theorem memberForm_memberChars {Value : List Char → Json → Prop} {entry : String × Json}
    {back : Json} (holds : Value entry.2.compact.toList back) :
    MemberForm Value (memberChars entry) (entry.1, back) := by
  rw [memberChars, toList_quote]
  exact .pair (textForm_flatMap entry.1.toList) spaces_nil spaces_nil holds

theorem bracketed_compactMembers {Value : List Char → Json → Prop}
    {list : List (String × Json)}
    (values : ∀ entry ∈ list, Value entry.2.compact.toList (reread entry.2)) :
    Bracketed (MemberForm Value) (compactMembers list).toList (rereadMembers list) := by
  have parts : ∀ entry ∈ list, MemberForm Value (memberChars entry) (entry.1, reread entry.2) :=
    fun entry member => memberForm_memberChars (values entry member)
  rw [rereadMembers_eq_map]
  cases list with
  | nil => exact .none spaces_nil
  | cons entry list =>
      rw [toList_compactMembers]
      exact .some (listed_flatMap parts)

/-! ## All values -/

/-- Whether a value can be written and read back, where brackets may open `depth` levels. -/
def Rereadable : Nat → Json → Prop
  | _, integer value => InRange value
  | _, float value => value.isFinite = true
  | 0, array _ | 0, object _ => False
  | depth + 1, array items => ∀ item ∈ items, Rereadable depth item
  | depth + 1, object members => ∀ entry ∈ members, Rereadable depth entry.2
  | _, _ => True

/-- What is written of a value stands for it, its doubles aside. -/
theorem standsFor_compact {depth : Nat} {value : Json} (rereadable : Rereadable depth value) :
    StandsFor depth value.compact.toList (reread value) := by
  match depth, value with
  | depth, null => exact LeafForm.null.standsFor depth
  | depth, bool true => exact LeafForm.yes.standsFor depth
  | depth, bool false => exact LeafForm.no.standsFor depth
  | depth, text value => exact (leafForm_text value).standsFor depth
  | depth, integer value =>
      have inRange : InRange value := by simpa only [Rereadable] using rereadable
      exact (leafForm_integer inRange).standsFor depth
  | depth, float value =>
      have finite : value.isFinite = true := by simpa only [Rereadable] using rereadable
      exact (leafForm_float finite).standsFor depth
  | depth + 1, array list =>
      have form := bracketed_compactItems fun item member =>
        standsFor_compact (rereadable item member)
      have chars := toList_compact_array list []
      rw [List.append_nil] at chars
      rw [chars]
      exact .array form
  | depth + 1, object list =>
      have form := bracketed_compactMembers fun entry member =>
        standsFor_compact (rereadable entry member)
      have chars := toList_compact_object list []
      rw [List.append_nil] at chars
      rw [chars]
      exact .object form

/-- A written value is read back with its doubles reread, whatever shape is asked for. -/
theorem ofTextAs_compact {α : Type} {value : Json} (rereadable : Rereadable depthLimit value)
    (shape? : Json → Option α) :
    ofTextAs shape? value.compact =
      match shape? (reread value) with
      | none => .error .mismatched
      | some result => .ok result :=
  ofTextAs_of_standsFor (standsFor_compact rereadable) shape?

end DiskWarden.Json
