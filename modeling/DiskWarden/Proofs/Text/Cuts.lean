import DiskWarden.Proofs.Text.Lines
import DiskWarden.Proofs.Text.Trimming

/-!
# Inputs cut into lines

An input is made up of its lines in one way: each ends with the first line feed behind its start,
and the last may go without one.  Readers that take a line after the other go through these lines
from left to right.
-/

namespace DiskWarden.Text

/-- The lines that make up an input, with the line feeds that end them. -/
inductive Cuts : Octets → List Octets → Prop
  | nothing : Cuts [] []
  | last {line : Octets} (nonempty : line ≠ []) (unbroken : 0x0A ∉ line) : Cuts line [line]
  | line {body rest : Octets} {lines : List Octets} (unbroken : 0x0A ∉ body)
      (later : Cuts rest lines) : Cuts (body ++ 0x0A :: rest) ((body ++ [0x0A]) :: lines)

/-- What a line holds in front of the carriage returns and line feeds at its end. -/
def Holds (line : Octets) (text : String) : Prop :=
  ∃ breaks : String, decode? line = some (text ++ breaks) ∧
    (∀ c ∈ breaks.toList, c = '\r' ∨ c = '\n') ∧
    ∀ c ∈ text.toList.getLast?, c ≠ '\r' ∧ c ≠ '\n'

variable {input line later : Octets} {lines : List Octets}

/-! ## Every input has its lines -/

/-- Octets without a line feed belong to the first of the lines behind them. -/
theorem Cuts.prepend {front : Octets} (nonempty : front ≠ []) (unbroken : 0x0A ∉ front)
    (cuts : Cuts input lines) :
    Cuts (front ++ input) ((front ++ lines.headD []) :: lines.tail) := by
  cases cuts with
  | nothing =>
      rw [List.headD_nil, List.append_nil]
      exact .last nonempty unbroken
  | last _ unbroken' =>
      refine .last (List.append_ne_nil_of_left_ne_nil nonempty _) fun member => ?_
      exact (List.mem_append.mp member).elim unbroken unbroken'
  | @line body rest lines unbroken' later =>
      rw [List.headD_cons, List.tail_cons, ← List.append_assoc, ← List.append_assoc]
      refine .line (fun member => ?_) later
      exact (List.mem_append.mp member).elim unbroken unbroken'

theorem exists_cuts (input : Octets) : ∃ lines, Cuts input lines := by
  induction input with
  | nil => exact ⟨[], .nothing⟩
  | cons octet rest inductionHypothesis =>
      have ⟨lines, cuts⟩ := inductionHypothesis
      by_cases feed : octet = 0x0A
      · subst feed
        exact ⟨_, @Cuts.line [] rest lines List.not_mem_nil cuts⟩
      · have unbroken : 0x0A ∉ [octet] := fun member => feed (List.mem_singleton.mp member).symm
        exact ⟨_, cuts.prepend (List.cons_ne_nil _ _) unbroken⟩

/-! ## Taking a line -/

theorem takeLine_of_unbroken (nonempty : line ≠ []) (unbroken : 0x0A ∉ line) :
    takeLine line = some (line, []) := by
  induction line with
  | nil => exact absurd rfl nonempty
  | cons octet rest inductionHypothesis =>
      rw [List.mem_cons, not_or] at unbroken
      rw [takeLine, if_neg (Ne.symm unbroken.1)]
      cases rest with
      | nil => rfl
      | cons next rest => rw [inductionHypothesis (List.cons_ne_nil _ _) unbroken.2]

theorem Cuts.takeLine_nil (cuts : Cuts input []) : takeLine input = none := by
  cases cuts with
  | nothing => rfl

theorem Cuts.takeLine_cons (cuts : Cuts input (line :: lines)) :
    ∃ later, takeLine input = some (line, later) ∧ Cuts later lines := by
  cases cuts with
  | last nonempty unbroken => exact ⟨[], takeLine_of_unbroken nonempty unbroken, .nothing⟩
  | @line body rest _ unbroken later => exact ⟨rest, takeLine_append_cons unbroken rest, later⟩

/-- An input is made up of its lines in one way only. -/
theorem Cuts.unique {other : List Octets} (cuts : Cuts input lines) (cuts' : Cuts input other) :
    lines = other := by
  induction lines generalizing input other with
  | nil =>
      cases other with
      | nil => rfl
      | cons line other =>
          have ⟨later, taken, _⟩ := cuts'.takeLine_cons
          rw [cuts.takeLine_nil] at taken
          cases taken
  | cons line lines inductionHypothesis =>
      have ⟨later, taken, cutsLater⟩ := cuts.takeLine_cons
      cases other with
      | nil =>
          rw [cuts'.takeLine_nil] at taken
          cases taken
      | cons line' other =>
          have ⟨later', taken', cutsLater'⟩ := cuts'.takeLine_cons
          rw [taken, Option.some.injEq, Prod.mk.injEq] at taken'
          rw [← taken'.2] at cutsLater'
          rw [taken'.1, inductionHypothesis cutsLater cutsLater']

theorem Cuts.lines_eq (cuts : Cuts input lines) : Text.lines input = lines.map stripLineBreak := by
  induction lines generalizing input with
  | nil =>
      have taken := cuts.takeLine_nil
      rw [Text.lines]
      split
      · rfl
      · next found =>
          rw [taken] at found
          cases found
  | cons line lines inductionHypothesis =>
      have ⟨later, taken, cutsLater⟩ := cuts.takeLine_cons
      rw [Text.lines]
      split
      · next none =>
          rw [taken] at none
          cases none
      · next found =>
          rw [taken] at found
          cases found
          rw [inductionHypothesis cutsLater, List.map_cons]

/-- An input that ends with a line feed, or is empty, ends between two lines. -/
theorem Cuts.append {more : Octets} {others : List Octets} (cuts : Cuts input lines)
    (ended : ∀ octet ∈ input.getLast?, octet = 0x0A) (cuts' : Cuts more others) :
    Cuts (input ++ more) (lines ++ others) := by
  induction cuts with
  | nothing => exact cuts'
  | last nonempty unbroken =>
      have feed := ended _ (List.getLast?_eq_some_getLast nonempty)
      exact absurd (feed ▸ List.getLast_mem nonempty) unbroken
  | @line body rest lines unbroken later inductionHypothesis =>
      rw [List.append_assoc, List.cons_append, List.cons_append]
      refine .line unbroken (inductionHypothesis fun octet last => ended octet ?_)
      rw [Option.mem_def] at last ⊢
      rw [List.getLast?_append, List.getLast?_cons, last]
      rfl

theorem lines_append (ended : ∀ octet ∈ input.getLast?, octet = 0x0A) (more : Octets) :
    Text.lines (input ++ more) = Text.lines input ++ Text.lines more := by
  have ⟨lines, cuts⟩ := exists_cuts input
  have ⟨others, cuts'⟩ := exists_cuts more
  rw [cuts.lines_eq, cuts'.lines_eq, (cuts.append ended cuts').lines_eq, List.map_append]

/-! ## What a line holds -/

/-- A line that is a text holds it without the breaks at its end. -/
theorem holds_iff {text : String} :
    Holds line text ↔ (decode? line).map trimLineEnd = some text := by
  constructor
  · rintro ⟨breaks, decoded, all, none⟩
    rw [decoded, Option.map_some, strips_iff.mp ⟨breaks, rfl, all, none⟩]
  · intro trimmed
    rw [Option.map_eq_some_iff] at trimmed
    obtain ⟨whole, decoded, rfl⟩ := trimmed
    obtain ⟨breaks, whole_eq, all, none⟩ := strips_trimLineEnd whole
    exact ⟨breaks, whole_eq ▸ decoded, all, none⟩

end DiskWarden.Text
