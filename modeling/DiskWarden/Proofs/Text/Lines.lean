import DiskWarden.Proofs.Text.Utf8
import DiskWarden.Text.Lines

/-!
# Lines that are split off again

Texts that hold no control characters, each ended by a line feed, are the lines of the octets that
they make up.
-/

namespace DiskWarden.Text

/-- The octets of some texts, a line feed behind each of them. -/
def stream (texts : List String) : Octets :=
  texts.flatMap fun text => encode text ++ [0x0A]

/-- Whether a line is read as it was sent: it holds no line feed, and no carriage return at its
end, which would count as a part of the line break. -/
structure IsLine (line : Octets) : Prop where
  unbroken : 0x0A ∉ line
  noReturn : line.getLast? ≠ some 0x0D

variable {line rest : Octets}

theorem takeLine_append_cons (unbroken : 0x0A ∉ line) (rest : Octets) :
    takeLine (line ++ 0x0A :: rest) = some (line ++ [0x0A], rest) := by
  induction line with
  | nil => rfl
  | cons octet line inductionHypothesis =>
      have different : octet ≠ 0x0A := by
        rintro rfl
        exact unbroken List.mem_cons_self
      have later : 0x0A ∉ line := fun member => unbroken (List.mem_cons_of_mem octet member)
      rw [List.cons_append, takeLine, if_neg different, inductionHypothesis later]
      rfl

theorem stripLineBreak_concat (noReturn : line.getLast? ≠ some 0x0D) :
    stripLineBreak (line ++ [0x0A]) = line := by
  have last : (line ++ [0x0A]).getLast? = some 0x0A := List.getLast?_concat
  have body : (line ++ [(0x0A : UInt8)]).dropLast = line := List.dropLast_concat
  rw [stripLineBreak, last]
  simp only [body, noReturn, if_false]

theorem lines_append_cons (isLine : IsLine line) (rest : Octets) :
    lines (line ++ 0x0A :: rest) = line :: lines rest := by
  have front := takeLine_append_cons isLine.unbroken rest
  rw [lines]
  split
  · next none =>
      rw [front] at none
      cases none
  · next found =>
      rw [front] at found
      cases found
      rw [stripLineBreak_concat isLine.noReturn]

theorem lines_flatMap {list : List Octets} (all : ∀ line ∈ list, IsLine line) :
    lines (list.flatMap fun line => line ++ [0x0A]) = list := by
  induction list with
  | nil =>
      rw [List.flatMap_nil, lines]
      rfl
  | cons line list inductionHypothesis =>
      rw [List.forall_mem_cons] at all
      rw [List.flatMap_cons, List.append_assoc, List.singleton_append, lines_append_cons all.1,
        inductionHypothesis all.2]

theorem isLine_encode {text : String} (printed : ∀ c ∈ text.toList, 32 ≤ c.toNat) :
    IsLine (encode text) := by
  have octets : ∀ octet ∈ encode text, 32 ≤ octet.toNat := by
    intro octet member
    obtain ⟨c, source, encoded⟩ := List.mem_flatMap.mp member
    exact le_of_mem_utf8EncodeChar (printed c source) encoded
  constructor
  · intro member
    exact absurd (octets _ member) (by decide)
  · intro last
    exact absurd (octets _ (List.mem_of_getLast? last)) (by decide)

theorem lines_stream {texts : List String}
    (printed : ∀ text ∈ texts, ∀ c ∈ text.toList, 32 ≤ c.toNat) :
    lines (stream texts) = texts.map encode := by
  have joined : stream texts = (texts.map encode).flatMap fun line => line ++ [0x0A] := by
    rw [stream, List.flatMap_map]
  rw [joined]
  apply lines_flatMap
  intro line member
  obtain ⟨text, source, rfl⟩ := List.mem_map.mp member
  exact isLine_encode (printed text source)

end DiskWarden.Text
