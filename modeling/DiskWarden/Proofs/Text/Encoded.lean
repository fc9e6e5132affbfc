import DiskWarden.Proofs.Text.Cuts

/-!
# The lines of a text

An octet below 128 is a character of its own wherever it stands in a text.  Line breaks therefore
cut no character, and each line of a text is a text.
-/

namespace DiskWarden.Text

/-- Octets that are the text of some characters. -/
def IsEncoded (octets : Octets) : Prop :=
  ∃ chars : List Char, octets = chars.flatMap String.utf8EncodeChar

variable {octets : Octets} {octet : UInt8}

theorem isEncoded_nil : IsEncoded [] := ⟨[], rfl⟩

theorem IsEncoded.append {first second : Octets} (encoded : IsEncoded first)
    (encoded' : IsEncoded second) : IsEncoded (first ++ second) := by
  have ⟨chars, same⟩ := encoded
  have ⟨chars', same'⟩ := encoded'
  exact ⟨chars ++ chars', by rw [same, same', List.flatMap_append]⟩

theorem isEncoded_char (c : Char) : IsEncoded (String.utf8EncodeChar c) := ⟨[c], by simp⟩

theorem IsEncoded.isSome_decode? (encoded : IsEncoded octets) : (decode? octets).isSome := by
  have ⟨chars, same⟩ := encoded
  rw [same, decode?, decodeChars?_flatMap]
  rfl

/-! ## Line breaks -/

theorem IsEncoded.dropLast (encoded : IsEncoded octets) (ascii : octet.toNat < 128)
    (last : octets.getLast? = some octet) : IsEncoded octets.dropLast := by
  have ⟨chars, same⟩ := encoded
  cases chars using List.reverseRecOn with
  | nil =>
      rw [same] at last
      cases last
  | append_singleton front c =>
      rw [List.flatMap_append, List.flatMap_singleton] at same
      have member : octet ∈ String.utf8EncodeChar c := by
        rw [same, List.getLast?_append_of_ne_nil _ String.utf8EncodeChar_ne_nil] at last
        exact List.mem_of_getLast? last
      rw [same, utf8EncodeChar_of_mem ascii member, List.dropLast_concat]
      exact ⟨front, rfl⟩

theorem IsEncoded.stripLineBreak (encoded : IsEncoded octets) :
    IsEncoded (stripLineBreak octets) := by
  unfold Text.stripLineBreak
  split
  · next last =>
      have body := encoded.dropLast (by decide) last
      simp only
      split
      · next last' => exact body.dropLast (by decide) last'
      · exact body
  · exact encoded

/-- A text is made up of lines that are texts. -/
theorem exists_encoded_cuts (chars : List Char) :
    ∃ lines, Cuts (chars.flatMap String.utf8EncodeChar) lines ∧ ∀ line ∈ lines, IsEncoded line := by
  induction chars with
  | nil => exact ⟨[], .nothing, fun _ member => absurd member List.not_mem_nil⟩
  | cons c chars inductionHypothesis =>
      have ⟨lines, cuts, encoded⟩ := inductionHypothesis
      rw [List.flatMap_cons]
      by_cases feed : 0x0A ∈ String.utf8EncodeChar c
      · have own := utf8EncodeChar_of_mem (by decide) feed
        rw [own]
        refine ⟨_, @Cuts.line [] _ lines List.not_mem_nil cuts, ?_⟩
        rw [List.forall_mem_cons]
        exact ⟨own ▸ isEncoded_char c, encoded⟩
      · refine ⟨_, cuts.prepend String.utf8EncodeChar_ne_nil feed, ?_⟩
        rw [List.forall_mem_cons]
        refine ⟨(isEncoded_char c).append ?_, fun line member => ?_⟩
        · cases lines with
          | nil => exact isEncoded_nil
          | cons line lines => exact encoded line List.mem_cons_self
        · exact encoded line (List.mem_of_mem_tail member)

theorem isEncoded_lines (text : String) : ∀ line ∈ lines (encode text), IsEncoded line := by
  have ⟨pieces, cuts, encoded⟩ := exists_encoded_cuts text.toList
  rw [encode, cuts.lines_eq, List.forall_mem_map]
  exact fun piece member => (encoded piece member).stripLineBreak

end DiskWarden.Text
