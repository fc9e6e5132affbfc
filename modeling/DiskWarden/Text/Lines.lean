import DiskWarden.Text.Utf8

/-!
Lines of octets. A line ends with a line feed, which belongs to it, or with the input.
-/

namespace DiskWarden.Text

/-- The first line, its line feed included, and what follows it; nothing once the input is
used up. -/
def takeLine : Octets → Option (Octets × Octets)
  | [] => none
  | octet :: rest =>
      if octet = 0x0A then some ([octet], rest)
      else
        match takeLine rest with
        | some (line, later) => some (octet :: line, later)
        | none => some ([octet], [])

/-- A line and what follows it are the whole input, and the line is not empty. -/
theorem takeLine_append {input line later : Octets} (h : takeLine input = some (line, later)) :
    line ++ later = input ∧ line ≠ [] := by
  induction input generalizing line later with
  | nil => simp [takeLine] at h
  | cons octet rest ih =>
      unfold takeLine at h
      split at h
      · simp only [Option.some.injEq, Prod.mk.injEq] at h
        obtain ⟨rfl, rfl⟩ := h
        simp
      · split at h
        · next found =>
            simp only [Option.some.injEq, Prod.mk.injEq] at h
            obtain ⟨rfl, rfl⟩ := h
            simp [(ih found).1]
        · next found =>
            simp only [Option.some.injEq, Prod.mk.injEq] at h
            obtain ⟨rfl, rfl⟩ := h
            cases rest with
            | nil => simp
            | cons next rest =>
                unfold takeLine at found
                split at found
                · simp at found
                · split at found <;> simp at found

theorem takeLine_length {input line later : Octets} (h : takeLine input = some (line, later)) :
    later.length < input.length := by
  obtain ⟨rfl, nonempty⟩ := takeLine_append h
  have : 0 < line.length := List.length_pos_iff.mpr nonempty
  simp only [List.length_append]
  omega

/-- A line without its line feed and without one carriage return before it. -/
def stripLineBreak (line : Octets) : Octets :=
  match line.getLast? with
  | some 0x0A =>
      let body := line.dropLast
      if body.getLast? = some 0x0D then body.dropLast else body
  | _ => line

/-- The lines of an input, without their line breaks. -/
def lines (input : Octets) : List Octets :=
  match _found : takeLine input with
  | none => []
  | some (line, later) => stripLineBreak line :: lines later
termination_by input.length
decreasing_by exact takeLine_length _found

/-- What a failed reading of a line is called. -/
def notUtf8 : String := "stream did not contain valid UTF-8"

end DiskWarden.Text
