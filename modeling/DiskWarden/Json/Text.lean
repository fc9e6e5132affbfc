import DiskWarden.Json.Basic
import DiskWarden.Text.Digits

/-!
Quoted texts of JSON: which characters are escaped on writing, and what the escapes stand for
on reading.
-/

namespace DiskWarden.Json

/-- What is left of an input after a part of it was read: less than before. -/
abbrev Rest (input : List Char) := { rest : List Char // rest.length < input.length }

abbrev Reading (α : Type) (input : List Char) := Except JsonFault (α × Rest input)

/-- Moves a rest to a longer input. -/
def Rest.widen {inner outer : List Char} (rest : Rest inner)
    (h : inner.length ≤ outer.length) : Rest outer :=
  ⟨rest.1, Nat.lt_of_lt_of_le rest.2 h⟩

theorem length_le_cons (c : Char) (rest : List Char) : rest.length ≤ (c :: rest).length := by
  simp

/-- What is left of a shorter input is shorter than a longer one. -/
theorem Rest.length_le {inner outer : List Char} (rest : Rest inner)
    (h : inner.length < outer.length) : rest.1.length ≤ outer.length :=
  Nat.le_of_lt (Nat.lt_trans rest.2 h)

/-! ## Writing -/

/-- How a character is written between quotes. -/
def escapeChar (c : Char) : List Char :=
  if c = '"' then ['\\', '"']
  else if c = '\\' then ['\\', '\\']
  else if c = '\n' then ['\\', 'n']
  else if c = '\t' then ['\\', 't']
  else if c = '\r' then ['\\', 'r']
  else if c = '\x08' then ['\\', 'b']
  else if c = '\x0c' then ['\\', 'f']
  else if c.toNat < 32 then
    ['\\', 'u', '0', '0', Text.hexDigit (c.toNat / 16), Text.hexDigit (c.toNat % 16)]
  else [c]

def quote (text : String) : String :=
  String.ofList ('"' :: text.toList.flatMap escapeChar ++ ['"'])

/-! ## Reading -/

/-- Reads four hexadecimal digits. The text counts as unfinished if fewer than four octets of
it are left. -/
def readHex : List Char → Except JsonFault (Nat × List Char)
  | a :: b :: c :: d :: rest =>
      match Text.hexValue? a, Text.hexValue? b, Text.hexValue? c, Text.hexValue? d with
      | some p, some q, some r, some s => .ok (p * 4096 + q * 256 + r * 16 + s, rest)
      | _, _, _, _ => .error .malformed
  | short =>
      if short.foldl (fun size c => size + c.utf8Size) 0 < 4 then .error .unfinished
      else .error .malformed

theorem readHex_length {input rest : List Char} {value : Nat}
    (h : readHex input = .ok (value, rest)) : rest.length < input.length := by
  unfold readHex at h
  split at h
  · split at h
    · simp only [Except.ok.injEq, Prod.mk.injEq] at h
      obtain ⟨_, rfl⟩ := h
      simp only [List.length_cons]
      omega
    · exact absurd h (by simp)
  · split at h <;> exact absurd h (by simp)

/-- Reads the second half of a surrogate pair, whose first half is `high`. -/
def readLowSurrogate (high : Nat) : List Char → Except JsonFault (Char × List Char)
  | [] => .error .unfinished
  | '\\' :: [] => .error .unfinished
  | '\\' :: 'u' :: rest => do
      let (low, rest) ← readHex rest
      if 0xDC00 ≤ low && low ≤ 0xDFFF then
        pure (Char.ofNat ((high - 0xD800) * 0x400 + (low - 0xDC00) + 0x10000), rest)
      else .error .malformed
  | _ => .error .malformed

/-- Reads what follows `\u`: a code unit, or two that form a surrogate pair. -/
def readUnicode (input : List Char) : Except JsonFault (Char × List Char) := do
  let (unit, rest) ← readHex input
  if 0xDC00 ≤ unit && unit ≤ 0xDFFF then .error .malformed
  else if 0xD800 ≤ unit && unit ≤ 0xDBFF then readLowSurrogate unit rest
  else pure (Char.ofNat unit, rest)

/-- What a character stands for after a backslash. -/
def escaped? (c : Char) : Option Char :=
  if c = '"' then some '"'
  else if c = '\\' then some '\\'
  else if c = '/' then some '/'
  else if c = 'b' then some '\x08'
  else if c = 'f' then some '\x0c'
  else if c = 'n' then some '\n'
  else if c = 'r' then some '\r'
  else if c = 't' then some '\t'
  else none

def readEscape : List Char → Except JsonFault (Char × List Char)
  | [] => .error .unfinished
  | c :: rest =>
      if c = 'u' then readUnicode rest
      else
        match escaped? c with
        | some meant => .ok (meant, rest)
        | none => .error .malformed

theorem readLowSurrogate_length {high : Nat} {input rest : List Char} {c : Char}
    (h : readLowSurrogate high input = .ok (c, rest)) : rest.length < input.length := by
  unfold readLowSurrogate at h
  split at h
  · exact absurd h (by simp)
  · exact absurd h (by simp)
  · next tail =>
      cases read : readHex tail with
      | error cause => simp [read, bind, Except.bind] at h
      | ok pair =>
          obtain ⟨low, later⟩ := pair
          have shorter := readHex_length read
          simp only [read, bind, Except.bind] at h
          split at h
          · simp only [pure, Except.pure, Except.ok.injEq, Prod.mk.injEq] at h
            obtain ⟨_, rfl⟩ := h
            simp only [List.length_cons]
            omega
          · exact absurd h (by simp)
  · exact absurd h (by simp)

theorem readUnicode_length {input rest : List Char} {c : Char}
    (h : readUnicode input = .ok (c, rest)) : rest.length < input.length := by
  unfold readUnicode at h
  cases read : readHex input with
  | error cause => simp [read, bind, Except.bind] at h
  | ok pair =>
      obtain ⟨unit, later⟩ := pair
      have shorter := readHex_length read
      simp only [read, bind, Except.bind] at h
      split at h
      · exact absurd h (by simp)
      · split at h
        · exact Nat.lt_trans (readLowSurrogate_length h) shorter
        · simp only [pure, Except.pure, Except.ok.injEq, Prod.mk.injEq] at h
          obtain ⟨_, rfl⟩ := h
          exact shorter

theorem readEscape_length {input rest : List Char} {c : Char}
    (h : readEscape input = .ok (c, rest)) : rest.length < input.length := by
  unfold readEscape at h
  split at h
  · exact absurd h (by simp)
  · split at h
    · exact Nat.lt_succ_of_lt (readUnicode_length h)
    · split at h
      · simp only [Except.ok.injEq, Prod.mk.injEq] at h
        obtain ⟨_, rfl⟩ := h
        simp
      · exact absurd h (by simp)

/-- Reads the characters up to the closing quote. -/
def readChars (input : List Char) : Reading (List Char) input :=
  match input with
  | [] => .error .unfinished
  | '"' :: rest => .ok ([], ⟨rest, by simp⟩)
  | '\\' :: rest =>
      match escape : readEscape rest with
      | .error cause => .error cause
      | .ok (c, later) =>
          have shorter := readEscape_length escape
          match readChars later with
          | .error cause => .error cause
          | .ok (chars, last) =>
              .ok (c :: chars, last.widen (by simp only [List.length_cons]; omega))
  | c :: rest =>
      if c.toNat < 32 then .error .malformed
      else
        match readChars rest with
        | .error cause => .error cause
        | .ok (chars, last) => .ok (c :: chars, last.widen (length_le_cons c rest))
termination_by input.length

end DiskWarden.Json
