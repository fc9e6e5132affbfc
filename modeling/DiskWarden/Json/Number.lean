import DiskWarden.Decimal.Scaled
import DiskWarden.Json.Text

/-!
Numbers of JSON. A number is read as its parts; its value is an integer if it has neither
fraction nor exponent and fits 64 bits, and a double otherwise. Digits that do not fit a
significand of 64 bits count as zeros.
-/

namespace DiskWarden.Json

structure NumberParts where
  negative : Bool
  whole : List Char
  fraction : List Char
  /-- The power of ten after `e`, if there is one. -/
  exponent : Option Int
deriving DecidableEq, Repr

def digitValue (c : Char) : Nat := c.toNat - 48

def digitsValue (digits : List Char) : Nat :=
  digits.foldl (fun value c => value * 10 + digitValue c) 0

def significandLimit : Nat := 0x10000000000000000

/-- Appends whole digits to a significand as long as they fit; each digit from the first that
does not fit raises the exponent instead. -/
def gatherWhole (significand : Nat) : List Char → Nat × Int
  | [] => (significand, 0)
  | c :: digits =>
      let next := significand * 10 + digitValue c
      if next < significandLimit then gatherWhole next digits
      else (significand, (digits.length : Int) + 1)

/-- Appends digits after the point to a significand as long as they fit, each lowering the
exponent; the others are dropped. -/
def gatherFraction (significand : Nat) (exponent : Int) : List Char → Nat × Int
  | [] => (significand, exponent)
  | c :: digits =>
      let next := significand * 10 + digitValue c
      if next < significandLimit then gatherFraction next (exponent - 1) digits
      else (significand, exponent)

namespace NumberParts

/-- The double that a number stands for, if there is a finite one. -/
def float? (parts : NumberParts) : Option Float :=
  let (whole, shift) := gatherWhole 0 parts.whole
  let (significand, exponent) := gatherFraction whole shift parts.fraction
  (Decimal.scale significand.toUInt64 (exponent + parts.exponent.getD 0)).map fun value =>
    if parts.negative then -value else value

/-- The value of a number, if it is in range. A negative zero is a double. -/
def value? (parts : NumberParts) : Option Json :=
  let magnitude := digitsValue parts.whole
  if parts.fraction = [] && parts.exponent.isNone && magnitude < significandLimit &&
      (!parts.negative || (0 < magnitude && magnitude ≤ significandLimit / 2)) then
    some (.integer (if parts.negative then -(magnitude : Int) else magnitude))
  else parts.float?.map .float

end NumberParts

/-! ## Reading -/

/-- The digits at the front of an input, and what follows them. -/
def spanDigits (input : List Char) : List Char × List Char :=
  (input.takeWhile Char.isDigit, input.dropWhile Char.isDigit)

theorem dropWhile_length (test : Char → Bool) (input : List Char) :
    (input.dropWhile test).length ≤ input.length :=
  (List.dropWhile_sublist test).length_le

/-- Reads the digits before the point: a zero alone, or digits that start with another one. -/
def readWhole : List Char → Except JsonFault (List Char × List Char)
  | [] => .error .unfinished
  | c :: rest =>
      if c = '0' then
        match rest with
        | next :: _ => if next.isDigit then .error .malformed else .ok ([c], rest)
        | [] => .ok ([c], rest)
      else if c.isDigit then .ok (c :: (spanDigits rest).1, (spanDigits rest).2)
      else .error .malformed

/-- Reads digits, of which there is at least one. -/
def readSomeDigits : List Char → Except JsonFault (List Char × List Char)
  | [] => .error .unfinished
  | c :: rest =>
      if c.isDigit then .ok (c :: (spanDigits rest).1, (spanDigits rest).2)
      else .error .malformed

def readFraction (input : List Char) : Except JsonFault (List Char × List Char) :=
  match input with
  | '.' :: rest => readSomeDigits rest
  | _ => .ok ([], input)

/-- Reads the power of ten after `e` and its sign. -/
def readPower (negative : Bool) (input : List Char) : Except JsonFault (Int × List Char) :=
  match readSomeDigits input with
  | .error cause => .error cause
  | .ok (digits, rest) =>
      .ok (if negative then -(digitsValue digits : Int) else digitsValue digits, rest)

def readExponent (input : List Char) : Except JsonFault (Option Int × List Char) :=
  match input with
  | c :: rest =>
      if c = 'e' || c = 'E' then
        let power :=
          match rest with
          | '+' :: digits => readPower false digits
          | '-' :: digits => readPower true digits
          | _ => readPower false rest
        match power with
        | .error cause => .error cause
        | .ok (value, later) => .ok (some value, later)
      else .ok (none, input)
  | [] => .ok (none, input)

def readParts (negative : Bool) (input : List Char) :
    Except JsonFault (NumberParts × List Char) := do
  let (whole, afterWhole) ← readWhole input
  let (fraction, afterFraction) ← readFraction afterWhole
  let (exponent, rest) ← readExponent afterFraction
  pure (⟨negative, whole, fraction, exponent⟩, rest)

theorem readWhole_length {input digits rest : List Char}
    (h : readWhole input = .ok (digits, rest)) : rest.length < input.length := by
  unfold readWhole at h
  repeat' split at h
  all_goals cases h
  · simp
  · simp
  · exact Nat.lt_succ_of_le (dropWhile_length _ _)

theorem readSomeDigits_length {input digits rest : List Char}
    (h : readSomeDigits input = .ok (digits, rest)) : rest.length < input.length := by
  unfold readSomeDigits at h
  repeat' split at h
  all_goals cases h
  exact Nat.lt_succ_of_le (dropWhile_length _ _)

theorem readFraction_length {input digits rest : List Char}
    (h : readFraction input = .ok (digits, rest)) : rest.length ≤ input.length := by
  unfold readFraction at h
  split at h
  · exact Nat.le_succ_of_le (Nat.le_of_lt (readSomeDigits_length h))
  · simp only [Except.ok.injEq, Prod.mk.injEq] at h
    obtain ⟨_, rfl⟩ := h
    exact Nat.le_refl _

theorem readPower_length {negative : Bool} {input rest : List Char} {value : Int}
    (h : readPower negative input = .ok (value, rest)) : rest.length < input.length := by
  unfold readPower at h
  split at h
  · exact absurd h (by simp)
  · next read =>
      simp only [Except.ok.injEq, Prod.mk.injEq] at h
      obtain ⟨_, rfl⟩ := h
      exact readSomeDigits_length read

theorem readExponent_length {input rest : List Char} {exponent : Option Int}
    (h : readExponent input = .ok (exponent, rest)) : rest.length ≤ input.length := by
  unfold readExponent at h
  split at h
  · next c tail =>
      split at h
      · simp only at h
        split at h
        · exact absurd h (by simp)
        · next power =>
            simp only [Except.ok.injEq, Prod.mk.injEq] at h
            obtain ⟨_, rfl⟩ := h
            split at power
            all_goals
              have := readPower_length power
              simp only [List.length_cons] at this ⊢
              omega
      · simp only [Except.ok.injEq, Prod.mk.injEq] at h
        obtain ⟨_, rfl⟩ := h
        exact Nat.le_refl _
  · simp only [Except.ok.injEq, Prod.mk.injEq] at h
    obtain ⟨_, rfl⟩ := h
    exact Nat.le_refl _

theorem readParts_length {negative : Bool} {input rest : List Char} {parts : NumberParts}
    (h : readParts negative input = .ok (parts, rest)) : rest.length < input.length := by
  unfold readParts at h
  cases whole : readWhole input with
  | error cause => simp [whole, bind, Except.bind] at h
  | ok first =>
      obtain ⟨digits, afterWhole⟩ := first
      cases fraction : readFraction afterWhole with
      | error cause => simp [whole, fraction, bind, Except.bind] at h
      | ok second =>
          obtain ⟨places, afterFraction⟩ := second
          cases exponent : readExponent afterFraction with
          | error cause => simp [whole, fraction, exponent, bind, Except.bind] at h
          | ok third =>
              obtain ⟨power, last⟩ := third
              simp only [whole, fraction, exponent, bind, Except.bind, pure, Except.pure,
                Except.ok.injEq, Prod.mk.injEq] at h
              obtain ⟨_, rfl⟩ := h
              have := readWhole_length whole
              have := readFraction_length fraction
              have := readExponent_length exponent
              omega

def readUnsigned (negative : Bool) (input : List Char) : Reading Json input :=
  match parts : readParts negative input with
  | .error cause => .error cause
  | .ok (number, rest) =>
      match number.value? with
      | some value => .ok (value, ⟨rest, readParts_length parts⟩)
      | none => .error .malformed

def readNumber (input : List Char) : Reading Json input :=
  match input with
  | [] => .error .unfinished
  | c :: rest =>
      if c = '-' then
        match readUnsigned true rest with
        | .error cause => .error cause
        | .ok (value, last) => .ok (value, last.widen (length_le_cons c rest))
      else readUnsigned false (c :: rest)

end DiskWarden.Json
