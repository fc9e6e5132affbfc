/-!
UTF-8: the scalar values that a list of octets encodes, read strictly or with a replacement
character for each part that encodes none.
-/

namespace DiskWarden.Text

/-- Octets, as they come from a file or a pipe. -/
abbrev Octets := List UInt8

/-- What the front of some octets holds: a character and its length, or the length of the
longest start of a character that breaks off there (at least one octet). -/
inductive Utf8Head
  | character (c : Char) (length : Nat)
  | broken (length : Nat)
deriving DecidableEq, Repr

/-- The six payload bits of a continuation octet. -/
def continuation? (octet : UInt8) : Option Nat :=
  if 0x80 ≤ octet && octet ≤ 0xBF then some (octet.toNat - 0x80) else none

/-- Reads the first character. The ranges of the second octet leave out overlong forms,
surrogates and values above the last scalar value. -/
def utf8Head (first : UInt8) (rest : Octets) : Utf8Head :=
  if first < 0x80 then .character (Char.ofNat first.toNat) 1
  else if first < 0xC2 then .broken 1
  else if first < 0xE0 then
    match rest with
    | b :: _ =>
        match continuation? b with
        | some y => .character (Char.ofNat ((first.toNat - 0xC0) * 64 + y)) 2
        | none => .broken 1
    | [] => .broken 1
  else if first < 0xF0 then
    match rest with
    | b :: tail =>
        let low : UInt8 := if first = 0xE0 then 0xA0 else 0x80
        let high : UInt8 := if first = 0xED then 0x9F else 0xBF
        if low ≤ b && b ≤ high then
          match tail.head?.bind continuation? with
          | some z =>
              .character
                (Char.ofNat ((first.toNat - 0xE0) * 4096 + (b.toNat - 0x80) * 64 + z)) 3
          | none => .broken 2
        else .broken 1
    | [] => .broken 1
  else if first < 0xF5 then
    match rest with
    | b :: tail =>
        let low : UInt8 := if first = 0xF0 then 0x90 else 0x80
        let high : UInt8 := if first = 0xF4 then 0x8F else 0xBF
        if low ≤ b && b ≤ high then
          match tail.head?.bind continuation? with
          | some z =>
              match tail.tail.head?.bind continuation? with
              | some w =>
                  .character
                    (Char.ofNat ((first.toNat - 0xF0) * 262144 + (b.toNat - 0x80) * 4096 +
                      z * 64 + w)) 4
              | none => .broken 3
          | none => .broken 2
        else .broken 1
    | [] => .broken 1
  else .broken 1

/-- The characters that some octets encode, if they encode characters only. -/
def decodeChars? : Octets → Option (List Char)
  | [] => some []
  | first :: rest =>
      match utf8Head first rest with
      | .character c n => (decodeChars? (rest.drop (n - 1))).map (c :: ·)
      | .broken _ => none
termination_by octets => octets.length
decreasing_by simp only [List.length_drop, List.length_cons]; omega

/-- The characters that some octets encode, each broken part replaced by U+FFFD. -/
def decodeCharsLossy : Octets → List Char
  | [] => []
  | first :: rest =>
      match utf8Head first rest with
      | .character c n => c :: decodeCharsLossy (rest.drop (n - 1))
      | .broken n => '\uFFFD' :: decodeCharsLossy (rest.drop (n - 1))
termination_by octets => octets.length
decreasing_by all_goals simp only [List.length_drop, List.length_cons]; omega

def decode? (octets : Octets) : Option String :=
  (decodeChars? octets).map String.ofList

/-- The text that some octets encode, with U+FFFD for what encodes nothing. -/
def decodeLossy (octets : Octets) : String :=
  String.ofList (decodeCharsLossy octets)

def encode (text : String) : Octets :=
  text.toList.flatMap String.utf8EncodeChar

end DiskWarden.Text
