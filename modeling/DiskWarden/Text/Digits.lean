/-!
Digits of a base up to sixteen.
-/

namespace DiskWarden.Text

/-- A hexadecimal digit, small. -/
def hexDigit (n : Nat) : Char :=
  if n < 10 then Char.ofNat (48 + n) else Char.ofNat (87 + n)

def hexValue? (c : Char) : Option Nat :=
  if '0' ≤ c ∧ c ≤ '9' then some (c.toNat - 48)
  else if 'a' ≤ c ∧ c ≤ 'f' then some (c.toNat - 87)
  else if 'A' ≤ c ∧ c ≤ 'F' then some (c.toNat - 55)
  else none

/-- The number that digits of a base write, the most significant first. -/
def digitsValue (base : Nat) (digits : List Char) : Nat :=
  digits.foldl (fun value c => value * base + (hexValue? c).getD 0) 0

/-- The number that some characters write, if they are hexadecimal digits. -/
def hexNumber? (digits : List Char) : Option Nat :=
  if digits.all fun c => (hexValue? c).isSome then some (digitsValue 16 digits) else none

/-- The last digits of a number in hexadecimal notation, as many as asked for. -/
def lowerHex : Nat → Nat → List Char
  | 0, _ => []
  | count + 1, n => lowerHex count (n / 16) ++ [hexDigit (n % 16)]

/-- The last digits of a number in hexadecimal notation, with capitals. -/
def upperHex (count n : Nat) : List Char := (lowerHex count n).map Char.toUpper

def charOfNat? (n : Nat) : Option Char :=
  if h : n.isValidChar then some (Char.ofNatAux n h) else none

end DiskWarden.Text
