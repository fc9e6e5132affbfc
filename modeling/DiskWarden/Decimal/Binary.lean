/-!
The exact value of a double: a sign, and a whole number times a power of two.
-/

namespace DiskWarden.Decimal

inductive Binary
  | notANumber
  | infinite (negative : Bool)
  | finite (negative : Bool) (mantissa : Nat) (exponent : Int)
deriving DecidableEq, Repr

namespace Binary

/-- Reads the three fields of a double. -/
def ofBits (bits : UInt64) : Binary :=
  let negative : Bool := 0x8000000000000000 ≤ bits
  let exponentField : Nat := (bits.toNat / Nat.pow 2 52) % Nat.pow 2 11
  let fraction : Nat := bits.toNat % Nat.pow 2 52
  if exponentField = 2047 then
    if fraction = 0 then infinite negative else notANumber
  else if exponentField = 0 then finite negative fraction (-1074)
  else finite negative (Nat.pow 2 52 + fraction) (Int.ofNat exponentField - 1075)

def ofFloat (value : Float) : Binary := ofBits value.toBits

end Binary

/-- The whole number nearest to a quotient, and the even one of two. -/
def roundHalfEven (numerator denominator : Nat) : Nat :=
  let quotient := numerator / denominator
  let doubled := 2 * (numerator % denominator)
  if doubled < denominator then quotient
  else if denominator < doubled then quotient + 1
  else if quotient % 2 = 0 then quotient
  else quotient + 1

/-- The whole number nearest to `mantissa * 2 ^ exponent`. -/
def roundBinary (mantissa : Nat) (exponent : Int) : Nat :=
  match exponent with
  | .ofNat n => mantissa * Nat.pow 2 n
  | .negSucc n => roundHalfEven mantissa (Nat.pow 2 (n + 1))

/-- The text of a double without decimal places. The sign of a zero is kept. -/
def wholeText (value : Float) : String :=
  match Binary.ofFloat value with
  | .notANumber => "NaN"
  | .infinite negative => (if negative then "-" else "") ++ "inf"
  | .finite negative mantissa exponent =>
      (if negative then "-" else "") ++ toString (roundBinary mantissa exponent)

end DiskWarden.Decimal
