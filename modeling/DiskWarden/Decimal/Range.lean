import DiskWarden.Text.Digits

/-!
The range of doubles: which decimal numbers are too large for one.
-/

namespace DiskWarden.Decimal

/-- The first number that is too large for a double. -/
def doubleLimit : Nat := Nat.pow 2 1024 - Nat.pow 2 970

/-- Whether digits times a power of ten are too large for a double. -/
def overflows (digits : List Char) (exponent : Int) : Bool :=
  let significant := digits.dropWhile (· == '0')
  let order := exponent + significant.length
  if significant = [] || order < 300 then false
  else if 310 < order then true
  else
    doubleLimit * Nat.pow 10 (-exponent).toNat ≤
      Text.digitsValue 10 significant * Nat.pow 10 exponent.toNat

end DiskWarden.Decimal
