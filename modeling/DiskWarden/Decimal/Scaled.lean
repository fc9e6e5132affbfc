/-!
Doubles from a significand of 64 bits and a power of ten, with one rounding for the
significand and one for each scaling step.
-/

namespace DiskWarden.Decimal

/-- The double nearest to a power of ten. -/
def powerOfTen (exponent : Nat) : Float :=
  Float.ofScientific 1 false exponent

/-- The largest power of ten that is a finite double. -/
def largestPower : Nat := 308

/-- Divides by powers of ten until the exponent is used up or nothing is left. -/
def divideByPowers (value : Float) (exponent : Nat) : Float :=
  if exponent ≤ largestPower then value / powerOfTen exponent
  else if value == 0 then value
  else divideByPowers (value / powerOfTen largestPower) (exponent - largestPower)
termination_by exponent
decreasing_by
  simp only [largestPower] at *
  omega

/-- The double for `significand * 10 ^ exponent`, and nothing if it is too large for one. -/
def scale (significand : UInt64) (exponent : Int) : Option Float :=
  let value := significand.toFloat
  match exponent with
  | .ofNat n =>
      if n ≤ largestPower then
        let scaled := value * powerOfTen n
        if scaled.isInf then none else some scaled
      else if value == 0 then some value
      else none
  | .negSucc n => some (divideByPowers value (n + 1))

end DiskWarden.Decimal
