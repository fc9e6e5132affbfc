import DiskWarden.Decimal.Binary

/-!
The fewest decimal digits that read back as a given double, and of those the nearest to it.
-/

namespace DiskWarden.Decimal

/-- A whole number times a power of ten. -/
structure Digits where
  significand : Nat
  exponent : Int
deriving DecidableEq, Repr

/-- The numbers that round to a double, as fractions with one denominator: the double itself,
the ends of the interval, and whether the ends belong to it. -/
structure Neighbourhood where
  value : Nat
  low : Nat
  high : Nat
  denominator : Nat
  closed : Bool
deriving Repr

namespace Neighbourhood

/-- The neighbourhood of `mantissa * 2 ^ exponent` in units of `10 ^ unit`. Below a power of
two the next double is half as far away. -/
def of (mantissa : Nat) (exponent unit : Int) : Neighbourhood :=
  let narrow := mantissa = Nat.pow 2 52 && (-1074 : Int) < exponent
  let factor := Nat.pow 2 (exponent - 2).toNat * Nat.pow 10 (-unit).toNat
  { value := 4 * mantissa * factor
    low := (4 * mantissa - (if narrow then 1 else 2)) * factor
    high := (4 * mantissa + 2) * factor
    denominator := Nat.pow 2 (2 - exponent).toNat * Nat.pow 10 unit.toNat
    closed := mantissa % 2 = 0 }

/-- Whether a whole number of units rounds to the double. -/
def holds (area : Neighbourhood) (count : Nat) : Bool :=
  let point := count * area.denominator
  if area.closed then area.low ≤ point && point ≤ area.high
  else area.low < point && point < area.high

/-- The whole number of units nearest to the double among its two neighbours, if one of them
rounds to it. An exact tie goes to the even number. -/
def nearest? (area : Neighbourhood) : Option Nat :=
  let below := area.value / area.denominator
  let above := below + 1
  match area.holds below, area.holds above with
  | true, true => some (roundHalfEven area.value area.denominator)
  | true, false => some below
  | false, true => some above
  | false, false => none

end Neighbourhood

/-- Removes the zeros at the end of a number, which go into the exponent. -/
def Digits.normalize (fuel : Nat) (digits : Digits) : Digits :=
  match fuel with
  | 0 => digits
  | fuel + 1 =>
      if digits.significand % 10 = 0 && digits.significand ≠ 0 then
        normalize fuel ⟨digits.significand / 10, digits.exponent + 1⟩
      else digits

/-- Tries ever finer units of ten, the coarsest first. -/
def searchUnits (mantissa : Nat) (exponent : Int) : Nat → Int → Option Digits
  | 0, _ => none
  | steps + 1, unit =>
      match (Neighbourhood.of mantissa exponent unit).nearest? with
      | some count => some (Digits.normalize 20 ⟨count, unit⟩)
      | none => searchUnits mantissa exponent steps (unit - 1)

/-- The shortest digits of `mantissa * 2 ^ exponent`. The search starts above the number's
own order of ten and ends within seventeen digits. -/
def shortest (mantissa : Nat) (exponent : Int) : Digits :=
  if mantissa = 0 then ⟨0, 0⟩
  else
    let order := Int.fdiv (((Nat.log2 mantissa : Nat) + exponent) * 1233) 4096 + 1
    (searchUnits mantissa exponent 24 order).getD ⟨mantissa, 0⟩

/-- Where positional writing of numbers ends. -/
structure Style where
  /-- The least power of ten that is written out. -/
  leastPositional : Int
  /-- The first power of ten that gets an exponent. -/
  firstScientific : Int
deriving Repr

/-- The text of the digits: written out with at least one decimal place, or with a point after
the first digit and a signed exponent. -/
def Style.write (style : Style) (digits : Digits) : String :=
  let text := toString digits.significand
  let order := digits.exponent + (text.length : Int) - 1
  let chars := text.toList
  if digits.significand = 0 then "0.0"
  else if style.leastPositional ≤ order && order < style.firstScientific then
    if 0 ≤ digits.exponent then
      text ++ String.ofList (List.replicate digits.exponent.toNat '0') ++ ".0"
    else if 0 ≤ order then
      String.ofList (chars.take (order.toNat + 1)) ++ "." ++
        String.ofList (chars.drop (order.toNat + 1))
    else
      "0." ++ String.ofList (List.replicate ((-order).toNat - 1) '0') ++ text
  else
    let tail := chars.drop 1
    String.ofList (chars.take 1) ++
      (if tail.isEmpty then "" else "." ++ String.ofList tail) ++
      "e" ++ (if order < 0 then "-" else "+") ++ toString order.natAbs

/-- The text of a finite double. -/
def Style.text? (style : Style) (value : Float) : Option String :=
  match Binary.ofFloat value with
  | .finite negative mantissa exponent =>
      some ((if negative then "-" else "") ++ style.write (shortest mantissa exponent))
  | _ => none

end DiskWarden.Decimal
