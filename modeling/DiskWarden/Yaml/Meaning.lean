import DiskWarden.Decimal.Range
import DiskWarden.Text.Blank
import DiskWarden.Text.Digits

/-!
What a plain scalar of YAML stands for: nothing, a truth value, a number, or the text that it
is.
-/

namespace DiskWarden.Yaml

/-- The meaning of a plain scalar. -/
inductive Meaning
  | null
  | bool (value : Bool)
  | integer (value : Int)
  | float
  | text
deriving DecidableEq, Repr

def isNullWord (text : String) : Bool := ["null", "Null", "NULL", "~"].contains text

def boolOf? (text : String) : Option Bool :=
  if ["true", "True", "TRUE"].contains text then some true
  else if ["false", "False", "FALSE"].contains text then some false
  else none

/-! ## Integers -/

/-- The bases other than ten, by the letter behind the zero. -/
def baseOf? : Char → Option Nat
  | 'x' => some 16
  | 'o' => some 8
  | 'b' => some 2
  | _ => none

/-- The number that some characters write, if they are digits of a base. -/
def numberOf? (base : Nat) (digits : List Char) : Option Nat :=
  let isDigit (c : Char) : Bool :=
    match Text.hexValue? c with
    | some value => value < base
    | none => false
  if digits ≠ [] && digits.all isDigit then some (Text.digitsValue base digits) else none

/-- The characters without a sign before them. -/
def dropSign : List Char → List Char
  | '+' :: rest | '-' :: rest => rest
  | chars => chars

/-- Whether some characters are several digits of which the first is a zero, behind a sign or
not. They are no number. -/
def isPaddedNumber (chars : List Char) : Bool :=
  match dropSign chars with
  | '0' :: c :: rest => (c :: rest).all Char.isDigit
  | _ => false

/-- The size of an integer without a sign, in any base. -/
def magnitude? (chars : List Char) : Option Nat :=
  match chars with
  | '0' :: c :: rest =>
      match baseOf? c with
      | some base => numberOf? base rest
      | none => if isPaddedNumber chars then none else numberOf? 10 chars
  | _ => numberOf? 10 chars

/-- The value of an integer that is not negative. -/
def natural? (chars : List Char) : Option Nat :=
  match chars with
  | '+' :: rest => magnitude? rest
  | _ => magnitude? chars

/-- The limit of integers of 128 bits with a sign. -/
def signedLimit : Nat := 0x80000000000000000000000000000000

/-- The limit of integers of 128 bits without a sign. -/
def unsignedLimit : Nat := 2 * signedLimit

/-- The value of an integer. Those with a minus sign fit 128 bits with a sign, the others 128
bits without one. -/
def integer? (chars : List Char) : Option Int :=
  match chars with
  | '-' :: rest =>
      (magnitude? rest).bind fun n => if n ≤ signedLimit then some (-(n : Int)) else none
  | _ => (natural? chars).bind fun n => if n < unsignedLimit then some (n : Int) else none

/-! ## Numbers with a fraction or an exponent -/

/-- The words for what is no finite number. -/
def specialFloats : List String :=
  [".inf", ".Inf", ".INF", "+.inf", "+.Inf", "+.INF", "-.inf", "-.Inf", "-.INF", ".nan", ".NaN",
    ".NAN"]

/-- The exponent that some characters write, with its letter; zero if there are none. -/
def exponent? : List Char → Option Int
  | [] => some 0
  | c :: rest =>
      if c = 'e' || c = 'E' then
        (numberOf? 10 (dropSign rest)).map fun n =>
          if rest.head? = some '-' then -(n : Int) else n
      else none

/-- Whether some characters write a finite decimal number without a sign. -/
def isFiniteDecimal (chars : List Char) : Bool :=
  let whole := chars.takeWhile Char.isDigit
  let afterWhole := chars.drop whole.length
  let hasPoint := afterWhole.head? = some '.'
  let fraction := if hasPoint then (afterWhole.drop 1).takeWhile Char.isDigit else []
  let rest := if hasPoint then afterWhole.drop (fraction.length + 1) else afterWhole
  match exponent? rest with
  | none => false
  | some exponent =>
      whole ++ fraction ≠ [] &&
        !Decimal.overflows (whole ++ fraction) (exponent - fraction.length)

/-- Whether a text stands for a number with a fraction or an exponent, or one too large for an
integer. -/
def isFloat (text : String) : Bool :=
  specialFloats.contains text || isFiniteDecimal (dropSign text.toList)

/-! ## All of them -/

def meaning (text : String) : Meaning :=
  if text = "" || isNullWord text then .null
  else
    match boolOf? text with
    | some value => .bool value
    | none =>
        match integer? text.toList with
        | some value => .integer value
        | none => if !isPaddedNumber text.toList && isFloat text then .float else .text

/-- Whether a text would not be read as itself if it were written plainly. -/
def needsQuotes (text : String) : Bool :=
  meaning text ≠ .text || isPaddedNumber text.toList

end DiskWarden.Yaml
