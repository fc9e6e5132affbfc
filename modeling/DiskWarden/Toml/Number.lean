import DiskWarden.Decimal.Range
import DiskWarden.Text.Digits
import DiskWarden.Toml.Basic

/-!
Numbers and points in time of TOML. Single underscores may stand between the digits of a
number.
-/

namespace DiskWarden.Toml

/-! ## Digits -/

/-- Reads digits with underscores between them, after the first digit. -/
def readMoreDigits (isDigit : Char → Bool) : Reader (List Char)
  | [] => some ([], [])
  | '_' :: c :: rest =>
      if isDigit c then
        (readMoreDigits isDigit rest).map fun (digits, rest) => (c :: digits, rest)
      else none
  | c :: rest =>
      if isDigit c then
        (readMoreDigits isDigit rest).map fun (digits, rest) => (c :: digits, rest)
      else if c = '_' then none
      else some ([], c :: rest)

/-- Reads digits with underscores between them. -/
def readDigits (isDigit : Char → Bool) : Reader (List Char)
  | c :: rest =>
      if isDigit c then
        (readMoreDigits isDigit rest).map fun (digits, rest) => (c :: digits, rest)
      else none
  | [] => none

/-- The sign at the front of an input: whether it is a minus. -/
def readSign : List Char → Bool × List Char
  | '-' :: rest => (true, rest)
  | '+' :: rest => (false, rest)
  | rest => (false, rest)

/-- Reads the digits of a decimal whole number. A zero is followed by no other digit. -/
def readWhole : Reader (List Char)
  | '0' :: rest => some (['0'], rest)
  | input => readDigits Char.isDigit input

/-! ## Integers -/

/-- Reads an integer with a base other than ten, after its mark. -/
def readBased (base : Nat) (isDigit : Char → Bool) (input : List Char) :
    Option (Int × List Char) := do
  let (digits, rest) ← readDigits isDigit input
  let value := Text.digitsValue base digits
  if value < integerLimit then some (value, rest) else none

def isHexDigit (c : Char) : Bool := (Text.hexValue? c).isSome

def isOctalDigit (c : Char) : Bool := '0' ≤ c && c ≤ '7'

def isBinaryDigit (c : Char) : Bool := c == '0' || c == '1'

def readInteger : Reader Int
  | '0' :: 'x' :: rest => readBased 16 isHexDigit rest
  | '0' :: 'o' :: rest => readBased 8 isOctalDigit rest
  | '0' :: 'b' :: rest => readBased 2 isBinaryDigit rest
  | input => do
      let (isNegative, rest) := readSign input
      let (digits, rest) ← readWhole rest
      let value := Text.digitsValue 10 digits
      if isNegative then
        if value ≤ integerLimit then some (-(value : Int), rest) else none
      else if value < integerLimit then some (value, rest)
      else none

/-! ## Numbers with a fraction or an exponent -/

def readExponent : Reader Int
  | c :: rest =>
      if c = 'e' || c = 'E' then do
        let (isNegative, rest) := readSign rest
        let (digits, rest) ← readDigits Char.isDigit rest
        let value := Text.digitsValue 10 digits
        some (if isNegative then -(value : Int) else value, rest)
      else none
  | [] => none

def readFraction : Reader (List Char)
  | '.' :: rest => readDigits Char.isDigit rest
  | _ => none

/-- What follows the number with a fraction or an exponent at the front of an input. There is
none that is too large above zero. -/
def dropFloat? (input : List Char) : Option (List Char) := do
  let (isNegative, unsigned) := readSign input
  match unsigned with
  | 'i' :: 'n' :: 'f' :: rest => some rest
  | 'n' :: 'a' :: 'n' :: rest => some rest
  | _ =>
      let (whole, afterWhole) ← readWhole unsigned
      let (fraction, afterFraction) :=
        match readFraction afterWhole with
        | some read => read
        | none => ([], afterWhole)
      let (exponent, rest) :=
        match readExponent afterFraction with
        | some read => read
        | none => (0, afterFraction)
      if rest.length = afterWhole.length then none
      else if !isNegative && Decimal.overflows (whole ++ fraction) (exponent - fraction.length) then none
      else some rest

/-! ## Points in time -/

/-- Reads a number of two digits within a range. -/
def readPair (low high : Nat) : Reader Nat
  | a :: b :: rest =>
      let value := Text.digitsValue 10 [a, b]
      if a.isDigit && b.isDigit && low ≤ value && value ≤ high then some (value, rest) else none
  | _ => none

def expect (c : Char) : List Char → Option (List Char)
  | first :: rest => if first = c then some rest else none
  | [] => none

def daysOf (year month : Nat) : Nat :=
  if month = 2 then
    if year % 4 = 0 && (year % 100 ≠ 0 || year % 400 = 0) then 29 else 28
  else if month = 4 || month = 6 || month = 9 || month = 11 then 30
  else 31

/-- What follows the date at the front of an input. -/
def dropDate? (input : List Char) : Option (List Char) := do
  let year := input.take 4
  if year.length < 4 || !year.all Char.isDigit then none
  else
    let rest ← expect '-' (input.drop 4)
    let (month, rest) ← readPair 1 12 rest
    let rest ← expect '-' rest
    let (day, rest) ← readPair 1 31 rest
    if day ≤ daysOf (Text.digitsValue 10 year) month then some rest else none

/-- What follows the time of day at the front of an input. A minute may have a 61st second. -/
def dropTime? (input : List Char) : Option (List Char) := do
  let (_, rest) ← readPair 0 23 input
  let (_, rest) ← readPair 0 59 (← expect ':' rest)
  let (_, rest) ← readPair 0 60 (← expect ':' rest)
  match rest with
  | '.' :: c :: more => if c.isDigit then some (more.dropWhile Char.isDigit) else some rest
  | _ => some rest

/-- What follows the time zone at the front of an input. -/
def dropZone? : List Char → Option (List Char)
  | 'Z' :: rest | 'z' :: rest => some rest
  | '+' :: rest | '-' :: rest => do
      let (_, rest) ← readPair 0 23 rest
      let (_, rest) ← readPair 0 59 (← expect ':' rest)
      some rest
  | _ => none

/-- What follows a time of day, with the time zone that may stand behind it. -/
def dropZonedTime? (input : List Char) : Option (List Char) :=
  (dropTime? input).map fun rest => (dropZone? rest).getD rest

/-- What follows the point in time at the front of an input. -/
def dropDateTime? (input : List Char) : Option (List Char) :=
  match dropDate? input with
  | some rest =>
      match rest with
      | 'T' :: more | 't' :: more | ' ' :: more => some ((dropZonedTime? more).getD rest)
      | _ => some rest
  | none => dropTime? input

/-! ## All of them -/

/-- The characters of an input before a rest of it. -/
def writtenBefore (input rest : List Char) : String :=
  String.ofList (input.take (input.length - rest.length))

/-- Reads what starts with a digit or a sign. -/
def readNumeric (input : List Char) : Option (Toml × List Char) :=
  match dropDateTime? input with
  | some rest => some (.dateTime (writtenBefore input rest), rest)
  | none =>
      match dropFloat? input with
      | some rest => some (.float (writtenBefore input rest), rest)
      | none => (readInteger input).map fun (value, rest) => (.integer value, rest)

end DiskWarden.Toml
