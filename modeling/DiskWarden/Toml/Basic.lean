/-!
Values of TOML, and the space between them.
-/

namespace DiskWarden

/-- A TOML value. Numbers with a fraction and points in time are kept as they are written. -/
inductive Toml
  | text (value : String)
  | integer (value : Int)
  | float (written : String)
  | bool (value : Bool)
  | dateTime (written : String)
  | array (items : List Toml)
  | table (members : List (String × Toml))

namespace Toml

instance : Inhabited Toml := ⟨table []⟩

/-- The integers that a document may hold. -/
def integerLimit : Nat := 0x8000000000000000

/-- A reader takes a part from the front of an input and leaves the rest; it fails where the
input has no such part. -/
abbrev Reader (α : Type) := List Char → Option (α × List Char)

/-! ## Space -/

def isSpace (c : Char) : Bool := c == ' ' || c == '\t'

def skipSpace (input : List Char) : List Char := input.dropWhile isSpace

/-- The characters that texts and comments may hold: no controls but the tab. -/
def isPrintable (c : Char) : Bool :=
  c == '\t' || (0x20 ≤ c.toNat && c.toNat ≠ 0x7F)

/-- What follows the line break at the front of an input. -/
def dropLineBreak? : List Char → Option (List Char)
  | '\n' :: rest => some rest
  | '\r' :: '\n' :: rest => some rest
  | _ => none

/-- What follows the comment at the front of an input, if there is one. -/
def skipComment : List Char → List Char
  | '#' :: rest => rest.dropWhile isPrintable
  | input => input

/-- What follows the end of a line, where nothing but space and a comment is left on it. -/
def endLine? (input : List Char) : Option (List Char) :=
  match skipComment (skipSpace input) with
  | [] => some []
  | rest => dropLineBreak? rest

/-- Skips space, line breaks and comments, from the inside of a comment or not. A comment has
to end with a line break. -/
def skipLines : Bool → List Char → Option (List Char)
  | false, [] => some []
  | true, [] => none
  | _, '\n' :: rest => skipLines false rest
  | _, '\r' :: '\n' :: rest => skipLines false rest
  | true, c :: rest => if isPrintable c then skipLines true rest else none
  | false, c :: rest =>
      if isSpace c then skipLines false rest
      else if c = '#' then skipLines true rest
      else some (c :: rest)

end Toml

end DiskWarden
