import DiskWarden.Text.Blank

/-!
Places in a YAML text, and the characters that divide it.
-/

namespace DiskWarden.Yaml

/-! ## Characters -/

/-- The characters that a document may hold unescaped. -/
def isAllowed (c : Char) : Bool :=
  let n := c.toNat
  n == 0x09 || n == 0x0A || n == 0x0D || (0x20 ≤ n && n ≤ 0x7E) || n == 0x85 ||
    (0xA0 ≤ n && n ≤ 0xFFFD) || 0x10000 ≤ n

def isBreak (c : Char) : Bool :=
  c == '\n' || c == '\r' || c == '\x85' || c == '\u2028' || c == '\u2029'

def isBlank (c : Char) : Bool := c == ' ' || c == '\t'

/-- The characters of names: letters, digits, `_` and `-`. -/
def isNameChar (c : Char) : Bool := c.isAlphanum || c == '_' || c == '-'

/-- The mark that may stand at the start of a line, where it counts as a column. -/
def byteOrderMark : Char := '\uFEFF'

/-- Whether an input starts with a blank or a line break, or is used up. -/
def endsWord : List Char → Bool
  | [] => true
  | c :: _ => isBlank c || isBreak c

def endsLine : List Char → Bool
  | [] => true
  | c :: _ => isBreak c

/-! ## Places -/

/-- A place in a text: what follows it, and how many lines, characters of its line, and octets
of the text lie before it. -/
structure Cursor where
  input : List Char
  line : Nat
  column : Nat
  offset : Nat
deriving Repr

/-- How many octets some characters take. -/
def octetSize (chars : List Char) : Nat := chars.foldl (fun size c => size + c.utf8Size) 0

namespace Cursor

def start (input : List Char) : Cursor := ⟨input, 0, 0, 0⟩

/-- Passes characters of the line. -/
def advance (cursor : Cursor) (count : Nat) : Cursor :=
  ⟨cursor.input.drop count, cursor.line, cursor.column + count,
    cursor.offset + octetSize (cursor.input.take count)⟩

/-- Passes the characters of the line that satisfy a test. -/
def skipWhile (cursor : Cursor) (test : Char → Bool) : Cursor :=
  cursor.advance (cursor.input.takeWhile test).length

def skipBlanks (cursor : Cursor) : Cursor := cursor.skipWhile isBlank

def skipComment (cursor : Cursor) : Cursor :=
  if cursor.input.head? = some '#' then cursor.skipWhile fun c => !isBreak c else cursor

/-- Passes the characters that end the line. -/
def endLine (cursor : Cursor) (count : Nat) : Cursor :=
  ⟨cursor.input.drop count, cursor.line + 1, 0,
    cursor.offset + octetSize (cursor.input.take count)⟩

/-- Passes a line break, if there is one, and tells what it counts as in a scalar: the usual
ones are all one line feed. -/
def readBreak (cursor : Cursor) : List Char × Cursor :=
  match cursor.input with
  | '\r' :: '\n' :: _ => (['\n'], cursor.endLine 2)
  | c :: _ =>
      if c == '\u2028' || c == '\u2029' then ([c], cursor.endLine 1)
      else if isBreak c then (['\n'], cursor.endLine 1)
      else ([], cursor)
  | [] => ([], cursor)

/-- Whether a mark of a document's start or end stands here: three equal characters at the
start of a line, and nothing right behind them. -/
def atMark (cursor : Cursor) (c : Char) : Bool :=
  cursor.column == 0 && cursor.input.take 3 == [c, c, c] && endsWord (cursor.input.drop 3)

def atDocumentStart (cursor : Cursor) : Bool := cursor.atMark '-'

def atDocumentEnd (cursor : Cursor) : Bool := cursor.atMark '.'

def atDocumentMark (cursor : Cursor) : Bool := cursor.atDocumentStart || cursor.atDocumentEnd

end Cursor

end DiskWarden.Yaml
