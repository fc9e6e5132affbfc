import DiskWarden.Yaml.Scalar
import DiskWarden.Yaml.Tag

/-!
Tokens of YAML: the marks of collections and documents, names, tags and scalars. Indentation
becomes tokens as well, and so does a key without a mark of its own, once its colon is found.
-/

namespace DiskWarden.Yaml

inductive Token
  | versionDirective (major minor : Nat)
  | tagDirective (handle : String) (start : Text.Octets)
  | documentStart
  | documentEnd
  | blockSequenceStart
  | blockMappingStart
  | blockEnd
  | flowSequenceStart
  | flowSequenceEnd
  | flowMappingStart
  | flowMappingEnd
  | blockEntry
  | flowEntry
  | key
  | value
  | alias (name : String)
  | anchor (name : String)
  | tag (written : WrittenTag)
  | scalar (style : Style) (text : String)
deriving DecidableEq, Repr

/-! ## Names -/

/-- The characters that may follow a name directly. -/
def endsName (input : List Char) : Bool :=
  endsWord input ||
    (match input with
      | c :: _ => ['?', ':', ',', ']', '}', '%', '@', '`'].contains c
      | [] => true)

/-- Reads the name of an anchor or an alias, at its mark. -/
def readName (cursor : Cursor) : Option (String × Cursor) :=
  let start := cursor.advance 1
  let name := start.input.takeWhile isNameChar
  let last := start.advance name.length
  if name = [] || !endsName last.input then none else some (String.ofList name, last)

/-! ## Directives -/

/-- How many digits a part of a version may have. -/
def versionDigits : Nat := 9

def readVersionPart (cursor : Cursor) : Option (Nat × Cursor) :=
  let digits := cursor.input.takeWhile Char.isDigit
  if digits = [] || versionDigits < digits.length then none
  else
    some (digits.foldl (fun value c => value * 10 + (c.toNat - 48)) 0,
      cursor.advance digits.length)

/-- Reads the value of a directive about the version. -/
def readVersion (cursor : Cursor) : Option (Token × Cursor) := do
  let (major, point) ← readVersionPart cursor.skipBlanks
  if point.input.head? = some '.' then
    let (minor, last) ← readVersionPart (point.advance 1)
    some (.versionDirective major minor, last)
  else none

/-- Reads the value of a directive about a tag handle. -/
def readTagDirective (cursor : Cursor) : Option (Token × Cursor) := do
  let (handle, afterHandle) ← readHandle cursor.skipBlanks
  if !(isClosedHandle handle || handle = ['!']) then none
  else
    match afterHandle.input with
    | [] => none
    | c :: _ =>
        if !isBlank c then none
        else
          let (start, last) ← readTagPart true afterHandle.skipBlanks
          if endsWord last.input then
            some (.tagDirective (String.ofList handle) start, last)
          else none

/-- Reads a directive at its mark, to the end of its line. -/
def readDirective (cursor : Cursor) : Option (Token × Cursor) := do
  let start := cursor.advance 1
  let name := start.input.takeWhile isNameChar
  let afterName := start.advance name.length
  if !endsWord afterName.input then none
  else
    let (token, last) ←
      if name = "YAML".toList then readVersion afterName
      else if name = "TAG".toList then readTagDirective afterName
      else none
    let last := last.skipBlanks.skipComment
    if endsLine last.input then some (token, last.readBreak.2) else none

end DiskWarden.Yaml
