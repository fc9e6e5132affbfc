import DiskWarden.Text.Blank
import DiskWarden.Toml.Text

/-!
Writing TOML documents: each table under a header of its own, and arrays of several items with
one item to a line.
-/

namespace DiskWarden.Toml

mutual

/-- The written form of a value on one line. -/
def inline : Toml → String
  | text value => quote value
  | integer value => toString value
  | float written => written
  | bool value => if value then "true" else "false"
  | dateTime written => written
  | array items => "[" ++ Text.joinWith ", " (inlineItems items) ++ "]"
  | table [] => "\x7b\x7d"
  | table members => "\x7b " ++ Text.joinWith ", " (inlineMembers members) ++ " \x7d"

def inlineItems : List Toml → List String
  | [] => []
  | item :: items => inline item :: inlineItems items

def inlineMembers : List (String × Toml) → List String
  | [] => []
  | (key, value) :: members => (keyText key ++ " = " ++ inline value) :: inlineMembers members

end

/-- The written form of the value of a key. -/
def valueText : Toml → String
  | array (first :: second :: items) =>
      "[" ++ String.join ((first :: second :: items).map fun item =>
        "\n    " ++ inline item ++ ",") ++ "\n]"
  | value => inline value

/-- The lines of a table: its header, which the document itself does not have, and the members
that are no tables. -/
structure Section where
  path : List String
  leaves : List (String × Toml)

namespace Section

/-- Whether a section has to be written: a table that only holds others does without. -/
def isWritten (part : Section) (members : List (String × Toml)) : Bool :=
  if part.path = [] then !part.leaves.isEmpty
  else !part.leaves.isEmpty || members.isEmpty

def headerText (part : Section) : String :=
  if part.path = [] then ""
  else "[" ++ Text.joinWith "." (part.path.map keyText) ++ "]\n"

def leafText (leaf : String × Toml) : String :=
  keyText leaf.1 ++ " = " ++ valueText leaf.2 ++ "\n"

def write (part : Section) : String :=
  part.headerText ++ String.join (part.leaves.map leafText)

end Section

def isTable : Toml → Bool
  | table _ => true
  | _ => false

mutual

def sections (path : List String) : Toml → List Section
  | table members =>
      let own : Section := ⟨path, members.filter fun member => !isTable member.2⟩
      (if own.isWritten members then [own] else []) ++ innerSections path members
  | _ => []

def innerSections (path : List String) : List (String × Toml) → List Section
  | [] => []
  | (key, value) :: members => sections (path ++ [key]) value ++ innerSections path members

end

/-- Whether all integers in a value are in range. -/
def inRange (value : Int) : Bool :=
  -(integerLimit : Int) ≤ value && value < integerLimit

mutual

def isWritable : Toml → Bool
  | integer value => inRange value
  | array items => areWritable items
  | table members => haveWritable members
  | _ => true

def areWritable : List Toml → Bool
  | [] => true
  | item :: items => isWritable item && areWritable items

def haveWritable : List (String × Toml) → Bool
  | [] => true
  | (_, value) :: members => isWritable value && haveWritable members

end

/-- The written form of a document, with an empty line between two sections. None if an
integer is out of range. -/
def pretty? (document : Toml) : Option String :=
  if document.isWritable then
    some (Text.joinWith "\n" ((sections [] document).map Section.write))
  else none

end DiskWarden.Toml
