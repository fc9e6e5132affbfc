import DiskWarden.Decimal.Shortest
import DiskWarden.Json.Text

/-!
Writing JSON, on one line or laid out over several.
-/

namespace DiskWarden.Json

/-- Doubles are written out from `0.00001` up to below `10 ^ 16`. -/
def numberStyle : Decimal.Style := ⟨-5, 16⟩

/-- The written form of a double. What is no number has none, and is written as `null`. -/
def floatText (value : Float) : String :=
  (numberStyle.text? value).getD "null"

/-- The written form of a value that holds no others. -/
def leafText : Json → String
  | null => "null"
  | bool value => if value then "true" else "false"
  | integer value => toString value
  | float value => floatText value
  | text value => quote value
  | array _ | object _ => ""

mutual

/-- The written form of a value on one line, without spaces. -/
def compact : Json → String
  | array items => "[" ++ compactItems items ++ "]"
  | object members => "\x7b" ++ compactMembers members ++ "\x7d"
  | leaf => leafText leaf

def compactItems : List Json → String
  | [] => ""
  | [item] => compact item
  | item :: items => compact item ++ "," ++ compactItems items

def compactMembers : List (String × Json) → String
  | [] => ""
  | [(name, value)] => quote name ++ ":" ++ compact value
  | (name, value) :: members =>
      quote name ++ ":" ++ compact value ++ "," ++ compactMembers members

end

/-- A line break and the indentation of a level. -/
def newLine (level : Nat) : String :=
  "\n" ++ String.ofList (List.replicate (2 * level) ' ')

mutual

/-- The written form of a value with one element or member to a line. -/
def laidOut (level : Nat) : Json → String
  | array [] => "[]"
  | array items => "[" ++ laidOutItems (level + 1) items ++ newLine level ++ "]"
  | object [] => "\x7b\x7d"
  | object members => "\x7b" ++ laidOutMembers (level + 1) members ++ newLine level ++ "\x7d"
  | leaf => leafText leaf

def laidOutItems (level : Nat) : List Json → String
  | [] => ""
  | [item] => newLine level ++ laidOut level item
  | item :: items => newLine level ++ laidOut level item ++ "," ++ laidOutItems level items

def laidOutMembers (level : Nat) : List (String × Json) → String
  | [] => ""
  | [(name, value)] => newLine level ++ quote name ++ ": " ++ laidOut level value
  | (name, value) :: members =>
      newLine level ++ quote name ++ ": " ++ laidOut level value ++ "," ++
        laidOutMembers level members

end

/-- The written form of a document over several lines. -/
def pretty (value : Json) : String := laidOut 0 value

end DiskWarden.Json
