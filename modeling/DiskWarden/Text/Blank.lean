/-!
White space as the Unicode property `White_Space` has it, and trimming by it.
-/

namespace DiskWarden.Text

/-- Whether a character has the property `White_Space`. -/
def isBlank (c : Char) : Bool :=
  let n := c.toNat
  (0x09 ≤ n && n ≤ 0x0D) || n == 0x20 || n == 0x85 || n == 0xA0 || n == 0x1680 ||
    (0x2000 ≤ n && n ≤ 0x200A) || n == 0x2028 || n == 0x2029 || n == 0x202F ||
    n == 0x205F || n == 0x3000

/-- Drops the characters at the end that satisfy a test. -/
def dropEndWhile (test : Char → Bool) (chars : List Char) : List Char :=
  (chars.reverse.dropWhile test).reverse

/-- A list without the blanks at both ends. -/
def trimChars (chars : List Char) : List Char :=
  dropEndWhile isBlank (chars.dropWhile isBlank)

/-- A text without the blanks at both ends. -/
def trim (text : String) : String :=
  String.ofList (trimChars text.toList)

def isBlankText (text : String) : Bool :=
  text.toList.all isBlank

/-- A text without the carriage returns and line feeds at its end. -/
def trimLineEnd (text : String) : String :=
  String.ofList (dropEndWhile (fun c => c == '\r' || c == '\n') text.toList)

/-- What follows `head` in a list that starts with it. -/
def dropHead? (head : List Char) (chars : List Char) : Option (List Char) :=
  match head, chars with
  | [], rest => some rest
  | _ :: _, [] => none
  | h :: head, c :: chars => if h = c then dropHead? head chars else none

theorem dropHead?_eq_some_iff {head chars rest : List Char} :
    dropHead? head chars = some rest ↔ chars = head ++ rest := by
  induction head generalizing chars with
  | nil => simp [dropHead?]
  | cons h head ih =>
      cases chars with
      | nil => simp [dropHead?]
      | cons c chars =>
          by_cases same : h = c
          · simp [dropHead?, same, ih]
          · simp [dropHead?, same]
            intro hc
            exact absurd hc.symm same

/-- Whether `part` occurs somewhere in a list. -/
def occursIn (part : List Char) : List Char → Bool
  | [] => part.isEmpty
  | c :: rest => (dropHead? part (c :: rest)).isSome || occursIn part rest

/-- A text with its ASCII capitals made small. -/
def asciiLower (text : String) : String :=
  String.ofList (text.toList.map Char.toLower)

/-- Texts with a separator between each two. -/
def joinWith (separator : String) : List String → String
  | [] => ""
  | [text] => text
  | text :: rest => text ++ separator ++ joinWith separator rest

end DiskWarden.Text
