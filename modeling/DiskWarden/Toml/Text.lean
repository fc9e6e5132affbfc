import DiskWarden.Text.Blank
import DiskWarden.Text.Digits
import DiskWarden.Toml.Basic

/-!
Texts and keys of TOML. A text stands between single or double quotes, or, over several lines,
between three of them; escapes count between double quotes only.
-/

namespace DiskWarden.Toml

/-! ## Reading -/

/-- The character that an escape stands for, read after its backslash. -/
def escape? : Reader Char
  | 'b' :: rest => some ('\x08', rest)
  | 't' :: rest => some ('\t', rest)
  | 'n' :: rest => some ('\n', rest)
  | 'f' :: rest => some ('\x0c', rest)
  | 'r' :: rest => some ('\r', rest)
  | '"' :: rest => some ('"', rest)
  | '\\' :: rest => some ('\\', rest)
  | 'u' :: rest => numbered 4 rest
  | 'U' :: rest => numbered 8 rest
  | _ => none
where
  /-- The character whose number is written with a given count of digits. -/
  numbered (count : Nat) (input : List Char) : Option (Char × List Char) :=
    if input.length < count then none
    else
      ((Text.hexNumber? (input.take count)).bind Text.charOfNat?).map fun c =>
        (c, input.drop count)

/-- Reads a text between double quotes, after the first one. -/
def readBasic : Nat → Reader (List Char)
  | 0, _ => none
  | _ + 1, [] => none
  | _ + 1, '"' :: rest => some ([], rest)
  | fuel + 1, '\\' :: rest => do
      let (c, rest) ← escape? rest
      let (chars, rest) ← readBasic fuel rest
      some (c :: chars, rest)
  | fuel + 1, c :: rest =>
      if isPrintable c then (readBasic fuel rest).map fun (chars, rest) => (c :: chars, rest)
      else none

/-- Reads a text between single quotes, after the first one. -/
def readLiteral : Reader (List Char)
  | [] => none
  | '\'' :: rest => some ([], rest)
  | c :: rest =>
      if isPrintable c then (readLiteral rest).map fun (chars, rest) => (c :: chars, rest)
      else none

/-- The quotes at the front of an input: those that close a text of several lines, with up to
two before them that belong to it. None of them closes if they are fewer than three. -/
def closingQuotes? (quote : Char) (input : List Char) : Option (List Char × List Char) :=
  let count := (input.takeWhile (· == quote)).length
  if count < 3 then none
  else
    let inside := min (count - 3) 2
    some (List.replicate inside quote, input.drop (inside + 3))

/-- What follows a line break that an escape removes, with the space and the empty lines
behind it. -/
def dropEscapedBreak? (input : List Char) : Option (List Char) :=
  (dropLineBreak? (skipSpace input)).map dropBlankLines
where
  /-- Drops space and line breaks. -/
  dropBlankLines : List Char → List Char
    | '\n' :: rest => dropBlankLines rest
    | '\r' :: '\n' :: rest => dropBlankLines rest
    | c :: rest => if isSpace c then dropBlankLines rest else c :: rest
    | [] => []

/-- Reads a text of several lines, after the quotes that open it. Each line break in it counts
as a line feed. -/
def readLong (quote : Char) (escapes : Bool) : Nat → Reader (List Char)
  | 0, _ => none
  | fuel + 1, input =>
      match closingQuotes? quote input with
      | some closed => some closed
      | none =>
          let continueWith (read : List Char) (rest : List Char) :=
            (readLong quote escapes fuel rest).map fun (chars, rest) => (read ++ chars, rest)
          match dropLineBreak? input with
          | some rest => continueWith ['\n'] rest
          | none =>
              match input with
              | [] => none
              | c :: rest =>
                  if escapes && c == '\\' then
                    match dropEscapedBreak? rest with
                    | some rest => continueWith [] rest
                    | none =>
                        match escape? rest with
                        | some (c, rest) => continueWith [c] rest
                        | none => none
                  else if isPrintable c then continueWith [c] rest
                  else none

def readShortText : Reader (List Char)
  | '"' :: rest => readBasic (rest.length + 1) rest
  | '\'' :: rest => readLiteral rest
  | _ => none

/-- Reads a text of any kind. A line break right behind the opening quotes of a long one does
not belong to it. -/
def readText (input : List Char) : Option (String × List Char) :=
  let long (quote : Char) (escapes : Bool) (rest : List Char) :=
    readLong quote escapes (rest.length + 1) ((dropLineBreak? rest).getD rest)
  let read :=
    match input with
    | '"' :: '"' :: '"' :: rest => long '"' true rest
    | '\'' :: '\'' :: '\'' :: rest => long '\'' false rest
    | _ => readShortText input
  read.map fun (chars, rest) => (String.ofList chars, rest)

/-- The characters of keys that need no quotes. -/
def isBareKeyChar (c : Char) : Bool := c.isAlphanum || c == '-' || c == '_'

def readKey (input : List Char) : Option (String × List Char) :=
  match input with
  | '"' :: _ | '\'' :: _ =>
      (readShortText input).map fun (chars, rest) => (String.ofList chars, rest)
  | _ =>
      match input.takeWhile isBareKeyChar with
      | [] => none
      | chars => some (String.ofList chars, input.dropWhile isBareKeyChar)

/-- The number of keys that a path has to stay below. -/
def keyPathLimit : Nat := 80

/-- Reads the keys of a path, between which there are points. -/
def readKeys : Nat → Reader (List String)
  | 0, _ => none
  | fuel + 1, input => do
      let (key, rest) ← readKey (skipSpace input)
      match skipSpace rest with
      | '.' :: rest =>
          let (keys, rest) ← readKeys fuel rest
          some (key :: keys, rest)
      | rest => some ([key], rest)

def readKeyPath (input : List Char) : Option (List String × List Char) :=
  readKeys (keyPathLimit - 1) input

/-! ## Writing -/

inductive Quoting
  | basic
  | literal
  | longBasic
  | longLiteral
deriving DecidableEq, Repr

/-- The length of the longest run of a character. -/
def longestRun (c : Char) (chars : List Char) : Nat :=
  (chars.foldl
    (fun (longest, current) char =>
      let current := if char = c then current + 1 else 0
      (max longest current, current))
    (0, 0)).1

/-- Whether a character is a control that is neither a tab nor a line feed. -/
def isControl (c : Char) : Bool :=
  (c.toNat < 0x20 && c ≠ '\t' && c ≠ '\n') || c.toNat == 0x7F

/-- The way in which a text is written. Between double quotes where nothing in it has to be
escaped, between single ones where they do without escapes, over several lines where it has
line breaks or both quotes. -/
def quotingOf (chars : List Char) : Quoting :=
  let hasControls := chars.any isControl
  let hasBackslash := chars.contains '\\'
  let hasLineBreak := chars.contains '\n'
  let doubleQuotes := longestRun '"' chars
  let singleQuotes := longestRun '\'' chars
  if !hasControls && !hasBackslash && doubleQuotes = 0 && !hasLineBreak then .basic
  else if !hasControls && singleQuotes = 0 && !hasLineBreak then .literal
  else if !hasControls && !hasBackslash && doubleQuotes ≤ 2 then .longBasic
  else if !hasControls && singleQuotes ≤ 2 then .longLiteral
  else if hasLineBreak then .longBasic
  else .basic

/-- Whether a character is escaped between double quotes, of which so many may stand in a row,
and of which a number stand right before it. -/
def escapeOf? (isLong : Bool) (quotesBefore : Nat) (c : Char) : Option (List Char) :=
  if c = '"' then
    if (if isLong then 2 else 0) ≤ quotesBefore then some ['\\', '"'] else none
  else if c = '\\' then some ['\\', '\\']
  else if c = '\x08' then some ['\\', 'b']
  else if c = '\t' then some ['\\', 't']
  else if c = '\n' then if isLong then none else some ['\\', 'n']
  else if c = '\x0c' then some ['\\', 'f']
  else if c = '\r' then some ['\\', 'r']
  else if c.toNat < 0x20 || c.toNat = 0x7F then
    some ('\\' :: 'u' :: Text.upperHex 4 c.toNat)
  else none

/-- The characters between double quotes. -/
def escaped (isLong : Bool) : Nat → List Char → List Char
  | _, [] => []
  | quotesBefore, c :: rest =>
      match escapeOf? isLong quotesBefore c with
      | some written => written ++ escaped isLong 0 rest
      | none => c :: escaped isLong (if c = '"' then quotesBefore + 1 else 0) rest

/-- A text in a given way of writing. A long one starts on a new line if it has line
breaks. -/
def Quoting.write (quoting : Quoting) (chars : List Char) : List Char :=
  let firstBreak := if chars.contains '\n' then ['\n'] else []
  match quoting with
  | basic => ['"'] ++ escaped false 0 chars ++ ['"']
  | literal => ['\''] ++ chars ++ ['\'']
  | longBasic => "\"\"\"".toList ++ firstBreak ++ escaped true 0 chars ++ "\"\"\"".toList
  | longLiteral => "'''".toList ++ firstBreak ++ chars ++ "'''".toList

def quote (text : String) : String :=
  String.ofList ((quotingOf text.toList).write text.toList)

/-- The written form of a key. It stays on one line. -/
def keyText (key : String) : String :=
  let chars := key.toList
  if chars ≠ [] && chars.all isBareKeyChar then key
  else
    match quotingOf chars with
    | .literal => String.ofList (Quoting.literal.write chars)
    | _ => String.ofList (Quoting.basic.write chars)

end DiskWarden.Toml
