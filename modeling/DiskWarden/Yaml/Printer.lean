import DiskWarden.Yaml.Meaning
import DiskWarden.Yaml.Node

/-!
Writing YAML: collections as indented blocks, and each scalar in the plainest way in which it
reads back as the text that it is.
-/

namespace DiskWarden.Yaml

/-! ## The way to write a scalar -/

/-- The characters that can be written as they are. -/
def isPrintable (c : Char) : Bool :=
  let n := c.toNat
  n == 0x0A || (0x20 ≤ n && n ≤ 0x7E) || (0xA0 ≤ n && n ≤ 0xFFFD && n ≠ 0xFEFF) || 0x10000 ≤ n

/-- Whether a character satisfying one test is followed by one satisfying another. -/
def hasPair (first second : Char → Bool) : List Char → Bool
  | a :: b :: rest => (first a && second b) || hasPair first second (b :: rest)
  | _ => false

/-- The indicators that a plain scalar must not start with. -/
def leadingIndicators : List Char :=
  [',', '[', ']', '{', '}', '#', '&', '*', '!', '|', '>', '\'', '"', '%', '@', '`']

/-- Whether a scalar starts as something else would. -/
def startsAsMark (chars : List Char) : Bool :=
  ["---".toList, "...".toList].contains (chars.take 3) ||
    (match chars with
      | c :: rest =>
          leadingIndicators.contains c || (['?', ':', '-'].contains c && endsWord rest)
      | [] => false)

/-- Whether a scalar holds a colon that ends a word, or a hash that starts one. -/
def holdsMark (chars : List Char) : Bool :=
  hasPair (fun c => isBlank c || isBreak c) (· == '#') chars ||
    hasPair (· == ':') (fun c => isBlank c || isBreak c) chars ||
    chars.getLast? = some ':'

def isSpaceOrBreak (c : Char) : Bool := c == ' ' || isBreak c

/-- Whether a scalar can be written plainly. -/
def allowsPlain (chars : List Char) : Bool :=
  chars.all isPrintable && !chars.any isBreak &&
    !(chars.head?.map isSpaceOrBreak).getD false &&
    !(chars.getLast?.map isSpaceOrBreak).getD false &&
    !startsAsMark chars && !holdsMark chars

/-- Whether a scalar can be written between single quotes. -/
def allowsSingleQuotes (chars : List Char) : Bool :=
  chars.all isPrintable && !hasPair isBreak (· == ' ') chars && !hasPair (· == ' ') isBreak chars

/-- Whether a scalar can be written as a block of lines. -/
def allowsBlock (chars : List Char) : Bool :=
  chars.all isPrintable && !hasPair (· == ' ') isBreak chars && chars.getLast? ≠ some ' '

def styleOf (text : String) : Style :=
  let chars := text.toList
  if chars.contains '\n' then if allowsBlock chars then .literal else .doubleQuoted
  else if !needsQuotes text && allowsPlain chars then .plain
  else if allowsSingleQuotes chars then .singleQuoted
  else .doubleQuoted

def Node.ofText (text : String) : Node := .scalar none (styleOf text) text

/-! ## Scalars -/

def padding (indent : Nat) : List Char := List.replicate indent ' '

/-- Characters in which each line but the first is indented. Empty lines are not. -/
def indentLines (indent : Nat) : Bool → List Char → List Char
  | atStart, [] => if atStart then padding indent else []
  | atStart, c :: rest =>
      if isBreak c then c :: indentLines indent true rest
      else (if atStart then padding indent else []) ++ c :: indentLines indent false rest

def singleQuotedChar (c : Char) : List Char := if c = '\'' then ['\'', '\''] else [c]

/-- The letters for single characters behind a backslash. -/
def writtenEscapes : List (Char × Char) :=
  [('\x00', '0'), ('\x07', 'a'), ('\x08', 'b'), ('\t', 't'), ('\n', 'n'), ('\x0b', 'v'),
   ('\x0c', 'f'), ('\r', 'r'), ('\x1b', 'e'), ('"', '"'), ('\\', '\\'), ('\x85', 'N'),
   ('\u2028', 'L'), ('\u2029', 'P')]

def doubleQuotedChar (c : Char) : List Char :=
  if isPrintable c && !isBreak c && c ≠ '"' && c ≠ '\\' then [c]
  else
    match writtenEscapes.lookup c with
    | some letter => ['\\', letter]
    | none =>
        if c.toNat ≤ 0xFF then '\\' :: 'x' :: Text.upperHex 2 c.toNat
        else if c.toNat ≤ 0xFFFF then '\\' :: 'u' :: Text.upperHex 4 c.toNat
        else '\\' :: 'U' :: Text.upperHex 8 c.toNat

def indentStep : Nat := 2

/-- The indicators of a block: its indentation if the text starts with a blank or a break, and
what becomes of the breaks at its end. -/
def blockIndicators (chars : List Char) : List Char :=
  (if (chars.head?.map isSpaceOrBreak).getD false then ['2'] else []) ++
    (match chars.reverse with
      | [] => ['-']
      | last :: before =>
          if !isBreak last then ['-']
          else if before.isEmpty || (before.head?.map isBreak).getD false then ['+']
          else [])

/-- The lines of a block, each with its indentation. -/
def blockLines (indent : Nat) (chars : List Char) : List Char :=
  let rec go : Bool → List Char → List Char
    | _, [] => []
    | atStart, c :: rest =>
        if isBreak c then c :: go true rest
        else (if atStart then padding indent else []) ++ c :: go false rest
  go true chars

/-- The written form of a scalar, to the end of its line, with a given indentation for further
lines. -/
def scalarLine (indent : Nat) (style : Style) (text : String) : String :=
  let chars := text.toList
  String.ofList
    (match style with
      | .plain => chars ++ ['\n']
      | .singleQuoted =>
          '\'' :: indentLines indent false (chars.flatMap singleQuotedChar) ++ ['\'', '\n']
      | .doubleQuoted => '"' :: chars.flatMap doubleQuotedChar ++ ['"', '\n']
      | .literal | .folded =>
          let lines := blockLines indent chars
          '|' :: blockIndicators chars ++ '\n' :: lines ++
            (if (lines.getLast?.map isBreak).getD false then [] else ['\n']))

/-! ## Collections -/

/-- How long a key without a mark may be, in octets. -/
def simpleKeyLimit : Nat := 128

/-- Whether a key needs no mark. -/
def isSimpleKey : Node → Bool
  | .scalar _ _ text => !text.toList.any isBreak && text.utf8ByteSize ≤ simpleKeyLimit
  | .sequence _ items => items.isEmpty
  | .mapping _ entries => entries.isEmpty
  | .reference _ => true

def tagText (tag : Option Tag) : String :=
  match tag with
  | some tag => tag.text ++ " "
  | none => ""

/-- A text without its last character. -/
def dropLast (text : String) : String := String.ofList text.toList.dropLast

/-- A text without the characters of an indentation at its front. -/
def dropPadding (indent : Nat) (text : String) : String := String.ofList (text.toList.drop indent)

def pad (indent : Nat) : String := String.ofList (padding indent)

mutual

def behindMark (indent : Nat) : Node → String
  | .scalar tag style text => tagText tag ++ scalarLine (indent + indentStep) style text
  | .sequence tag [] => tagText tag ++ "[]\n"
  | .sequence tag items =>
      tagText tag ++ dropPadding (indent + indentStep) (itemLines (indent + indentStep) items)
  | .mapping tag [] => tagText tag ++ "\x7b\x7d\n"
  | .mapping tag entries =>
      tagText tag ++ dropPadding (indent + indentStep) (entryLines (indent + indentStep) entries)
  | .reference anchor => "*" ++ toString anchor ++ "\n"

/-- The written form of a node behind the colon of a key that has a given indentation. -/
def behindKey (indent : Nat) : Node → String
  | .scalar tag style text => " " ++ tagText tag ++ scalarLine (indent + indentStep) style text
  | .sequence tag [] => " " ++ tagText tag ++ "[]\n"
  | .sequence tag items => tagText tag ++ "\n" ++ itemLines indent items
  | .mapping tag [] => " " ++ tagText tag ++ "\x7b\x7d\n"
  | .mapping tag entries => tagText tag ++ "\n" ++ entryLines (indent + indentStep) entries
  | .reference anchor => " *" ++ toString anchor ++ "\n"

def itemLines (indent : Nat) : List Node → String
  | [] => ""
  | item :: items => pad indent ++ "- " ++ behindMark indent item ++ itemLines indent items

def entryLines (indent : Nat) : List (Node × Node) → String
  | [] => ""
  | (key, value) :: entries =>
      (if isSimpleKey key then
        pad indent ++ dropLast (behindMark indent key) ++ ":" ++ behindKey indent value
      else
        pad indent ++ "? " ++ behindMark indent key ++ pad indent ++ ": " ++
          behindMark indent value) ++
        entryLines indent entries

end

/-- The written form of a document. -/
def Node.render : Node → String
  | .sequence _ (item :: items) => itemLines 0 (item :: items)
  | .mapping _ (entry :: entries) => entryLines 0 (entry :: entries)
  | node => behindMark 0 node

end DiskWarden.Yaml
