import DiskWarden.Yaml.Token

/-!
The tokens of a text. What stands before a colon is found to be a key only afterwards, so the
place of each token that may start a key is remembered, and the mark of the key is put in there
later.
-/

namespace DiskWarden.Yaml

/-- A token that may start a key: its number, its place, and whether a colon has to follow, as
it stands where the next key of a block is due. -/
structure Candidate where
  number : Nat
  line : Nat
  column : Nat
  offset : Nat
  isRequired : Bool
deriving Repr

/-- Tokens under construction: those found, the last one first, and how many they are; the
columns at which the open blocks start, the innermost first; the candidates of the open flow
collections, the innermost first, with that of the block around them at the end; and whether a
key may start here. -/
structure Scan where
  cursor : Cursor
  found : List Token
  count : Nat
  indents : List Nat
  candidates : List (Option Candidate)
  keyAllowed : Bool
deriving Repr

namespace Scan

def start (input : List Char) : Scan := ⟨.start input, [], 0, [], [none], true⟩

def inFlow (scan : Scan) : Bool := 1 < scan.candidates.length

/-- The column of the innermost block, or -1. -/
def indent (scan : Scan) : Int :=
  match scan.indents with
  | [] => -1
  | column :: _ => column

def push (scan : Scan) (token : Token) : Scan :=
  { scan with found := token :: scan.found, count := scan.count + 1 }

def insert (scan : Scan) (number : Nat) (token : Token) : Scan :=
  let later := scan.count - number
  { scan with
    found := scan.found.take later ++ token :: scan.found.drop later
    count := scan.count + 1 }

/-- Passes characters, of which the token is found. -/
def advance (scan : Scan) (count : Nat) : Scan :=
  { scan with cursor := scan.cursor.advance count }

/-! ## Candidates -/

/-- Gives up the innermost candidate. -/
def dropCandidate (scan : Scan) : Option Scan :=
  match scan.candidates with
  | some candidate :: rest =>
      if candidate.isRequired then none else some { scan with candidates := none :: rest }
  | _ => some scan

/-- Makes the token that starts here a candidate, if a key may start here. -/
def noteCandidate (scan : Scan) : Option Scan :=
  if !scan.keyAllowed then some scan
  else do
    let scan ← scan.dropCandidate
    let candidate : Candidate :=
      ⟨scan.count, scan.cursor.line, scan.cursor.column, scan.cursor.offset,
        !scan.inFlow && scan.indent == scan.cursor.column⟩
    some { scan with candidates := some candidate :: scan.candidates.drop 1 }

/-- How long a key without a mark may be, in octets. -/
def keyLengthLimit : Nat := 1024

/-- Whether a candidate can still become a key: it has to be short and on one line. -/
def isStale (cursor : Cursor) (candidate : Candidate) : Bool :=
  candidate.line < cursor.line || candidate.offset + keyLengthLimit < cursor.offset

/-- Gives up the candidates that can no longer become keys. -/
def dropStale (cursor : Cursor) :
    List (Option Candidate) → Option (List (Option Candidate))
  | [] => some []
  | none :: rest => (dropStale cursor rest).map (none :: ·)
  | some candidate :: rest =>
      if isStale cursor candidate then
        if candidate.isRequired then none else (dropStale cursor rest).map (none :: ·)
      else (dropStale cursor rest).map (some candidate :: ·)

/-! ## Indentation -/

/-- Opens a block at a column, if it is deeper than the present one. Its token goes before the
one with the given number. -/
def openBlock (scan : Scan) (column : Nat) (number : Nat) (token : Token) : Scan :=
  if scan.inFlow || (column : Int) ≤ scan.indent then scan
  else { scan.insert number token with indents := column :: scan.indents }

/-- Closes the blocks that start behind a column. -/
def closeBlocks (scan : Scan) (column : Int) : Scan :=
  if scan.inFlow then scan
  else
    let closed := scan.indents.takeWhile fun (indent : Nat) => decide (column < indent)
    { scan with
      found := List.replicate closed.length Token.blockEnd ++ scan.found
      count := scan.count + closed.length
      indents := scan.indents.drop closed.length }

/-! ## The way to the next token -/

/-- Whether a character is passed between tokens. Tabs are not, where a key may start in a
block. -/
def isSkipped (scan : Scan) (c : Char) : Bool :=
  c == ' ' || (c == '\t' && (scan.inFlow || !scan.keyAllowed))

/-- Passes blanks, comments and line breaks. -/
def skipToToken : Nat → Scan → Scan
  | 0, scan => scan
  | fuel + 1, scan =>
      let cursor :=
        if scan.cursor.column = 0 && scan.cursor.input.head? = some byteOrderMark then
          scan.cursor.advance 1
        else scan.cursor
      let cursor := (cursor.skipWhile scan.isSkipped).skipComment
      if cursor.input ≠ [] && endsLine cursor.input then
        skipToToken fuel
          { scan with
            cursor := cursor.readBreak.2
            keyAllowed := scan.keyAllowed || !scan.inFlow }
      else { scan with cursor }

/-! ## Single tokens -/

/-- Ends all blocks, before a mark of a document or a directive. -/
def leaveBlocks (scan : Scan) : Option Scan :=
  ((scan.closeBlocks (-1)).dropCandidate).map fun scan => { scan with keyAllowed := false }

def readDocumentMark (scan : Scan) (token : Token) : Option Scan := do
  some (((← scan.leaveBlocks).push token).advance 3)

def readDirectiveLine (scan : Scan) : Option Scan := do
  let scan ← scan.leaveBlocks
  let (token, cursor) ← readDirective scan.cursor
  some { scan.push token with cursor }

def openFlow (scan : Scan) (token : Token) : Option Scan := do
  let scan ← scan.noteCandidate
  some { (scan.push token).advance 1 with
    candidates := none :: scan.candidates
    keyAllowed := true }

def closeFlow (scan : Scan) (token : Token) : Option Scan := do
  let scan ← scan.dropCandidate
  some { (scan.push token).advance 1 with
    candidates := if scan.inFlow then scan.candidates.drop 1 else scan.candidates
    keyAllowed := false }

def readFlowEntry (scan : Scan) : Option Scan := do
  let scan ← scan.dropCandidate
  some { (scan.push .flowEntry).advance 1 with keyAllowed := true }

def readBlockEntry (scan : Scan) : Option Scan := do
  if !scan.inFlow && !scan.keyAllowed then none
  else
    let scan := scan.openBlock scan.cursor.column scan.count .blockSequenceStart
    let scan ← scan.dropCandidate
    some { (scan.push .blockEntry).advance 1 with keyAllowed := true }

def readKeyMark (scan : Scan) : Option Scan := do
  if !scan.inFlow && !scan.keyAllowed then none
  else
    let scan := scan.openBlock scan.cursor.column scan.count .blockMappingStart
    let scan ← scan.dropCandidate
    some { (scan.push .key).advance 1 with keyAllowed := !scan.inFlow }

/-- Reads the colon before a value. If there is a candidate, it is the key. -/
def readValueMark (scan : Scan) : Option Scan :=
  match scan.candidates with
  | some candidate :: rest =>
      let scan := { scan.insert candidate.number .key with candidates := none :: rest }
      let scan := scan.openBlock candidate.column candidate.number .blockMappingStart
      some { (scan.push .value).advance 1 with keyAllowed := false }
  | _ =>
      if !scan.inFlow && !scan.keyAllowed then none
      else
        let scan := scan.openBlock scan.cursor.column scan.count .blockMappingStart
        some { (scan.push .value).advance 1 with keyAllowed := !scan.inFlow }

/-- Takes over a token that may start a key. -/
def readLeaf (scan : Scan) (read : Scan → Option (Token × Cursor)) : Option Scan := do
  let scan ← scan.noteCandidate
  let (token, cursor) ← read scan
  some { scan.push token with cursor, keyAllowed := false }

def readQuoted (style : Style) (scan : Scan) : Option (Token × Cursor) :=
  let start := scan.cursor.advance 1
  let read :=
    if style = .singleQuoted then readSingleQuoted (start.input.length + 1) start
    else readDoubleQuoted (start.input.length + 1) start
  read.map fun (chars, cursor) => (.scalar style (String.ofList chars), cursor)

def readPlainScalar (scan : Scan) : Option Scan := do
  let scan ← scan.noteCandidate
  let read ←
    readPlain scan.inFlow (scan.indent + 1).toNat (scan.cursor.input.length + 1) .empty
      scan.cursor
  some { scan.push (.scalar .plain (String.ofList read.chars)) with
    cursor := read.cursor
    keyAllowed := read.passedBreak }

def readBlockScalar (scan : Scan) (style : Style) : Option Scan := do
  let scan ← scan.dropCandidate
  let (chars, cursor) ← readBlock style scan.indent (scan.cursor.advance 1)
  some { scan.push (.scalar style (String.ofList chars)) with cursor, keyAllowed := true }

/-- The characters that no plain scalar starts with, some of them only before a blank. -/
def indicators : List Char :=
  ['-', '?', ':', ',', '[', ']', '{', '}', '#', '&', '*', '!', '|', '>', '\'', '"', '%', '@',
    '`']

/-- Whether a plain scalar starts with a character before some rest. -/
def startsPlain (scan : Scan) (c : Char) (rest : List Char) : Bool :=
  !(isBlank c || isBreak c || indicators.contains c) ||
    (c == '-' && !(rest.head?.map isBlank).getD false) ||
    (!scan.inFlow && (c == '?' || c == ':') && !endsWord rest)

def readToken (scan : Scan) (c : Char) (rest : List Char) : Option Scan :=
  if scan.cursor.column = 0 && c == '%' then scan.readDirectiveLine
  else if scan.cursor.atDocumentStart then scan.readDocumentMark .documentStart
  else if scan.cursor.atDocumentEnd then scan.readDocumentMark .documentEnd
  else if c == '[' then scan.openFlow .flowSequenceStart
  else if c == '{' then scan.openFlow .flowMappingStart
  else if c == ']' then scan.closeFlow .flowSequenceEnd
  else if c == '}' then scan.closeFlow .flowMappingEnd
  else if c == ',' then scan.readFlowEntry
  else if c == '-' && endsWord rest then scan.readBlockEntry
  else if c == '?' && (scan.inFlow || endsWord rest) then scan.readKeyMark
  else if c == ':' && (scan.inFlow || endsWord rest) then scan.readValueMark
  else if c == '*' then
    scan.readLeaf fun scan => (readName scan.cursor).map fun (name, last) => (.alias name, last)
  else if c == '&' then
    scan.readLeaf fun scan => (readName scan.cursor).map fun (name, last) => (.anchor name, last)
  else if c == '!' then
    scan.readLeaf fun scan =>
      (readTag scan.inFlow scan.cursor).map fun (written, last) => (.tag written, last)
  else if c == '|' && !scan.inFlow then scan.readBlockScalar .literal
  else if c == '>' && !scan.inFlow then scan.readBlockScalar .folded
  else if c == '\'' then scan.readLeaf (readQuoted .singleQuoted)
  else if c == '"' then scan.readLeaf (readQuoted .doubleQuoted)
  else if scan.startsPlain c rest then scan.readPlainScalar
  else none

def readAll : Nat → Scan → Option (List Token)
  | 0, _ => none
  | fuel + 1, scan => do
      let scan := skipToToken (scan.cursor.input.length + 1) scan
      let scan := { scan with candidates := ← dropStale scan.cursor scan.candidates }
      let scan := scan.closeBlocks scan.cursor.column
      match scan.cursor.input with
      | [] => (scan.leaveBlocks).map fun scan => scan.found.reverse
      | c :: rest => readAll fuel (← scan.readToken c rest)

end Scan

def Token.ofText? (text : String) : Option (List Token) :=
  let chars := text.toList
  if chars.all isAllowed then Scan.readAll (chars.length + 1) (.start chars) else none

end DiskWarden.Yaml
