import DiskWarden.Text.Digits
import DiskWarden.Yaml.Cursor

/-!
Scalars of YAML: plain ones, quoted ones, and blocks of lines. In the first two, blanks around
a line break are dropped, and the break is folded into a space.
-/

namespace DiskWarden.Yaml

inductive Style
  | plain
  | singleQuoted
  | doubleQuoted
  | literal
  | folded
deriving DecidableEq, Repr

/-! ## Gaps between words -/

/-- The blanks and line breaks between two words. -/
structure Gap where
  blanks : List Char
  hasBreak : Bool
  firstBreak : List Char
  moreBreaks : List Char
deriving Repr

namespace Gap

def empty : Gap := ⟨[], false, [], []⟩

/-- The gap behind a line break that an escape removes. -/
def afterEscapedBreak : Gap := ⟨[], true, [], []⟩

/-- What a gap counts as. -/
def text (gap : Gap) : List Char :=
  if !gap.hasBreak then gap.blanks
  else if gap.firstBreak = ['\n'] then
    if gap.moreBreaks = [] then [' '] else gap.moreBreaks
  else gap.firstBreak ++ gap.moreBreaks

def addBreak (gap : Gap) (written : List Char) : Gap :=
  if gap.hasBreak then { gap with moreBreaks := gap.moreBreaks ++ written }
  else { gap with blanks := [], hasBreak := true, firstBreak := written }

/-- Adds a blank. Those at the start of a line do not count. -/
def addBlank (gap : Gap) (c : Char) : Gap :=
  if gap.hasBreak then gap else { gap with blanks := gap.blanks ++ [c] }

/-- Reads on in a gap. At the start of a line there must be no tab before a given column. -/
def read (leastColumn : Nat) : Nat → Gap → Cursor → Option (Gap × Cursor)
  | 0, gap, cursor => some (gap, cursor)
  | fuel + 1, gap, cursor =>
      match cursor.input with
      | [] => some (gap, cursor)
      | c :: _ =>
          if isBlank c then
            if gap.hasBreak && cursor.column < leastColumn && c == '\t' then none
            else read leastColumn fuel (gap.addBlank c) (cursor.advance 1)
          else if isBreak c then
            let (written, cursor) := cursor.readBreak
            read leastColumn fuel (gap.addBreak written) cursor
          else some (gap, cursor)

end Gap

/-! ## Quoted scalars -/

/-- What a letter stands for behind a backslash. -/
def escapeTable : List (Char × Char) :=
  [('0', '\x00'), ('a', '\x07'), ('b', '\x08'), ('t', '\t'), ('\t', '\t'), ('n', '\n'),
   ('v', '\x0b'), ('f', '\x0c'), ('r', '\r'), ('e', '\x1b'), (' ', ' '), ('"', '"'),
   ('/', '/'), ('\\', '\\'), ('N', '\x85'), ('_', '\xa0'), ('L', '\u2028'), ('P', '\u2029')]

/-- How many digits follow a letter behind a backslash, if they give a character's number. -/
def escapeDigits? : Char → Option Nat
  | 'x' => some 2
  | 'u' => some 4
  | 'U' => some 8
  | _ => none

def readEscape (cursor : Cursor) : Option (Char × Cursor) :=
  match cursor.input.drop 1 with
  | [] => none
  | letter :: rest =>
      match escapeDigits? letter with
      | some count =>
          if rest.length < count then none
          else
            ((Text.hexNumber? (rest.take count)).bind Text.charOfNat?).map fun c =>
              (c, cursor.advance (2 + count))
      | none => (escapeTable.lookup letter).map fun c => (c, cursor.advance 2)

/-- Reads a scalar between single quotes, after the first one. A quote inside is written
twice. -/
def readSingleQuoted : Nat → Cursor → Option (List Char × Cursor)
  | 0, _ => none
  | fuel + 1, cursor =>
      let continueWith (read : List Char) (cursor : Cursor) :=
        (readSingleQuoted fuel cursor).map fun (chars, cursor) => (read ++ chars, cursor)
      if cursor.atDocumentMark then none
      else
        match cursor.input with
        | [] => none
        | '\'' :: '\'' :: _ => continueWith ['\''] (cursor.advance 2)
        | '\'' :: _ => some ([], cursor.advance 1)
        | c :: _ =>
            if isBlank c || isBreak c then do
              let (gap, cursor) ← Gap.read 0 cursor.input.length .empty cursor
              continueWith gap.text cursor
            else continueWith [c] (cursor.advance 1)

/-- Reads a scalar between double quotes, after the first one. -/
def readDoubleQuoted : Nat → Cursor → Option (List Char × Cursor)
  | 0, _ => none
  | fuel + 1, cursor =>
      let continueWith (read : List Char) (cursor : Cursor) :=
        (readDoubleQuoted fuel cursor).map fun (chars, cursor) => (read ++ chars, cursor)
      if cursor.atDocumentMark then none
      else
        match cursor.input with
        | [] => none
        | '"' :: _ => some ([], cursor.advance 1)
        | '\\' :: rest =>
            if rest ≠ [] && endsLine rest then do
              let next := (cursor.advance 1).readBreak.2
              let (gap, cursor) ← Gap.read 0 next.input.length .afterEscapedBreak next
              continueWith gap.text cursor
            else do
              let (c, cursor) ← readEscape cursor
              continueWith [c] cursor
        | c :: _ =>
            if isBlank c || isBreak c then do
              let (gap, cursor) ← Gap.read 0 cursor.input.length .empty cursor
              continueWith gap.text cursor
            else continueWith [c] (cursor.advance 1)

/-! ## Plain scalars -/

/-- The characters that divide flow collections. -/
def isFlowMark (c : Char) : Bool := [',', '[', ']', '{', '}'].contains c

/-- Whether a plain scalar ends before an input: at a colon that ends a word, and inside a flow
collection at its marks. -/
def endsPlain (inFlow : Bool) : List Char → Bool
  | [] => true
  | c :: rest =>
      isBlank c || isBreak c || (c == ':' && endsWord rest) || (inFlow && isFlowMark c)

/-- Whether a colon stands right before a mark inside a flow collection, which is refused. -/
def hasStrayColon (inFlow : Bool) : List Char → Bool
  | ':' :: c :: _ => inFlow && (isFlowMark c || c == '?')
  | _ => false

def readPlainWord (inFlow : Bool) : Nat → Cursor → Option (List Char × Cursor)
  | 0, cursor => some ([], cursor)
  | fuel + 1, cursor =>
      if hasStrayColon inFlow cursor.input then none
      else if endsPlain inFlow cursor.input then some ([], cursor)
      else
        (readPlainWord inFlow fuel (cursor.advance 1)).map fun (chars, last) =>
          (cursor.input.take 1 ++ chars, last)

/-- The result of reading a plain scalar: its characters, and whether lines were left behind
it. -/
structure PlainRead where
  chars : List Char
  passedBreak : Bool
  cursor : Cursor

/-- Reads the words of a plain scalar after some gap. It ends at the marks of documents, at a
comment, and in block collections at a line that is not indented by `leastColumn`. -/
def readPlain (inFlow : Bool) (leastColumn : Nat) : Nat → Gap → Cursor → Option PlainRead
  | 0, _, _ => none
  | fuel + 1, gap, cursor => do
      if cursor.atDocumentMark || cursor.input.head? = some '#' then
        some ⟨[], gap.hasBreak, cursor⟩
      else
        let (word, afterWord) ← readPlainWord inFlow cursor.input.length cursor
        let before := if word = [] then [] else gap.text ++ word
        let passedBreak := word = [] && gap.hasBreak
        match afterWord.input with
        | [] => some ⟨before, passedBreak, afterWord⟩
        | c :: _ =>
            if !(isBlank c || isBreak c) then some ⟨before, passedBreak, afterWord⟩
            else
              let open' := if word = [] then gap else .empty
              let (gap, next) ← Gap.read leastColumn afterWord.input.length open' afterWord
              if !inFlow && next.column < leastColumn then some ⟨before, gap.hasBreak, next⟩
              else
                let rest ← readPlain inFlow leastColumn fuel gap next
                some { rest with chars := before ++ rest.chars }

/-! ## Blocks of lines -/

/-- What becomes of the line breaks at the end of a block. -/
inductive Chomping
  | strip
  | clip
  | keep
deriving DecidableEq, Repr

/-- The head of a block: its indentation, counted from that of its parent, if it is given. -/
structure BlockHead where
  chomping : Chomping
  increment : Option Nat
deriving Repr

def chompingOf? : Char → Option Chomping
  | '+' => some .keep
  | '-' => some .strip
  | _ => none

/-- Reads the indicators of a block. There are at most one of each kind, in any order. -/
def readBlockHead (cursor : Cursor) : Option (BlockHead × Cursor) :=
  let digit? (c : Char) : Option Nat := if c.isDigit then some (c.toNat - 48) else none
  match cursor.input with
  | first :: rest =>
      match chompingOf? first, digit? first with
      | some chomping, _ =>
          match rest.head?.bind digit? with
          | some 0 => none
          | some increment => some (⟨chomping, some increment⟩, cursor.advance 2)
          | none => some (⟨chomping, none⟩, cursor.advance 1)
      | none, some 0 => none
      | none, some increment =>
          match rest.head?.bind chompingOf? with
          | some chomping => some (⟨chomping, some increment⟩, cursor.advance 2)
          | none => some (⟨.clip, some increment⟩, cursor.advance 1)
      | none, none => some (⟨.clip, none⟩, cursor)
  | [] => some (⟨.clip, none⟩, cursor)

/-- The line breaks and the indentation before a line of a block. -/
structure Margin where
  breaks : List Char
  widest : Nat
  cursor : Cursor

/-- Passes empty lines and the indentation of the next one, which goes up to a given column if
there is one. -/
def readMargin (indent : Option Nat) : Nat → List Char → Nat → Cursor → Option Margin
  | 0, _, _, _ => none
  | fuel + 1, breaks, widest, cursor =>
      let room := (indent.getD cursor.input.length) - cursor.column
      let spaces := (cursor.input.take room).takeWhile (· == ' ')
      let cursor := cursor.advance spaces.length
      let widest := max widest cursor.column
      let isShort := (indent.map fun indent => decide (cursor.column < indent)).getD true
      match cursor.input with
      | [] => some ⟨breaks, widest, cursor⟩
      | c :: _ =>
          if isShort && c == '\t' then none
          else if isBreak c then
            let (written, next) := cursor.readBreak
            readMargin indent fuel (breaks ++ written) widest next
          else some ⟨breaks, widest, cursor⟩

/-- What stands between two lines of a block. A folded break between two lines that do not
start with a blank is a space, or nothing if empty lines follow it. -/
def blockJoint (style : Style) (firstBreak moreBreaks : List Char) (besideBlank : Bool) :
    List Char :=
  if style = .folded && firstBreak = ['\n'] && !besideBlank then
    (if moreBreaks = [] then [' '] else []) ++ moreBreaks
  else firstBreak ++ moreBreaks

/-- The line break before a line of a block, and whether the line before it starts with a
blank. -/
structure BlockJoin where
  lastBreak : List Char
  startedBlank : Bool

/-- Reads the lines of a block that are indented by a given column. -/
def readBlockLines (style : Style) (chomping : Chomping) (indent : Nat) :
    Nat → BlockJoin → List Char → Cursor → Option (List Char × Cursor)
  | 0, _, _, _ => none
  | fuel + 1, join, breaks, cursor =>
      if cursor.column = indent && cursor.input ≠ [] then do
        let startsBlank := (cursor.input.head?.map isBlank).getD false
        let joint := blockJoint style join.lastBreak breaks (join.startedBlank || startsBlank)
        let line := cursor.input.takeWhile fun c => !isBreak c
        let (written, next) := (cursor.advance line.length).readBreak
        let margin ← readMargin (some indent) (next.input.length + 1) [] 0 next
        let (rest, last) ←
          readBlockLines style chomping indent fuel ⟨written, startsBlank⟩ margin.breaks
            margin.cursor
        some (joint ++ line ++ rest, last)
      else
        some
          ((match chomping with
            | .strip => []
            | .clip => join.lastBreak
            | .keep => join.lastBreak ++ breaks), cursor)

/-- Reads a block after its mark. The parent is indented by `parent`, if it is indented at
all. Where the indentation is not given, that of the first line with content counts. -/
def readBlock (style : Style) (parent : Int) (cursor : Cursor) :
    Option (List Char × Cursor) := do
  let (head, cursor) ← readBlockHead cursor
  let cursor := cursor.skipBlanks.skipComment
  if !endsLine cursor.input then none
  else
    let cursor := cursor.readBreak.2
    let given := head.increment.map fun increment => (max parent 0).toNat + increment
    let margin ← readMargin given (cursor.input.length + 1) [] 0 cursor
    let indent := given.getD (max margin.widest (max (parent + 1).toNat 1))
    readBlockLines style head.chomping indent (margin.cursor.input.length + 1) ⟨[], false⟩
      margin.breaks margin.cursor

end DiskWarden.Yaml
