import DiskWarden.Json.Number

/-!
Reading JSON. The bracket that opens one more level than allowed is refused as it is met.
-/

namespace DiskWarden.Json

/-- The characters that may stand between the parts of a document. -/
def isSpace (c : Char) : Bool :=
  c = ' ' || c = '\n' || c = '\t' || c = '\r'

def skipSpace (input : List Char) : List Char := input.dropWhile isSpace

theorem skipSpace_length (input : List Char) : (skipSpace input).length ≤ input.length :=
  dropWhile_length _ _

/-- What follows the first character after space is shorter than the input. -/
theorem skipSpace_rest {input rest : List Char} {c : Char} (h : skipSpace input = c :: rest) :
    rest.length < input.length := by
  have := skipSpace_length input
  simp only [h, List.length_cons] at this
  omega

def readWord (word : List Char) (value : Json) (input : List Char) :
    Except JsonFault (Json × { rest : List Char // rest.length ≤ input.length }) :=
  match word, input with
  | [], input => .ok (value, ⟨input, Nat.le_refl _⟩)
  | _ :: _, [] => .error .unfinished
  | w :: word, c :: rest =>
      if w = c then
        match readWord word value rest with
        | .error cause => .error cause
        | .ok (value, last) => .ok (value, ⟨last.1, Nat.le_succ_of_le last.2⟩)
      else .error .malformed

/-- A reader of a part of a document. -/
abbrev Reader (α : Type) := (input : List Char) → Reading α input

/-- Reads what follows an element of an array: the end, or a comma and more elements. -/
def readMoreItems (element : Reader Json) (input : List Char) : Reading (List Json) input :=
  match front : skipSpace input with
  | [] => .error .unfinished
  | c :: rest =>
      have bound : rest.length < input.length := skipSpace_rest front
      if c = ']' then .ok ([], ⟨rest, bound⟩)
      else if c = ',' then
        match skipSpace rest with
        | [] => .error .unfinished
        | next :: _ =>
            if next = ']' then .error .malformed
            else
              match element rest with
              | .error cause => .error cause
              | .ok (item, afterItem) =>
                  match readMoreItems element afterItem.1 with
                  | .error cause => .error cause
                  | .ok (items, last) =>
                      .ok (item :: items, last.widen (afterItem.length_le bound))
      else .error .malformed
termination_by input.length
decreasing_by have := afterItem.2; omega

/-- Reads an array after its opening bracket. -/
def readItems (element : Reader Json) (input : List Char) : Reading (List Json) input :=
  match front : skipSpace input with
  | [] => .error .unfinished
  | c :: rest =>
      if c = ']' then
        .ok ([], ⟨rest, skipSpace_rest front⟩)
      else
        match element input with
        | .error cause => .error cause
        | .ok (item, afterItem) =>
            match readMoreItems element afterItem.1 with
            | .error cause => .error cause
            | .ok (items, last) =>
                .ok (item :: items, last.widen (Nat.le_of_lt afterItem.2))

/-- Reads a member of an object: a quoted name, a colon and a value. -/
def readMember (element : Reader Json) (input : List Char) : Reading (String × Json) input :=
  match front : skipSpace input with
  | [] => .error .unfinished
  | c :: rest =>
      have bound : rest.length < input.length := skipSpace_rest front
      if c = '"' then
        match readChars rest with
        | .error cause => .error cause
        | .ok (name, afterName) =>
            match colon : skipSpace afterName.1 with
            | [] => .error .unfinished
            | mark :: afterColon =>
                if mark = ':' then
                  match element afterColon with
                  | .error cause => .error cause
                  | .ok (value, last) =>
                      have shorter : afterColon.length < afterName.1.length :=
                        skipSpace_rest colon
                      .ok ((String.ofList name, value),
                        last.widen (Nat.le_trans (Nat.le_of_lt shorter)
                          (afterName.length_le bound)))
                else .error .malformed
      else .error .malformed

/-- Reads what follows a member of an object: the end, or a comma and more members. -/
def readMoreMembers (element : Reader Json) (input : List Char) :
    Reading (List (String × Json)) input :=
  match front : skipSpace input with
  | [] => .error .unfinished
  | c :: rest =>
      have bound : rest.length < input.length := skipSpace_rest front
      if c = '}' then .ok ([], ⟨rest, bound⟩)
      else if c = ',' then
        match readMember element rest with
        | .error cause => .error cause
        | .ok (member, afterMember) =>
            match readMoreMembers element afterMember.1 with
            | .error cause => .error cause
            | .ok (members, last) =>
                .ok (member :: members, last.widen (afterMember.length_le bound))
      else .error .malformed
termination_by input.length
decreasing_by have := afterMember.2; omega

/-- Reads an object after its opening brace. -/
def readMembers (element : Reader Json) (input : List Char) :
    Reading (List (String × Json)) input :=
  match front : skipSpace input with
  | [] => .error .unfinished
  | c :: rest =>
      if c = '}' then
        .ok ([], ⟨rest, skipSpace_rest front⟩)
      else
        match readMember element input with
        | .error cause => .error cause
        | .ok (member, afterMember) =>
            match readMoreMembers element afterMember.1 with
            | .error cause => .error cause
            | .ok (members, last) =>
                .ok (member :: members, last.widen (Nat.le_of_lt afterMember.2))

/-- Reads a value that starts with a given character. The readers of arrays and objects are
handed in, as what they read lies one level deeper. -/
def readValueFrom (items : Reader (List Json)) (members : Reader (List (String × Json)))
    (c : Char) (rest : List Char) : Reading Json (c :: rest) :=
  let word (letters : String) (value : Json) : Reading Json (c :: rest) :=
    match readWord letters.toList value rest with
    | .error cause => .error cause
    | .ok (value, last) => .ok (value, ⟨last.1, Nat.lt_succ_of_le last.2⟩)
  if c = '[' then
    match items rest with
    | .error cause => .error cause
    | .ok (items, last) => .ok (.array items, last.widen (length_le_cons c rest))
  else if c = '{' then
    match members rest with
    | .error cause => .error cause
    | .ok (members, last) => .ok (.object members, last.widen (length_le_cons c rest))
  else if c = '"' then
    match readChars rest with
    | .error cause => .error cause
    | .ok (chars, last) => .ok (.text (String.ofList chars), last.widen (length_le_cons c rest))
  else if c = 'n' then word "ull" .null
  else if c = 't' then word "rue" (.bool true)
  else if c = 'f' then word "alse" (.bool false)
  else if c = '-' || c.isDigit then readNumber (c :: rest)
  else .error .malformed

/-- Reads a value after space. -/
def readValueWith (items : Reader (List Json)) (members : Reader (List (String × Json)))
    (input : List Char) : Reading Json input :=
  match front : skipSpace input with
  | [] => .error .unfinished
  | c :: rest =>
      match readValueFrom items members c rest with
      | .error cause => .error cause
      | .ok (value, last) =>
          .ok (value, last.widen (by
            have := skipSpace_length input
            simpa only [front] using this))

/-- Reads a value, in which brackets may open `depth` levels. -/
def readValue : Nat → Reader Json
  | 0 => readValueWith (fun _ => .error .malformed) (fun _ => .error .malformed)
  | depth + 1 => readValueWith (readItems (readValue depth)) (readMembers (readValue depth))

/-- The number of levels that brackets may open. -/
def depthLimit : Nat := 127

/-- Reads a document: one value of a given shape, with nothing but space around it. The shape
is asked for before what follows the value is looked at. -/
def ofTextAs {α : Type} (shape? : Json → Option α) (text : String) : Except JsonFault α :=
  match readValue depthLimit text.toList with
  | .error cause => .error cause
  | .ok (value, rest) =>
      match shape? value with
      | none => .error .mismatched
      | some result => if skipSpace rest.1 = [] then .ok result else .error .malformed

def ofText (text : String) : Except JsonFault Json := ofTextAs some text

end DiskWarden.Json
