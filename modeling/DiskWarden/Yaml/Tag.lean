import DiskWarden.Text.Digits
import DiskWarden.Text.Utf8
import DiskWarden.Yaml.Cursor

/-!
Tags of YAML. A tag is made of octets, each of which may be written as a percent sign and two
digits, so it need not be a text. An octet of zero ends a tag, or a part of one.
-/

namespace DiskWarden.Yaml

structure Tag where
  octets : Text.Octets
deriving DecidableEq, Repr

namespace Tag

/-! ## Tags with a meaning of their own -/

/-- What the tags start with that belong to the language. -/
def standardStart : Text.Octets := Text.encode "tag:yaml.org,2002:"

def standard (name : String) : Tag := ⟨standardStart ++ Text.encode name⟩

def null : Tag := standard "null"

def bool : Tag := standard "bool"

def integer : Tag := standard "int"

def float : Tag := standard "float"

/-- Whether a tag belongs to a document rather than to the language. -/
def isLocal (tag : Tag) : Bool := tag.octets.head? = some 0x21

/-- Whether a tag is the name of a variant: it belongs to a document and is a text. -/
def isVariant (tag : Tag) : Bool := tag.isLocal && (Text.decode? tag.octets).isSome

end Tag

/-! ## Characters and octets -/

/-- The characters of a tag, besides those of names. -/
def isTagChar (isVerbatim : Bool) (c : Char) : Bool :=
  isNameChar c ||
    [';', '/', '?', ':', '@', '&', '=', '+', '$', '.', '%', '!', '~', '*', '\'', '(',
      ')'].contains c ||
    (isVerbatim && [',', '[', ']'].contains c)

/-- The number of octets of a character of which the first octet is given. -/
def octetCount? (first : UInt8) : Option Nat :=
  if first < 0x80 then some 1
  else if 0xC0 ≤ first && first < 0xE0 then some 2
  else if 0xE0 ≤ first && first < 0xF0 then some 3
  else if 0xF0 ≤ first && first < 0xF8 then some 4
  else none

/-- Reads an octet that is written as a percent sign and two digits. -/
def readOctet : List Char → Option (UInt8 × List Char)
  | '%' :: a :: b :: rest => (Text.hexNumber? [a, b]).map fun octet => (octet.toUInt8, rest)
  | _ => none

/-- Reads some of the octets that follow the first one of a character. -/
def readMoreOctets : Nat → List Char → Option (Text.Octets × List Char)
  | 0, rest => some ([], rest)
  | count + 1, input => do
      let (octet, rest) ← readOctet input
      if 0x80 ≤ octet && octet < 0xC0 then
        let (octets, rest) ← readMoreOctets count rest
        some (octet :: octets, rest)
      else none

/-- Reads as many octets as the first one asks for. Whether they encode a character is not
asked. -/
def readOctetGroup (input : List Char) : Option (Text.Octets × List Char) := do
  let (first, rest) ← readOctet input
  let (octets, rest) ← readMoreOctets ((← octetCount? first) - 1) rest
  some (first :: octets, rest)

/-- Reads the octets of a tag to its end. -/
def readTagOctets (isVerbatim : Bool) : Nat → Cursor → Option (Text.Octets × Cursor)
  | 0, cursor => some ([], cursor)
  | fuel + 1, cursor =>
      match cursor.input with
      | [] => some ([], cursor)
      | c :: _ =>
          if !isTagChar isVerbatim c then some ([], cursor)
          else do
            let (group, next) ←
              if c == '%' then
                (readOctetGroup cursor.input).map fun (group, rest) =>
                  (group, cursor.advance (cursor.input.length - rest.length))
              else some (String.utf8EncodeChar c, cursor.advance 1)
            let (octets, last) ← readTagOctets isVerbatim fuel next
            some (group ++ octets, last)

/-- The octets before the first zero. -/
def beforeZero (octets : Text.Octets) : Text.Octets := octets.takeWhile (· ≠ 0)

/-- Reads a part of a tag that is not empty as it is written. -/
def readTagPart (isVerbatim : Bool) (cursor : Cursor) : Option (Text.Octets × Cursor) := do
  let (octets, last) ← readTagOctets isVerbatim cursor.input.length cursor
  if octets = [] then none else some (beforeZero octets, last)

def octetText (octet : UInt8) : List Char :=
  let c := Char.ofNat octet.toNat
  if octet < 0x80 && c ≠ '%' && isTagChar true c then [c]
  else '%' :: Text.upperHex 2 octet.toNat

/-- The written form of a tag without a handle. -/
def Tag.text (tag : Tag) : String :=
  "!<" ++ String.ofList (tag.octets.flatMap octetText) ++ ">"

/-! ## Handles -/

/-- The handle at the front of a tag: an exclamation mark, and a name and another one if there
are any. -/
def readHandle (cursor : Cursor) : Option (List Char × Cursor) :=
  match cursor.input with
  | '!' :: rest =>
      let name := rest.takeWhile isNameChar
      let closing := (rest.drop name.length).takeWhile (· == '!') |>.take 1
      let handle := '!' :: (name ++ closing)
      some (handle, cursor.advance handle.length)
  | _ => none

/-- Whether a handle ends with a second exclamation mark. -/
def isClosedHandle (handle : List Char) : Bool :=
  1 < handle.length && handle.getLast? = some '!'

/-- A tag as it is written: a handle, which is empty if what follows it is the whole tag. -/
structure WrittenTag where
  handle : String
  suffix : Text.Octets
deriving DecidableEq, Repr

/-- The tag without a name, which counts as a whole one. -/
def WrittenTag.nameless : WrittenTag := ⟨"", Text.encode "!"⟩

def readTag (inFlow : Bool) (cursor : Cursor) : Option (WrittenTag × Cursor) := do
  let (tag, last) ←
    match cursor.input with
    | '!' :: '<' :: _ => do
        let (suffix, last) ← readTagPart true (cursor.advance 2)
        if last.input.head? = some '>' then some (⟨"", suffix⟩, last.advance 1) else none
    | _ => do
        let (handle, afterHandle) ← readHandle cursor
        if isClosedHandle handle then
          let (suffix, last) ← readTagPart false afterHandle
          some (⟨String.ofList handle, suffix⟩, last)
        else
          let (more, last) ← readTagOctets false afterHandle.input.length afterHandle
          let suffix := beforeZero (Text.encode (String.ofList (handle.drop 1)) ++ more)
          some (if suffix = [] then .nameless else ⟨"!", suffix⟩, last)
  if endsWord last.input || (inFlow && last.input.head? = some ',') then some (tag, last)
  else none

end DiskWarden.Yaml
