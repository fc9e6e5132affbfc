import DiskWarden.Table
import DiskWarden.Yaml.Tokens

/-!
The nodes of a YAML document: scalars, sequences, mappings, and references to nodes that have
an anchor.
-/

namespace DiskWarden.Yaml

/-- A node. References go by the number of the anchor. -/
inductive Node
  | scalar (tag : Option Tag) (style : Style) (text : String)
  | sequence (tag : Option Tag) (items : List Node)
  | mapping (tag : Option Tag) (entries : List (Node × Node))
  | reference (anchor : Nat)

instance : Inhabited Node := ⟨.mapping none []⟩

namespace Node

/-- A node that is left out. -/
def absent : Node := .scalar none .plain ""

/-! ## Nodes can be compared -/

mutual

def same : Node → Node → Bool
  | .scalar tag style text, .scalar tag' style' text' =>
      tag = tag' && style = style' && text = text'
  | .sequence tag items, .sequence tag' items' => tag = tag' && sameItems items items'
  | .mapping tag entries, .mapping tag' entries' => tag = tag' && sameEntries entries entries'
  | .reference anchor, .reference anchor' => anchor = anchor'
  | _, _ => false

def sameItems : List Node → List Node → Bool
  | [], [] => true
  | item :: items, item' :: items' => same item item' && sameItems items items'
  | _, _ => false

def sameEntries : List (Node × Node) → List (Node × Node) → Bool
  | [], [] => true
  | (key, value) :: entries, (key', value') :: entries' =>
      same key key' && same value value' && sameEntries entries entries'
  | _, _ => false

end

mutual

theorem same_iff : ∀ first second : Node, first.same second = true ↔ first = second
  | .scalar .., .scalar .. => by simp [same, and_assoc]
  | .sequence _ items, .sequence _ items' => by simp [same, sameItems_iff items items']
  | .mapping _ entries, .mapping _ entries' => by simp [same, sameEntries_iff entries entries']
  | .reference _, .reference _ => by simp [same]
  | .scalar .., .sequence .. | .scalar .., .mapping .. | .scalar .., .reference _
  | .sequence .., .scalar .. | .sequence .., .mapping .. | .sequence .., .reference _
  | .mapping .., .scalar .. | .mapping .., .sequence .. | .mapping .., .reference _
  | .reference _, .scalar .. | .reference _, .sequence .. | .reference _, .mapping .. => by
      simp [same]

theorem sameItems_iff : ∀ first second : List Node, sameItems first second = true ↔ first = second
  | [], [] => by simp [sameItems]
  | [], _ :: _ => by simp [sameItems]
  | _ :: _, [] => by simp [sameItems]
  | item :: items, item' :: items' => by
      simp [sameItems, same_iff item item', sameItems_iff items items']

theorem sameEntries_iff :
    ∀ first second : List (Node × Node), sameEntries first second = true ↔ first = second
  | [], [] => by simp [sameEntries]
  | [], _ :: _ => by simp [sameEntries]
  | _ :: _, [] => by simp [sameEntries]
  | (key, value) :: entries, (key', value') :: entries' => by
      simp [sameEntries, same_iff key key', same_iff value value',
        sameEntries_iff entries entries']

end

instance : DecidableEq Node := fun first second => decidable_of_iff _ (same_iff first second)

end Node

/-- A document: its root, and the nodes with anchors by their numbers. -/
structure Document where
  root : Node
  anchored : Table Nat Node
deriving DecidableEq

namespace Document

/-- The node that a reference leads to; another node stands for itself. -/
def resolve (document : Document) : Node → Node
  | .reference anchor => (document.anchored.get? anchor).getD .absent
  | node => node

end Document

/-! ## From tokens to nodes -/

/-- What is left of the tokens, the numbers of the anchors by their names, where the last node
with each number starts, the anchored nodes that are finished by where they start, and the
handles of tags. Where a node starts is told by the tokens that are left there. -/
structure Assembly where
  tokens : List Token
  numbers : Table String Nat
  starts : Table Nat Nat
  finished : Table Nat Node
  handles : Table String Text.Octets

namespace Assembly

def start (tokens : List Token) (handles : Table String Text.Octets) : Assembly :=
  ⟨tokens, [], [], [], handles⟩

def next? (assembly : Assembly) : Option Token := assembly.tokens.head?

def skip (assembly : Assembly) : Assembly := { assembly with tokens := assembly.tokens.drop 1 }

/-- Whether the next token is one of some. -/
def sees (assembly : Assembly) (tokens : List Token) : Bool :=
  match assembly.next? with
  | some token => tokens.contains token
  | none => false

/-- Where the rest starts. -/
def place (assembly : Assembly) : Nat := assembly.tokens.length

/-- Gives the node that starts here an anchor. The number of an anchor is that of the names
before it. A name that is used again is no further one, so that the next new name gets the
number that this one has by then; of the nodes with one number, the last one is meant. -/
def nameAnchor (assembly : Assembly) (name : String) : Assembly :=
  let number := assembly.numbers.length
  { assembly with
    numbers := assembly.numbers.put name number
    starts := assembly.starts.put number assembly.place }

def keep (assembly : Assembly) (start : Option Nat) (node : Node) : Assembly :=
  match start with
  | some place => { assembly with finished := assembly.finished.put place node }
  | none => assembly

/-- The nodes that the numbers of anchors stand for. -/
def anchored (assembly : Assembly) : Table Nat Node :=
  assembly.starts.filterMap fun entry =>
    (assembly.finished.get? entry.2).map fun node => (entry.1, node)

/-- The full form of a tag, if its handle is known. -/
def fullTag? (assembly : Assembly) (written : WrittenTag) : Option Tag :=
  if written.handle = "" then some ⟨written.suffix⟩
  else (assembly.handles.get? written.handle).map fun start => ⟨start ++ written.suffix⟩

/-- The names and tags before a node, in any order, at most one of each. An anchor is told by
its place. -/
structure Properties where
  anchor : Option Nat
  tag : Option Tag

def readAnchor (assembly : Assembly) : Option Nat × Assembly :=
  match assembly.tokens with
  | .anchor name :: _ => (some assembly.place, (assembly.nameAnchor name).skip)
  | _ => (none, assembly)

def readFullTag (assembly : Assembly) : Option (Option Tag × Assembly) :=
  match assembly.tokens with
  | .tag written :: _ =>
      (assembly.fullTag? written).map fun tag => (some tag, assembly.skip)
  | _ => some (none, assembly)

def readProperties (assembly : Assembly) : Option (Properties × Assembly) := do
  match assembly.readAnchor with
  | (some anchor, assembly) => do
      let (tag, assembly) ← assembly.readFullTag
      some (⟨some anchor, tag⟩, assembly)
  | (none, assembly) => do
      let (tag, assembly) ← assembly.readFullTag
      match tag with
      | none => some (⟨none, none⟩, assembly)
      | some tag =>
          let (anchor, assembly) := assembly.readAnchor
          some (⟨anchor, some tag⟩, assembly)

/-- Where a node stands. A sequence that is the value of a block mapping needs no indentation
of its own. -/
inductive Surroundings
  | block
  | blockValue
  | flow
deriving DecidableEq

/-- The tokens before which the node of a block entry is absent. -/
def entryEnds : List Token := [.blockEntry, .blockEnd]

/-- The tokens before which a key or a value of a block mapping is absent. -/
def pairEnds : List Token := [.key, .value, .blockEnd]

/-- The tokens before which an entry of an unindented sequence is absent. -/
def looseEntryEnds : List Token := [.blockEntry, .key, .value, .blockEnd]

/-- A node that is left out after its name or tag. -/
def readAbsent (properties : Properties) (assembly : Assembly) : Option (Node × Assembly) :=
  if properties.anchor.isSome || properties.tag.isSome then
    some (.scalar properties.tag .plain "", assembly)
  else none

mutual

def readNode (fuel : Nat) (surroundings : Surroundings) (assembly : Assembly) :
    Option (Node × Assembly) :=
  match fuel with
  | 0 => none
  | fuel + 1 =>
      match assembly.tokens with
      | .alias name :: _ =>
          (assembly.numbers.get? name).map fun number => (.reference number, assembly.skip)
      | _ => do
          let (properties, assembly) ← assembly.readProperties
          let tag := properties.tag
          let (node, assembly) ←
            match assembly.tokens with
            | .scalar style text :: _ =>
                some (Node.scalar tag style text, assembly.skip)
            | .blockEntry :: _ =>
                if surroundings = .blockValue then do
                  let (items, assembly) ← readLooseEntries fuel assembly
                  some (Node.sequence tag items, assembly)
                else readAbsent properties assembly
            | .flowSequenceStart :: _ => do
                let (items, assembly) ← readFlowItems fuel true assembly.skip
                some (Node.sequence tag items, assembly)
            | .flowMappingStart :: _ => do
                let (entries, assembly) ← readFlowPairs fuel true assembly.skip
                some (Node.mapping tag entries, assembly)
            | .blockSequenceStart :: _ =>
                if surroundings = .flow then readAbsent properties assembly
                else do
                  let (items, assembly) ← readEntries fuel assembly.skip
                  some (Node.sequence tag items, assembly)
            | .blockMappingStart :: _ =>
                if surroundings = .flow then readAbsent properties assembly
                else do
                  let (entries, assembly) ← readPairs fuel assembly.skip
                  some (Node.mapping tag entries, assembly)
            | _ => readAbsent properties assembly
          some (node, assembly.keep properties.anchor node)
termination_by structural fuel

/-- Reads a node, or none before certain tokens. -/
def readNodeUnless (fuel : Nat) (ends : List Token) (surroundings : Surroundings) (assembly : Assembly) :
    Option (Node × Assembly) :=
  match fuel with
  | 0 => none
  | fuel + 1 =>
      if assembly.sees ends then some (.absent, assembly) else readNode fuel surroundings assembly
termination_by structural fuel

def readEntries (fuel : Nat) (assembly : Assembly) : Option (List Node × Assembly) :=
  match fuel with
  | 0 => none
  | fuel + 1 =>
      match assembly.tokens with
      | .blockEntry :: _ => do
          let (item, assembly) ← readNodeUnless fuel entryEnds .block assembly.skip
          let (items, assembly) ← readEntries fuel assembly
          some (item :: items, assembly)
      | .blockEnd :: _ => some ([], assembly.skip)
      | _ => none
termination_by structural fuel

def readLooseEntries (fuel : Nat) (assembly : Assembly) : Option (List Node × Assembly) :=
  match fuel with
  | 0 => none
  | fuel + 1 =>
      match assembly.tokens with
      | .blockEntry :: _ => do
          let (item, assembly) ← readNodeUnless fuel looseEntryEnds .block assembly.skip
          let (items, assembly) ← readLooseEntries fuel assembly
          some (item :: items, assembly)
      | _ => some ([], assembly)
termination_by structural fuel

/-- Reads the keys and values of a block mapping. -/
def readPairs (fuel : Nat) (assembly : Assembly) : Option (List (Node × Node) × Assembly) :=
  match fuel with
  | 0 => none
  | fuel + 1 =>
      match assembly.tokens with
      | .key :: _ => do
          let (key, assembly) ← readNodeUnless fuel pairEnds .blockValue assembly.skip
          let (value, assembly) ← readPairValue fuel assembly
          let (pairs, assembly) ← readPairs fuel assembly
          some ((key, value) :: pairs, assembly)
      | .blockEnd :: _ => some ([], assembly.skip)
      | _ => none
termination_by structural fuel

/-- Reads the value of a key of a block mapping. -/
def readPairValue (fuel : Nat) (assembly : Assembly) : Option (Node × Assembly) :=
  match fuel with
  | 0 => none
  | fuel + 1 =>
      match assembly.tokens with
      | .value :: _ => readNodeUnless fuel pairEnds .blockValue assembly.skip
      | _ => some (.absent, assembly)
termination_by structural fuel

/-- Reads the items of a sequence in brackets. A comma stands before each item but the
first. -/
def readFlowItems (fuel : Nat) (isFirst : Bool) (assembly : Assembly) :
    Option (List Node × Assembly) :=
  match fuel with
  | 0 => none
  | fuel + 1 =>
      match assembly.tokens with
      | .flowSequenceEnd :: _ => some ([], assembly.skip)
      | _ => do
          let assembly ←
            if isFirst then some assembly
            else if assembly.sees [.flowEntry] then some assembly.skip
            else none
          match assembly.tokens with
          | .flowSequenceEnd :: _ => some ([], assembly.skip)
          | .key :: _ => do
              let (item, assembly) ← readSinglePair fuel assembly.skip
              let (items, assembly) ← readFlowItems fuel false assembly
              some (item :: items, assembly)
          | _ => do
              let (item, assembly) ← readNode fuel .flow assembly
              let (items, assembly) ← readFlowItems fuel false assembly
              some (item :: items, assembly)
termination_by structural fuel

/-- Reads a mapping of one pair, which stands in a sequence without braces. Where the key is
absent, what stands in its place is passed. -/
def readSinglePair (fuel : Nat) (assembly : Assembly) : Option (Node × Assembly) :=
  match fuel with
  | 0 => none
  | fuel + 1 => do
      let (key, assembly) ←
        if assembly.sees [.value, .flowEntry, .flowSequenceEnd] then
          some (Node.absent, assembly.skip)
        else readNode fuel .flow assembly
      let (value, assembly) ←
        match assembly.tokens with
        | .value :: _ =>
            readNodeUnless fuel [.flowEntry, .flowSequenceEnd] .flow assembly.skip
        | _ => some (Node.absent, assembly)
      some (.mapping none [(key, value)], assembly)
termination_by structural fuel

/-- Reads the pairs of a mapping in braces. A comma stands before each pair but the first, and
a key without a mark has no value. -/
def readFlowPairs (fuel : Nat) (isFirst : Bool) (assembly : Assembly) :
    Option (List (Node × Node) × Assembly) :=
  match fuel with
  | 0 => none
  | fuel + 1 =>
      match assembly.tokens with
      | .flowMappingEnd :: _ => some ([], assembly.skip)
      | _ => do
          let assembly ←
            if isFirst then some assembly
            else if assembly.sees [.flowEntry] then some assembly.skip
            else none
          match assembly.tokens with
          | .flowMappingEnd :: _ => some ([], assembly.skip)
          | .key :: _ => do
              let (key, assembly) ←
                readNodeUnless fuel [.value, .flowEntry, .flowMappingEnd] .flow assembly.skip
              let (value, assembly) ←
                match assembly.tokens with
                | .value :: _ =>
                    readNodeUnless fuel [.flowEntry, .flowMappingEnd] .flow assembly.skip
                | _ => some (Node.absent, assembly)
              let (pairs, assembly) ← readFlowPairs fuel false assembly
              some ((key, value) :: pairs, assembly)
          | _ => do
              let (key, assembly) ← readNode fuel .flow assembly
              let (pairs, assembly) ← readFlowPairs fuel false assembly
              some ((key, .absent) :: pairs, assembly)
termination_by structural fuel

end

/-! ## Documents -/

/-- The handles that need no directive. -/
def standardHandles : Table String Text.Octets :=
  [("!", Text.encode "!"), ("!!", Tag.standardStart)]

/-- Reads directives. There is at most one about the version, which has to be 1.1 or 1.2, and
one about each handle. -/
def readDirectives : List Token → Bool → Table String Text.Octets →
    Option (List Token × Table String Text.Octets)
  | .versionDirective major minor :: tokens, hasVersion, handles =>
      if !hasVersion && major = 1 && (minor = 1 || minor = 2) then
        readDirectives tokens true handles
      else none
  | .tagDirective handle start :: tokens, hasVersion, handles =>
      if (handles.get? handle).isSome then none
      else readDirectives tokens hasVersion (handles.put handle start)
  | tokens, _, handles => some (tokens, handles)

/-- The handles of a document, those of its directives first. -/
def withStandardHandles (handles : Table String Text.Octets) : Table String Text.Octets :=
  handles ++ standardHandles

def readDocument (tokens : List Token) (handles : Table String Text.Octets) :
    Option (Document × List Token) := do
  let start : Assembly := .start tokens (withStandardHandles handles)
  let (root, assembly) ←
    match tokens with
    | [] | .versionDirective .. :: _ | .tagDirective .. :: _ | .documentStart :: _
    | .documentEnd :: _ => some (Node.absent, start)
    | _ => readNode (4 * tokens.length + 4) .block start
  some (⟨root, assembly.anchored⟩, assembly.tokens)

end Assembly

/-- The only document that some tokens make. Without any tokens it is empty. -/
def Document.ofTokens? (tokens : List Token) : Option Document := do
  let (document, rest) ←
    match tokens with
    | [] => some (⟨Node.absent, []⟩, [])
    | .versionDirective .. :: _ | .tagDirective .. :: _ | .documentStart :: _ => do
        let (tokens, handles) ← Assembly.readDirectives tokens false []
        match tokens with
        | .documentStart :: tokens => Assembly.readDocument tokens handles
        | _ => none
    | _ => do
        let (root, assembly) ←
          Assembly.readNode (4 * tokens.length + 4) .block
            (.start tokens Assembly.standardHandles)
        some (⟨root, assembly.anchored⟩, assembly.tokens)
  if rest.all (· = .documentEnd) then some document else none

/-- The only document of a text. -/
def Document.ofText? (text : String) : Option Document :=
  (Token.ofText? text).bind Document.ofTokens?

end DiskWarden.Yaml
