import DiskWarden.Table
import DiskWarden.Toml.Basic

/-!
Building the tables of a document. What made a table decides what may still be put into it: a
header opens a table once, and points between keys open tables that only such keys extend.
-/

namespace DiskWarden.Toml

/-- What made a table: its own header, the header of a table inside it, or a point between
keys. -/
inductive Origin
  | header
  | innerHeader
  | point
deriving DecidableEq, Repr

/-- A value under construction. Of an array of tables the last one is still open. -/
inductive Item
  | closed (value : Toml)
  | table (origin : Origin) (members : List (String × Item))
  | tables (earlier : List (List (String × Item))) (last : List (String × Item))

/-- The members of a table under construction. -/
abbrev Members := List (String × Item)

namespace Item

/-- Changes the table that a path of headers leads to. Tables that are missing are made. -/
def descend (change : Members → Option Members) : List String → Members → Option Members
  | [], members => change members
  | key :: keys, members =>
      match Table.get? members key with
      | none => do
          let inner ← descend change keys []
          some (Table.put members key (table .innerHeader inner))
      | some (table origin inner) => do
          let inner ← descend change keys inner
          some (Table.put members key (table origin inner))
      | some (tables earlier last) => do
          let last ← descend change keys last
          some (Table.put members key (tables earlier last))
      | some (closed _) => none

def openTable (key : String) (members : Members) : Option Members :=
  match Table.get? members key with
  | none => some (Table.put members key (table .header []))
  | some (table .innerHeader inner) => some (Table.put members key (table .header inner))
  | some _ => none

/-- Opens a further table of an array. -/
def openElement (key : String) (members : Members) : Option Members :=
  match Table.get? members key with
  | none => some (Table.put members key (tables [] []))
  | some (tables earlier last) => some (Table.put members key (tables (earlier ++ [last]) []))
  | some _ => none

/-- Gives a value to a new key, before which other keys may stand. The table that gets the
value, if it is not the present one, has to be made by a point; those before it must not have
a header of their own. -/
def assign (value : Toml) : String → List String → Members → Option Members
  | key, [], members =>
      match Table.get? members key with
      | none => some (Table.put members key (closed value))
      | some _ => none
  | key, next :: keys, members =>
      match Table.get? members key with
      | none => do
          let inner ← assign value next keys []
          some (Table.put members key (table .point inner))
      | some (table .header _) | some (closed _) => none
      | some (table .innerHeader inner) => do
          if keys = [] then none
          else
            let inner ← assign value next keys inner
            some (Table.put members key (table .innerHeader inner))
      | some (table .point inner) => do
          let inner ← assign value next keys inner
          some (Table.put members key (table .point inner))
      | some (tables earlier last) => do
          if keys = [] then none
          else
            let last ← assign value next keys last
            some (Table.put members key (tables earlier last))

def assignPath (value : Toml) : List String → Members → Option Members
  | [], _ => none
  | key :: keys, members => assign value key keys members

mutual

def finish : Item → Toml
  | closed value => value
  | table _ members => .table (finishMembers members)
  | tables earlier last => .array (finishTables earlier ++ [.table (finishMembers last)])

def finishMembers : List (String × Item) → List (String × Toml)
  | [] => []
  | (key, item) :: members => (key, finish item) :: finishMembers members

def finishTables : List (List (String × Item)) → List Toml
  | [] => []
  | members :: others => .table (finishMembers members) :: finishTables others

end

end Item

/-! ## Documents -/

inductive Statement
  | header (path : List String)
  | arrayHeader (path : List String)
  | assignment (path : List String) (value : Toml)

/-- A document under construction: its members, and the table that assignments go to. -/
structure Draft where
  members : Members
  current : List String

namespace Draft

def empty : Draft := ⟨[], []⟩

def add (draft : Draft) : Statement → Option Draft
  | .header path => do
      let members ← Item.descend (Item.openTable (path.getLast?.getD "")) path.dropLast
        draft.members
      some ⟨members, path⟩
  | .arrayHeader path => do
      let members ← Item.descend (Item.openElement (path.getLast?.getD "")) path.dropLast
        draft.members
      some ⟨members, path⟩
  | .assignment path value => do
      let members ← Item.descend (Item.assignPath value path) draft.current draft.members
      some { draft with members }

def addAll (draft : Draft) : List Statement → Option Draft
  | [] => some draft
  | statement :: statements => do addAll (← draft.add statement) statements

end Draft

/-- The document that some lines make. -/
def ofStatements? (statements : List Statement) : Option Toml :=
  (Draft.empty.addAll statements).map fun draft => .table (Item.finishMembers draft.members)

/-- The table that some assignments between braces make. -/
def ofAssignments? (assignments : List (List String × Toml)) : Option Toml :=
  ofStatements? (assignments.map fun (path, value) => .assignment path value)

end DiskWarden.Toml
