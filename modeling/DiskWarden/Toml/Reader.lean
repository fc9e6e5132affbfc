import DiskWarden.Toml.Number
import DiskWarden.Toml.Text
import DiskWarden.Toml.Tree

/-!
Reading TOML documents line by line.
-/

namespace DiskWarden.Toml

/-! ## Values -/

/-- Reads the items of an array, after its opening bracket or a comma. -/
def readItems (element : Reader Toml) : Nat → Reader (List Toml)
  | 0, _ => none
  | fuel + 1, input => do
      match ← skipLines false input with
      | ']' :: rest => some ([], rest)
      | front => do
          let (item, rest) ← element front
          match ← skipLines false rest with
          | ']' :: rest => some ([item], rest)
          | ',' :: rest => do
              let (items, rest) ← readItems element fuel rest
              some (item :: items, rest)
          | _ => none

/-- Reads an assignment with the space around it. -/
def readAssignment (element : Reader Toml) : Reader (List String × Toml) := fun input => do
  let (path, rest) ← readKeyPath input
  let (value, rest) ← element (skipSpace (← expect '=' rest))
  some ((path, value), skipSpace rest)

/-- Reads the assignments of a table between braces, after a comma or, if there are any, after
the opening brace. -/
def readAssignments (element : Reader Toml) : Nat → Reader (List (List String × Toml))
  | 0, _ => none
  | fuel + 1, input => do
      let (assignment, rest) ← readAssignment element input
      match rest with
      | '}' :: rest => some ([assignment], rest)
      | ',' :: rest => do
          let (assignments, rest) ← readAssignments element fuel rest
          some (assignment :: assignments, rest)
      | _ => none

/-- Reads a table between braces, after the opening one. -/
def readTable (element : Reader Toml) (input : List Char) : Option (Toml × List Char) := do
  match skipSpace input with
  | '}' :: rest => some (.table [], rest)
  | _ => do
      let (assignments, rest) ← readAssignments element (input.length + 1) input
      some (← ofAssignments? assignments, rest)

/-- Reads a value that holds no others. -/
def readSimple (input : List Char) : Option (Toml × List Char) :=
  match input with
  | '"' :: _ | '\'' :: _ => (readText input).map fun (value, rest) => (.text value, rest)
  | 't' :: 'r' :: 'u' :: 'e' :: rest => some (.bool true, rest)
  | 'f' :: 'a' :: 'l' :: 's' :: 'e' :: rest => some (.bool false, rest)
  | _ => readNumeric input

/-- Reads a value, in which brackets may open `depth` levels. -/
def readValue (depth : Nat) (input : List Char) : Option (Toml × List Char) :=
  match depth, input with
  | depth + 1, '[' :: rest =>
      (readItems (readValue depth) (rest.length + 1) rest).map fun (items, rest) =>
        (.array items, rest)
  | depth + 1, '{' :: rest => readTable (readValue depth) rest
  | _, _ => readSimple input
termination_by structural depth

/-- The number of levels that brackets may open. -/
def depthLimit : Nat := 79

/-! ## Documents -/

def readStatement : Reader Statement
  | '[' :: '[' :: rest => do
      let (path, rest) ← readKeyPath rest
      some (.arrayHeader path, ← endLine? (← expect ']' (← expect ']' rest)))
  | '[' :: rest => do
      let (path, rest) ← readKeyPath rest
      some (.header path, ← endLine? (← expect ']' rest))
  | input => do
      let ((path, value), rest) ← readAssignment (readValue depthLimit) input
      some (.assignment path value, ← endLine? rest)

def readStatements : Nat → List Char → Option (List Statement)
  | 0, _ => none
  | fuel + 1, input =>
      match skipSpace input with
      | [] => some []
      | front =>
          match endLine? front with
          | some rest => readStatements fuel rest
          | none => do
              let (statement, rest) ← readStatement front
              let statements ← readStatements fuel rest
              some (statement :: statements)

/-- The mark that may stand before a document. -/
def byteOrderMark : Char := '\uFEFF'

def ofText? (text : String) : Option Toml :=
  let chars :=
    match text.toList with
    | c :: rest => if c = byteOrderMark then rest else c :: rest
    | [] => []
  (readStatements (chars.length + 1) chars).bind ofStatements?

end DiskWarden.Toml
