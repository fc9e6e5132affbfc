import DiskWarden.Text.Blank

/-!
Paths of files, as they are written: pieces between slashes, of which empty ones and single
dots inside a path name nothing.
-/

namespace DiskWarden

structure Path where
  text : String
deriving DecidableEq, Repr, Inhabited

namespace Path

/-- The parts of a list between the slashes; one more than there are slashes. -/
def splitSlashes : List Char → List (List Char)
  | [] => [[]]
  | c :: rest =>
      match splitSlashes rest with
      | [] => [[c]]
      | piece :: pieces => if c = '/' then [] :: piece :: pieces else (c :: piece) :: pieces

/-- The pieces of a path. A path that starts at the root has an empty first one. -/
def pieces (path : Path) : List String :=
  (splitSlashes path.text.toList).map String.ofList

def isAbsolute (path : Path) : Bool := path.text.toList.head? = some '/'

def ofPieces (pieces : List String) : Path :=
  if pieces = [""] then ⟨"/"⟩ else ⟨Text.joinWith "/" pieces⟩

/-- A piece that names nothing unless it comes first. -/
def isIdle (piece : String) : Bool := piece = "" || piece = "."

/-- The pieces without idle ones at their end. The first piece stays, as it tells where the
path starts. -/
def dropIdleEnd : List String → List String
  | [] => []
  | first :: rest =>
      first :: (rest.reverse.dropWhile isIdle).reverse

/-- The pieces of a path that name something. -/
def names (path : Path) : List String := path.pieces.filter fun piece => !isIdle piece

/-- Whether two paths start at the same place and name the same on their way. A dot counts as a
start of its own. -/
def isSame (first second : Path) : Bool :=
  first.isAbsolute = second.isAbsolute &&
    (first.pieces.head? = some ".") = (second.pieces.head? = some ".") &&
    first.names = second.names

/-- The directory that a path lies in, as the path tells; none for the root and the empty
path. -/
def parent? (path : Path) : Option Path :=
  match dropIdleEnd path.pieces with
  | [] | [""] => none
  | pieces => some (ofPieces (dropIdleEnd pieces.dropLast))

/-- The last name in a path, if it does not end in dots that stand for a directory. -/
def fileName? (path : Path) : Option String :=
  match (dropIdleEnd path.pieces).getLast? with
  | none => none
  | some name => if isIdle name || name = ".." then none else some name

/-- What follows the last dot of a name, unless the name has no other dot and starts with
it. -/
def extension? (path : Path) : Option String :=
  match path.fileName? with
  | none => none
  | some name =>
      let letters := name.toList.reverse
      let ending := letters.takeWhile (· ≠ '.')
      match letters.drop ending.length with
      | [] | [_] => none
      | _ :: _ :: _ => some (String.ofList ending.reverse)

/-- The directories above a path, the nearest first, to the empty path or the root. -/
def parents (path : Path) : List Path :=
  let rec climb : Nat → Path → List Path
    | 0, _ => []
    | steps + 1, path =>
        match path.parent? with
        | none => []
        | some parent => parent :: climb steps parent
  climb path.pieces.length path

/-- A path below a directory; an absolute one stays as it is. -/
def join (directory path : Path) : Path :=
  if path.isAbsolute then path
  else if directory.text = "" || directory.text.toList.getLast? = some '/' then
    ⟨directory.text ++ path.text⟩
  else ⟨directory.text ++ "/" ++ path.text⟩

end Path

end DiskWarden
