import DiskWarden.Fault
import DiskWarden.Path
import DiskWarden.Table
import DiskWarden.Text.Lines

/-!
A tree of directories, files and sockets, and what can be done to it by path. An action that
fails says why, and keeps what it has changed before.
-/

namespace DiskWarden

inductive FileNode
  | directory
  | file (mode : Nat) (octets : Text.Octets)
  | socket
deriving DecidableEq, Repr

/-- The names that lead from the root to a node. -/
abbrev Position := List String

/-- The nodes below the root, and where relative paths start. -/
structure FileTree where
  nodes : Table Position FileNode
  workingDirectory : Position
deriving Repr

/-- Where a path leads: to a node, or to a free name in a directory. -/
inductive Place
  | taken (position : Position) (node : FileNode)
  | free (directory : Position) (name : String)
deriving DecidableEq, Repr

/-- An action on a file tree, which may fail for a reason. -/
abbrev FileAction (α : Type) := ExceptT String (StateM FileTree) α

namespace FileTree

/-- The mode of files that are made without a mode of their own. -/
def defaultMode : Nat := 0o644

/-- An empty working directory with a given name. -/
def withDirectory (name : String) : FileTree := ⟨[([name], .directory)], [name]⟩

/-- The node at a position. The root is a directory. -/
def node? (tree : FileTree) (position : Position) : Option FileNode :=
  if position = [] then some .directory else tree.nodes.get? position

/-! ## Following paths -/

/-- How long a name may be, in octets. -/
def nameLimit : Nat := 255

/-- How long a path may be, in octets. -/
def pathLimit : Nat := 4095

def follow (tree : FileTree) (position : Position) : List String → Except String Place
  | [] =>
      match tree.node? position with
      | some node => .ok (.taken position node)
      | none => .error SystemError.noSuchFile
  | piece :: rest =>
      if tree.node? position ≠ some .directory then .error SystemError.notADirectory
      else if piece = "." then follow tree position rest
      else if piece = ".." then follow tree position.dropLast rest
      else if nameLimit < piece.utf8ByteSize then .error SystemError.nameTooLong
      else
        match tree.node? (position ++ [piece]) with
        | some _ => follow tree (position ++ [piece]) rest
        | none =>
            if rest = [] then .ok (.free position piece) else .error SystemError.noSuchFile

/-- Finds where a path leads. -/
def locate (tree : FileTree) (path : Path) : Except String Place :=
  if path.text.toList.contains '\x00' then .error SystemError.zeroInName
  else if path.text = "" then .error SystemError.noSuchFile
  else if pathLimit < path.text.utf8ByteSize then .error SystemError.nameTooLong
  else
    follow tree (if path.isAbsolute then [] else tree.workingDirectory)
      (path.pieces.filter (· ≠ ""))

/-- Whether a path ends with a slash, and so asks for a directory. -/
def asksForDirectory (path : Path) : Bool := path.text.toList.getLast? = some '/'

/-- The node that a path leads to. -/
def find (tree : FileTree) (path : Path) : Except String FileNode :=
  match tree.locate path with
  | .error reason => .error reason
  | .ok (.free _ _) => .error SystemError.noSuchFile
  | .ok (.taken _ node) =>
      if asksForDirectory path && node ≠ .directory then .error SystemError.notADirectory
      else .ok node

def pathExists (tree : FileTree) (path : Path) : Bool := (tree.find path).isOk

def isDirectory (tree : FileTree) (path : Path) : Bool :=
  match tree.find path with
  | .ok .directory => true
  | _ => false

end FileTree

namespace FileNode

def isProgram : FileNode → Bool
  | file mode _ => mode &&& 0o111 ≠ 0
  | _ => false

def octets : FileNode → Except String Text.Octets
  | file _ octets => .ok octets
  | directory => .error SystemError.isADirectory
  | socket => .error SystemError.noSuchDevice

/-- The text that can be read from a node. -/
def contents (node : FileNode) : Except String String :=
  match node.octets with
  | .error reason => .error reason
  | .ok octets =>
      match Text.decode? octets with
      | some text => .ok text
      | none => .error Text.notUtf8

end FileNode

namespace FileTree

/-- The program with a name. A name with a slash is a path; any other is looked for in
directories of programs, where only those directories and the ones above them are found. -/
def findProgram (tree : FileTree) (name : String) : Except String FileNode :=
  if !name.toList.contains '/' then
    .error (if name = "." || name = ".." then SystemError.permissionDenied
      else if nameLimit < name.utf8ByteSize then SystemError.nameTooLong
      else SystemError.noSuchFile)
  else
    match tree.find ⟨name⟩ with
    | .error reason => .error reason
    | .ok node => if node.isProgram then .ok node else .error SystemError.permissionDenied

def readText (tree : FileTree) (path : Path) : Except String String :=
  match tree.find path with
  | .error reason => .error reason
  | .ok node => node.contents

/-! ## Changing the tree -/

/-- The tree with a node at a position. -/
def put (tree : FileTree) (position : Position) (node : FileNode) : FileTree :=
  { tree with nodes := tree.nodes.put position node }

/-- Where a path leads in the present tree. -/
def locateNow (path : Path) : FileAction Place := do
  match (← get).locate path with
  | .error reason => throw reason
  | .ok place => pure place

def makeDirectory (path : Path) : FileAction Unit := do
  match ← locateNow path with
  | .taken .. => throw SystemError.fileExists
  | .free directory name => modify (·.put (directory ++ [name]) .directory)

/-- Succeeds if a path leads to a directory by now, and fails for a given reason if not. -/
def orIsDirectory (path : Path) (reason : String) : FileAction Unit := do
  if (← get).isDirectory path then pure () else throw reason

/-- Makes the first of some directories, of which each lies in the next one, with all of them
that are missing. The empty path stands for the working directory. -/
def makeChain : List Path → FileAction Unit
  | [] => throw "failed to create whole tree"
  | path :: parents =>
      if path.text = "" then pure ()
      else
        tryCatch (makeDirectory path) fun reason =>
          if reason ≠ SystemError.noSuchFile then orIsDirectory path reason
          else do
            makeChain parents
            tryCatch (makeDirectory path) (orIsDirectory path)

def makeDirectories (path : Path) : FileAction Unit := makeChain (path :: path.parents)

/-- Makes a file that must not be there yet. -/
def createFile (path : Path) (mode : Nat) (octets : Text.Octets) : FileAction Unit := do
  match ← locateNow path with
  | .taken .. =>
      throw (if asksForDirectory path then SystemError.isADirectory else SystemError.fileExists)
  | .free directory name =>
      if asksForDirectory path then throw SystemError.isADirectory
      else modify (·.put (directory ++ [name]) (.file mode octets))

/-- Writes a file, new or in place of an older one. -/
def writeFile (path : Path) (octets : Text.Octets) : FileAction Unit := do
  match ← locateNow path with
  | .free directory name =>
      if asksForDirectory path then throw SystemError.isADirectory
      else modify (·.put (directory ++ [name]) (.file defaultMode octets))
  | .taken position (.file mode _) =>
      if asksForDirectory path then throw SystemError.isADirectory
      else modify (·.put position (.file mode octets))
  | .taken _ .directory => throw SystemError.isADirectory
  | .taken _ .socket => throw SystemError.noSuchDevice

/-- Removes what is no directory. -/
def removeFile (path : Path) : FileAction Unit := do
  match ← locateNow path with
  | .free .. => throw SystemError.noSuchFile
  | .taken _ .directory => throw SystemError.isADirectory
  | .taken position _ =>
      if asksForDirectory path then throw SystemError.notADirectory
      else modify fun tree => { tree with nodes := tree.nodes.erase position }

/-- How long the path of a socket may be, in octets. -/
def socketPathLimit : Nat := 107

/-- Makes a socket at a free path of the tree. -/
def makeSocketFile (path : Path) : FileAction Unit := do
  if path.text.toList.contains '\x00' then throw SystemError.zeroInSocketPath
  if socketPathLimit < path.text.utf8ByteSize then throw SystemError.socketPathTooLong
  match ← locateNow path with
  | .taken .. => throw SystemError.addressInUse
  | .free directory name =>
      if asksForDirectory path then throw SystemError.noSuchFile
      else modify (·.put (directory ++ [name]) .socket)

/-- Makes a socket. A path that starts with a zero is a zero and a name outside the tree, and
for the empty path such a name is made up. -/
def makeSocket (path : Path) : FileAction Unit := do
  match path.text.toList with
  | [] => pure ()
  | first :: name =>
      if first ≠ '\x00' then makeSocketFile path
      else if socketPathLimit < (String.ofList name).utf8ByteSize then
        throw SystemError.socketNameTooLong

/-- The same action, with its failures told under a heading. -/
def withHeading {α : Type} (heading : String) (action : FileAction α) : FileAction α :=
  tryCatch action fun reason => throw (heading ++ ": " ++ reason)

end FileTree

end DiskWarden
