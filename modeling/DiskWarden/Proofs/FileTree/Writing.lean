import DiskWarden.FileTree
import DiskWarden.Proofs.Text.Utf8

/-!
# Files that are written and read back

A file that is put where a path leads is found by that path afterwards.  On the way to it the
path goes through directories only, and writing a file changes none of them; so a written file
is where it was looked for, and its text is the text that was written.
-/

namespace DiskWarden

namespace Place

/-- Where the node is, or where one would be. -/
def position : Place → Position
  | taken position _ => position
  | free directory name => directory ++ [name]

def node? : Place → Option FileNode
  | taken _ node => some node
  | free .. => none

/-- The mode of the file that writing to a place gives, if a file can be written there. -/
def fileMode? : Place → Option Nat
  | free .. => some FileTree.defaultMode
  | taken _ (.file mode _) => some mode
  | taken .. => none

theorem node?_ne_directory {place : Place} {mode : Nat} (writable : place.fileMode? = some mode) :
    place.node? ≠ some .directory := by
  rcases place with ⟨position, node⟩ | ⟨directory, name⟩
  · rintro isDirectory
    cases Option.some.inj isDirectory
    cases writable
  · exact nofun

end Place

namespace FileTree

variable {tree : FileTree} {path : Path} {place : Place} {start : Position}
  {pieces : List String}

theorem node?_nil (tree : FileTree) : tree.node? [] = some .directory := if_pos rfl

theorem node?_put (tree : FileTree) {position : Position} (below : position ≠ [])
    (node : FileNode) (other : Position) :
    (tree.put position node).node? other =
      if position = other then some node else tree.node? other := by
  unfold node? put
  by_cases root : other = []
  · have differs : position ≠ other := root ▸ below
    simp only [root, if_true, if_neg (root ▸ differs)]
  · simp only [if_neg root, Table.get?_put]

/-- The names of entries of a directory. -/
def IsName (piece : String) : Prop :=
  piece ≠ "." ∧ piece ≠ ".." ∧ piece.utf8ByteSize ≤ nameLimit

/-- What one step of a path does: it stays, goes up, enters what has the name, or ends at a name
that is free. -/
theorem follow_cons_eq_ok_iff {piece : String} {rest : List String} :
    tree.follow start (piece :: rest) = .ok place ↔
      tree.node? start = some .directory ∧
        (piece = "." ∧ tree.follow start rest = .ok place ∨
          piece = ".." ∧ tree.follow start.dropLast rest = .ok place ∨
          IsName piece ∧ tree.node? (start ++ [piece]) ≠ none ∧
            tree.follow (start ++ [piece]) rest = .ok place ∨
          IsName piece ∧ tree.node? (start ++ [piece]) = none ∧ rest = [] ∧
            .free start piece = place) := by
  rw [follow]
  by_cases entered : tree.node? start = some .directory
  case neg => simp [entered]
  by_cases stays : piece = "."
  case pos => simp [entered, stays, IsName]
  by_cases rises : piece = ".."
  case pos => simp [entered, rises, IsName]
  by_cases long : nameLimit < piece.utf8ByteSize
  case pos => simp [entered, stays, rises, long, IsName, Nat.not_le.mpr long]
  have short : piece.utf8ByteSize ≤ nameLimit := Nat.not_lt.mp long
  cases present : tree.node? (start ++ [piece]) with
  | some node => simp [entered, stays, rises, long, short, IsName]
  | none => by_cases last : rest = [] <;> simp [entered, stays, rises, long, short, last, IsName]

theorem follow_nil_eq_ok_iff :
    tree.follow start [] = .ok place ↔
      ∃ node, tree.node? start = some node ∧ .taken start node = place := by
  rw [follow]
  cases present : tree.node? start with
  | some node => simp
  | none => simp

/-- A place that a path leads to is as the tree has it. -/
theorem node?_of_follow (found : tree.follow start pieces = .ok place) :
    tree.node? place.position = place.node? := by
  induction pieces generalizing start with
  | nil =>
      obtain ⟨node, present, rfl⟩ := follow_nil_eq_ok_iff.mp found
      exact present
  | cons piece rest inductionHypothesis =>
      obtain ⟨-, ⟨-, later⟩ | ⟨-, later⟩ | ⟨-, -, later⟩ | ⟨-, absent, -, rfl⟩⟩ :=
        follow_cons_eq_ok_iff.mp found
      · exact inductionHypothesis later
      · exact inductionHypothesis later
      · exact inductionHypothesis later
      · exact absent

/-- Where no directory is replaced, a path leads to what has been put where it led before. -/
theorem follow_put (found : tree.follow start pieces = .ok place)
    (replaceable : place.node? ≠ some .directory) (node : FileNode) :
    (tree.put place.position node).follow start pieces = .ok (.taken place.position node) := by
  have present : tree.node? place.position ≠ some .directory :=
    (node?_of_follow found).symm ▸ replaceable
  have below : place.position ≠ [] := by
    intro root
    rw [root] at present
    exact present tree.node?_nil
  have here : (tree.put place.position node).node? place.position = some node := by
    rw [node?_put tree below, if_pos rfl]
  have kept {position : Position} (entered : tree.node? position = some .directory) :
      (tree.put place.position node).node? position = some .directory := by
    have differs : place.position ≠ position := by
      intro same
      exact present (same ▸ entered)
    rw [node?_put tree below, if_neg differs, entered]
  induction pieces generalizing start with
  | nil =>
      obtain ⟨old, -, rfl⟩ := follow_nil_eq_ok_iff.mp found
      exact follow_nil_eq_ok_iff.mpr ⟨node, here, rfl⟩
  | cons piece rest inductionHypothesis =>
      refine follow_cons_eq_ok_iff.mpr ?_
      obtain ⟨entered, ⟨stays, later⟩ | ⟨rises, later⟩ | ⟨isName, taken, later⟩ |
        ⟨isName, -, last, rfl⟩⟩ := follow_cons_eq_ok_iff.mp found
      · exact ⟨kept entered, .inl ⟨stays, inductionHypothesis later⟩⟩
      · exact ⟨kept entered, .inr (.inl ⟨rises, inductionHypothesis later⟩)⟩
      · refine ⟨kept entered, .inr (.inr (.inl ⟨isName, ?_, inductionHypothesis later⟩))⟩
        rw [node?_put tree below]
        split
        · exact nofun
        · exact taken
      · subst last
        refine ⟨kept entered, .inr (.inr (.inl ⟨isName, ?_, ?_⟩))⟩
        · exact Option.ne_none_iff_exists'.mpr ⟨node, here⟩
        · exact follow_nil_eq_ok_iff.mpr ⟨node, here, rfl⟩

theorem locate_eq_ok_iff :
    tree.locate path = .ok place ↔
      '\x00' ∉ path.text.toList ∧ path.text ≠ "" ∧ path.text.utf8ByteSize ≤ pathLimit ∧
        tree.follow (if path.isAbsolute then [] else tree.workingDirectory)
          (path.pieces.filter (· ≠ "")) = .ok place := by
  unfold locate
  by_cases zero : '\x00' ∈ path.text.toList
  case pos => simp [zero]
  by_cases empty : path.text = ""
  case pos => simp [empty]
  by_cases long : pathLimit < path.text.utf8ByteSize
  case pos => simp [zero, empty, long, Nat.not_le.mpr long]
  simp [zero, empty, long, Nat.not_lt.mp long]

theorem locate_put (found : tree.locate path = .ok place)
    (replaceable : place.node? ≠ some .directory) (node : FileNode) :
    (tree.put place.position node).locate path = .ok (.taken place.position node) := by
  obtain ⟨noZero, written, short, followed⟩ := locate_eq_ok_iff.mp found
  exact locate_eq_ok_iff.mpr ⟨noZero, written, short, follow_put followed replaceable node⟩

/-! ## Writing files -/

variable {octets : Text.Octets} {mode : Nat} {later : FileTree}

/-- The file that has been put where a path led is found by it. -/
theorem find_put (found : tree.locate path = .ok place)
    (replaceable : place.node? ≠ some .directory) (isFile : asksForDirectory path = false)
    (node : FileNode) : (tree.put place.position node).find path = .ok node := by
  rw [find, locate_put found replaceable node]
  simp [isFile]

theorem contents_file (mode : Nat) (text : String) :
    (FileNode.file mode (Text.encode text)).contents = .ok text := by
  simp only [FileNode.contents, FileNode.octets, Text.decode?_encode]

theorem readText_put (found : tree.locate path = .ok place)
    (replaceable : place.node? ≠ some .directory) (isFile : asksForDirectory path = false)
    (mode : Nat) (text : String) :
    (tree.put place.position (.file mode (Text.encode text))).readText path = .ok text := by
  rw [readText, find_put found replaceable isFile]
  exact contents_file mode text

theorem run_tryCatch {α : Type} (action : FileAction α) (handle : String → FileAction α) :
    (tryCatch action handle).run.run tree =
      match action.run.run tree with
      | (.ok result, later) => (.ok result, later)
      | (.error reason, later) => (handle reason).run.run later := by
  change (ExceptT.tryCatch action handle).run.run tree = _
  rw [ExceptT.tryCatch, ExceptT.run_mk, StateT.run_bind]
  change (action.run.run tree >>= _) = _
  obtain ⟨result, later⟩ := action.run.run tree
  cases result with
  | ok result => rfl
  | error reason => rfl

theorem run_bind {α β : Type} (action : FileAction α) (next : α → FileAction β) :
    (action >>= next).run.run tree =
      match action.run.run tree with
      | (.ok result, later) => (next result).run.run later
      | (.error reason, later) => (.error reason, later) := by
  rw [ExceptT.run_bind, StateT.run_bind]
  obtain ⟨result, later⟩ := action.run.run tree
  cases result with
  | ok result => rfl
  | error reason => rfl

/-- What follows a look for a place starts from the place that is found, in the same tree. -/
theorem run_locateNow_bind {α : Type} (tree : FileTree) (path : Path) (next : Place → FileAction α) :
    (locateNow path >>= next).run.run tree =
      match tree.locate path with
      | .error reason => (.error reason, tree)
      | .ok place => (next place).run.run tree := by
  have located : (locateNow path).run.run tree = (tree.locate path, tree) := by
    change (match tree.locate path with
      | .error reason => (throw reason : FileAction Place)
      | .ok place => pure place).run.run tree = _
    cases tree.locate path with
    | error reason => rfl
    | ok place => rfl
  rw [run_bind, located]
  cases tree.locate path with
  | error reason => rfl
  | ok place => rfl

theorem run_modify_eq_ok_iff {change : FileTree → FileTree} :
    (modify change : FileAction Unit).run.run tree = (.ok (), later) ↔ change tree = later := by
  change ((Except.ok (), change tree) : Except String Unit × FileTree) = (.ok (), later) ↔ _
  simp only [Prod.mk.injEq, true_and]

/-- A file is written where a path leads to a file or to a free name. -/
theorem writeFile_eq_ok_iff :
    (writeFile path octets).run.run tree = (.ok (), later) ↔
      ∃ place mode, tree.locate path = .ok place ∧ place.fileMode? = some mode ∧
        asksForDirectory path = false ∧
        tree.put place.position (.file mode octets) = later := by
  unfold writeFile
  rw [run_locateNow_bind]
  cases found : tree.locate path with
  | error reason => exact iff_of_false nofun (by simp)
  | ok place =>
      rcases place with ⟨position, _ | ⟨mode, old⟩ | _⟩ | ⟨directory, name⟩
      · exact iff_of_false nofun (by simp [Place.fileMode?])
      · by_cases asks : asksForDirectory path = true
        · exact iff_of_false (by dsimp only; rw [if_pos asks]; nofun) (by simp [asks])
        · simp [asks, run_modify_eq_ok_iff, Place.fileMode?, Place.position]
      · exact iff_of_false nofun (by simp [Place.fileMode?])
      · by_cases asks : asksForDirectory path = true
        · exact iff_of_false (by dsimp only; rw [if_pos asks]; nofun) (by simp [asks])
        · simp [asks, run_modify_eq_ok_iff, Place.fileMode?, Place.position]

/-- A path that leads to a file or to a free name. -/
def CanWrite (tree : FileTree) (path : Path) : Prop :=
  ∃ place mode, tree.locate path = .ok place ∧ place.fileMode? = some mode ∧
    asksForDirectory path = false

theorem exists_writeFile (octets : Text.Octets) (writable : tree.CanWrite path) :
    ∃ later, (writeFile path octets).run.run tree = (.ok (), later) := by
  obtain ⟨place, mode, found, isFile, noDirectory⟩ := writable
  exact ⟨_, writeFile_eq_ok_iff.mpr ⟨place, mode, found, isFile, noDirectory, rfl⟩⟩

/-- What has been written to a file is read from it. -/
theorem readText_of_writeFile {text : String}
    (written : (writeFile path (Text.encode text)).run.run tree = (.ok (), later)) :
    later.readText path = .ok text := by
  obtain ⟨place, mode, found, writable, isFile, rfl⟩ := writeFile_eq_ok_iff.mp written
  exact readText_put found (Place.node?_ne_directory writable) isFile mode text

/-- A file is made where a path leads to a free name. -/
theorem createFile_eq_ok_iff :
    (createFile path mode octets).run.run tree = (.ok (), later) ↔
      ∃ directory name, tree.locate path = .ok (.free directory name) ∧
        asksForDirectory path = false ∧
        tree.put (directory ++ [name]) (.file mode octets) = later := by
  unfold createFile
  rw [run_locateNow_bind]
  cases found : tree.locate path with
  | error reason => exact iff_of_false nofun (by simp)
  | ok place =>
      rcases place with ⟨position, node⟩ | ⟨directory, name⟩
      · exact iff_of_false nofun (by simp)
      · by_cases asks : asksForDirectory path = true
        · exact iff_of_false (by dsimp only; rw [if_pos asks]; nofun) (by simp [asks])
        · simp [asks, run_modify_eq_ok_iff]

end FileTree

end DiskWarden
