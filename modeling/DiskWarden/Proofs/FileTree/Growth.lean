import DiskWarden.Proofs.FileTree.Parents
import DiskWarden.Proofs.FileTree.Writing

/-!
# Trees that grow

Making directories and files adds nodes at positions that were free, and changes none.  In a tree
in which every node lies in a directory, a path without steps up leads to a node afterwards only
if the node was there before, or if it was added at the very position that the path names.
-/

namespace DiskWarden.FileTree

variable {tree middle later : FileTree} {path : Path} {place : Place} {start position : Position}
  {pieces : List String} {added : Position → FileNode → Prop}

/-- Every node is in a directory. -/
def IsClosed (tree : FileTree) : Prop :=
  ∀ directory name, tree.node? (directory ++ [name]) ≠ none →
    tree.node? directory = some .directory

theorem isClosed_withDirectory (name : String) : (withDirectory name).IsClosed := by
  intro directory other present
  have only : [name] = directory ++ [other] := by
    by_contra differs
    exact present (by simp [node?, withDirectory, Table.get?, differs])
  have root : directory = [] := by
    have length := congrArg List.length only
    simpa using length
  rw [root, node?_nil]

/-- The later tree has the nodes of the first one, and others that may be added. -/
structure Extends (added : Position → FileNode → Prop) (tree later : FileTree) : Prop where
  start : later.workingDirectory = tree.workingDirectory
  kept : ∀ position node, tree.node? position = some node → later.node? position = some node
  isAdded : ∀ position node, later.node? position = some node → tree.node? position = none →
    added position node

namespace Extends

theorem refl (added : Position → FileNode → Prop) (tree : FileTree) : Extends added tree tree where
  start := rfl
  kept _ _ := id
  isAdded _ _ present absent := by
    rw [absent] at present
    cases present

theorem trans (first : Extends added tree middle) (second : Extends added middle later) :
    Extends added tree later where
  start := second.start.trans first.start
  kept position node present := second.kept position node (first.kept position node present)
  isAdded position node present absent := by
    cases between : middle.node? position with
    | none => exact second.isAdded position node present between
    | some old =>
        have same := (second.kept position old between).symm.trans present
        cases same
        exact first.isAdded position node between absent

theorem mono {more : Position → FileNode → Prop} (grown : Extends added tree later)
    (weaker : ∀ position node, added position node → more position node) :
    Extends more tree later :=
  ⟨grown.start, grown.kept, fun position node present absent =>
    weaker position node (grown.isAdded position node present absent)⟩

theorem put {node : FileNode} (free : tree.node? position = none) (below : position ≠ [])
    (allowed : added position node) : Extends added tree (tree.put position node) where
  start := rfl
  kept other old present := by
    have differs : position ≠ other := by
      rintro rfl
      rw [free] at present
      cases present
    rw [node?_put tree below, if_neg differs, present]
  isAdded other found present absent := by
    rw [node?_put tree below] at present
    split at present
    · next same =>
        cases present
        exact same ▸ allowed
    · rw [absent] at present
      cases present

end Extends

/-! ## Where a path leads -/

/-- The position that a path names, if it has no step up, seen from where relative paths start. -/
def destination (origin : Position) (path : Path) : Position :=
  (if path.isAbsolute then [] else origin) ++ path.names

/-- Without steps up, a path leads to the position that its names make. -/
theorem position_of_follow (found : tree.follow start pieces = .ok place)
    (noRise : ".." ∉ pieces) (written : "" ∉ pieces) :
    place.position = start ++ pieces.filter fun piece => !Path.isIdle piece := by
  induction pieces generalizing start with
  | nil =>
      obtain ⟨node, -, rfl⟩ := follow_nil_eq_ok_iff.mp found
      exact (List.append_nil start).symm
  | cons piece rest inductionHypothesis =>
      rw [List.mem_cons, not_or] at noRise written
      obtain ⟨-, ⟨rfl, later⟩ | ⟨rises, -⟩ | ⟨isName, -, later⟩ | ⟨isName, -, rfl, rfl⟩⟩ :=
        follow_cons_eq_ok_iff.mp found
      · exact inductionHypothesis later noRise.2 written.2
      · exact absurd rises.symm noRise.1
      all_goals
        have solid : Path.isIdle piece = false := by
          simp [Path.isIdle, isName.1, Ne.symm written.1]
      · rw [inductionHypothesis later noRise.2 written.2, List.append_assoc]
        simp [solid]
      · simp [Place.position, solid]

theorem filter_names (path : Path) :
    (path.pieces.filter (· ≠ "")).filter (fun piece => !Path.isIdle piece) = path.names := by
  rw [List.filter_filter, Path.names]
  congr 1
  funext piece
  simp only [Path.isIdle]
  by_cases empty : piece = "" <;> simp [empty]

theorem position_of_locate (located : tree.locate path = .ok place)
    (noRise : ".." ∉ path.pieces) :
    place.position = destination tree.workingDirectory path := by
  obtain ⟨-, -, -, followed⟩ := locate_eq_ok_iff.mp located
  have noRise' : ".." ∉ path.pieces.filter (· ≠ "") :=
    fun member => noRise (List.mem_filter.mp member).1
  rw [position_of_follow followed noRise' (by simp), filter_names]
  rfl

theorem node?_of_locate (located : tree.locate path = .ok place) :
    tree.node? place.position = place.node? := by
  obtain ⟨-, -, -, followed⟩ := locate_eq_ok_iff.mp located
  exact node?_of_follow followed

/-- A free name lies in some directory, as the path tells. -/
theorem exists_parent_of_locate {directory : Position} {name : String}
    (free : tree.locate path = .ok (.free directory name)) :
    ∃ parent, path.parent? = some parent := by
  rw [← Option.ne_none_iff_exists']
  intro none
  have idle := Path.isIdle_of_parent?_eq_none none
  have absent := node?_of_locate free
  have noRise : ".." ∉ path.pieces := fun member => absurd (idle ".." member) (by decide)
  have unnamed : path.names = [] := by simpa [Path.names] using idle
  rw [position_of_locate free noRise, destination, unnamed, List.append_nil] at absent
  obtain ⟨-, -, -, followed⟩ := locate_eq_ok_iff.mp free
  -- a path starts at a node, and here it does not leave it
  cases same : path.pieces.filter (· ≠ "") with
  | nil =>
      rw [same] at followed
      obtain ⟨_, _, taken⟩ := follow_nil_eq_ok_iff.mp followed
      cases taken
  | cons piece rest =>
      rw [same] at followed
      have entered := (follow_cons_eq_ok_iff.mp followed).1
      rw [absent] at entered
      cases entered

/-! ## Paths in a tree that has grown -/

theorem find_eq_ok_iff {node : FileNode} :
    tree.find path = .ok node ↔
      ∃ position, tree.locate path = .ok (.taken position node) ∧
        (asksForDirectory path = true → node = .directory) := by
  rw [find]
  cases located : tree.locate path with
  | error reason => simp
  | ok place =>
      rcases place with ⟨position, old⟩ | ⟨directory, name⟩
      · by_cases asks : asksForDirectory path = true
        · by_cases isDirectory : old = .directory
          · simp [asks, isDirectory]
            exact Eq.symm
          · simp [asks, isDirectory]
            rintro rfl
            exact isDirectory
        · simp [asks]
      · simp

theorem IsClosed.node?_prefix (closed : tree.IsClosed)
    (present : tree.node? (start ++ pieces) ≠ none) : tree.node? start ≠ none := by
  induction pieces using List.reverseRecOn with
  | nil => rwa [List.append_nil] at present
  | append_singleton pieces piece inductionHypothesis =>
      rw [← List.append_assoc] at present
      apply inductionHypothesis
      rw [closed _ _ present]
      nofun

theorem follow_of_extends (closed : tree.IsClosed) (grown : Extends added tree later)
    (noRise : ".." ∉ pieces) (written : "" ∉ pieces) {node : FileNode}
    (found : later.follow start pieces = .ok (.taken position node))
    (present : tree.node? position ≠ none) :
    tree.follow start pieces = .ok (.taken position node) := by
  have same {other : Position} {old : FileNode} (here : later.node? other = some old)
      (had : tree.node? other ≠ none) : tree.node? other = some old := by
    obtain ⟨before, had⟩ := Option.ne_none_iff_exists'.mp had
    exact had.trans ((grown.kept other before had).symm.trans here)
  induction pieces generalizing start with
  | nil =>
      obtain ⟨old, here, taken⟩ := follow_nil_eq_ok_iff.mp found
      cases taken
      exact follow_nil_eq_ok_iff.mpr ⟨node, same here present, rfl⟩
  | cons piece rest inductionHypothesis =>
      have leads := position_of_follow found noRise written
      rw [List.mem_cons, not_or] at noRise written
      have above : tree.node? start ≠ none := by
        change position = _ at leads
        rw [leads] at present
        exact closed.node?_prefix present
      obtain ⟨entered, ⟨stays, behind⟩ | ⟨rises, -⟩ | ⟨isName, -, behind⟩ | ⟨-, -, -, free⟩⟩ :=
        follow_cons_eq_ok_iff.mp found
      · exact follow_cons_eq_ok_iff.mpr ⟨same entered above,
          .inl ⟨stays, inductionHypothesis noRise.2 written.2 behind⟩⟩
      · exact absurd rises.symm noRise.1
      · refine follow_cons_eq_ok_iff.mpr ⟨same entered above,
          .inr (.inr (.inl ⟨isName, ?_, inductionHypothesis noRise.2 written.2 behind⟩))⟩
        have leads := position_of_follow behind noRise.2 written.2
        change position = _ at leads
        rw [leads] at present
        exact closed.node?_prefix present
      · cases free

/-- In a tree that has grown, a path finds what it found before, or what was added at the position
that it names. -/
theorem find_of_extends (closed : tree.IsClosed) (grown : Extends added tree later)
    (noRise : ".." ∉ path.pieces) {node : FileNode} (found : later.find path = .ok node) :
    tree.find path = .ok node ∨ added (destination tree.workingDirectory path) node := by
  obtain ⟨position, located, asks⟩ := find_eq_ok_iff.mp found
  have leads : position = destination tree.workingDirectory path :=
    grown.start ▸ position_of_locate located noRise
  have here : later.node? position = some node := node?_of_locate located
  by_cases absent : tree.node? position = none
  · exact .inr (leads ▸ grown.isAdded position node here absent)
  · refine .inl (find_eq_ok_iff.mpr ⟨position, ?_, asks⟩)
    obtain ⟨noZero, written, short, followed⟩ := locate_eq_ok_iff.mp located
    rw [grown.start] at followed
    have noRise' : ".." ∉ path.pieces.filter (· ≠ "") :=
      fun member => noRise (List.mem_filter.mp member).1
    exact locate_eq_ok_iff.mpr ⟨noZero, written, short,
      follow_of_extends closed grown noRise' (by simp) followed absent⟩

/-! ## Making directories and files -/

/-- An action that only adds to a tree in which relative paths have a given start. -/
def Adds {α : Type} (origin : Position) (added : Position → FileNode → Prop)
    (action : FileAction α) : Prop :=
  ∀ tree : FileTree, tree.workingDirectory = origin → Extends added tree (action.run.run tree).2

namespace Adds

variable {α β : Type} {origin : Position} {action : FileAction α}

theorem of_unchanged (same : ∀ tree, (action.run.run tree).2 = tree) : Adds origin added action :=
  fun tree _ => (same tree).symm ▸ Extends.refl added tree

theorem tryCatch {handle : String → FileAction α} (adds : Adds origin added action)
    (handles : ∀ reason, Adds origin added (handle reason)) :
    Adds origin added (tryCatchThe String action handle) := by
  intro tree start
  have first := adds tree start
  change Extends added tree ((MonadExcept.tryCatch action handle).run.run tree).2
  rw [run_tryCatch]
  generalize action.run.run tree = ran at first
  obtain ⟨result, later⟩ := ran
  cases result with
  | ok result => exact first
  | error reason => exact first.trans (handles reason later (first.start.trans start))

theorem bind {next : α → FileAction β} (adds : Adds origin added action)
    (continues : ∀ result, Adds origin added (next result)) :
    Adds origin added (action >>= next) := by
  intro tree start
  have first := adds tree start
  rw [run_bind]
  generalize action.run.run tree = ran at first
  obtain ⟨result, later⟩ := ran
  cases result with
  | ok result => exact first.trans (continues result later (first.start.trans start))
  | error reason => exact first

end Adds

theorem adds_orIsDirectory {origin : Position} (path : Path) (reason : String) :
    Adds origin added (orIsDirectory path reason) := by
  refine .of_unchanged fun tree => ?_
  change ((if tree.isDirectory path then pure () else throw reason : FileAction Unit).run.run
    tree).2 = tree
  split <;> rfl

/-- A directory is made at a free name, or the tree stays as it is. -/
theorem makeDirectory_cases (tree : FileTree) (path : Path) :
    (∃ reason, (makeDirectory path).run.run tree = (.error reason, tree)) ∨
      ∃ directory name, tree.locate path = .ok (.free directory name) ∧
        (makeDirectory path).run.run tree =
          (.ok (), tree.put (directory ++ [name]) .directory) := by
  unfold makeDirectory
  rw [run_locateNow_bind]
  cases located : tree.locate path with
  | error reason => exact .inl ⟨reason, rfl⟩
  | ok place =>
      rcases place with ⟨position, node⟩ | ⟨directory, name⟩
      · exact .inl ⟨_, rfl⟩
      · exact .inr ⟨directory, name, rfl, rfl⟩

/-- A file is made at a free name, or the tree stays as it is. -/
theorem createFile_cases (tree : FileTree) (path : Path) (mode : Nat) (octets : Text.Octets) :
    (∃ reason, (createFile path mode octets).run.run tree = (.error reason, tree)) ∨
      ∃ directory name, tree.locate path = .ok (.free directory name) ∧
        asksForDirectory path = false ∧
        (createFile path mode octets).run.run tree =
          (.ok (), tree.put (directory ++ [name]) (.file mode octets)) := by
  unfold createFile
  rw [run_locateNow_bind]
  cases located : tree.locate path with
  | error reason => exact .inl ⟨reason, rfl⟩
  | ok place =>
      rcases place with ⟨position, node⟩ | ⟨directory, name⟩
      · exact .inl ⟨_, rfl⟩
      · by_cases asks : asksForDirectory path = true
        · refine .inl ⟨SystemError.isADirectory, ?_⟩
          simp only [asks, if_true]
          rfl
        · refine .inr ⟨directory, name, rfl, Bool.eq_false_iff.mpr asks, ?_⟩
          simp only [asks]
          rfl

/-- Where directories are made for some paths: for one without steps up, at the position that it
names. -/
def MadeFor (origin : Position) (paths : List Path) (position : Position) (node : FileNode) :
    Prop :=
  node = .directory ∧ ∃ path ∈ paths, path.text ≠ "" ∧
    (".." ∉ path.pieces → position = destination origin path)

theorem adds_makeDirectory {origin : Position} {paths : List Path} (named : path.text ≠ "")
    (listed : path ∈ paths) : Adds origin (MadeFor origin paths) (makeDirectory path) := by
  rintro tree rfl
  rcases makeDirectory_cases tree path with ⟨reason, ran⟩ | ⟨directory, name, free, ran⟩
  · rw [ran]
    exact .refl _ tree
  · rw [ran]
    have absent := node?_of_locate free
    refine .put absent (by simp) ⟨rfl, path, listed, named, fun noRise => ?_⟩
    exact position_of_locate free noRise

theorem adds_makeChain {origin : Position} {paths all : List Path} (subset : paths ⊆ all) :
    Adds origin (MadeFor origin all) (makeChain paths) := by
  induction paths with
  | nil => exact .of_unchanged fun _ => rfl
  | cons path parents inductionHypothesis =>
      obtain ⟨listed, above⟩ := List.cons_subset.mp subset
      rw [makeChain]
      split
      · exact .of_unchanged fun _ => rfl
      next named =>
        refine (adds_makeDirectory named listed).tryCatch fun reason => ?_
        split
        · exact adds_orIsDirectory path reason
        · refine (inductionHypothesis above).bind fun _ => ?_
          exact (adds_makeDirectory named listed).tryCatch fun reason =>
            adds_orIsDirectory path reason

/-- What is added above a path: directories, and for a path without steps up none at the path
itself. -/
def AddedAbove (origin : Position) (path : Path) (position : Position) (node : FileNode) : Prop :=
  node = .directory ∧ (".." ∉ path.pieces → position ≠ destination origin path)

/-- Making the directory that a path lies in adds what is above the path only. -/
theorem adds_makeDirectories {origin : Position} {parent : Path}
    (inside : path.parent? = some parent) :
    Adds origin (AddedAbove origin path) (makeDirectories parent) := by
  intro tree start
  refine (adds_makeChain (List.Subset.refl _) tree start).mono ?_
  rintro position node ⟨isDirectory, upper, listed, named, made⟩
  have above : Path.IsAbove upper path := by
    have first := Path.isAbove_parent inside
    rcases List.mem_cons.mp listed with rfl | later
    · exact first
    · exact (Path.isAbove_of_mem_parents later).trans first
  refine ⟨isDirectory, fun noRise same => ?_⟩
  rw [made (above.noRise noRise), destination, destination, above.isAbsolute named] at same
  have shorter := above.shorter named
  rw [List.append_cancel_left same] at shorter
  exact Nat.lt_irrefl _ shorter

end DiskWarden.FileTree
