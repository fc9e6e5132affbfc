import DiskWarden.Proofs.Config.Starter

/-!
# What a start leaves behind

A start that fails leaves what was at its path, with one exception.  Where a starter file can be
written it is written before the extension of the path is looked at, so that it stays behind when
the path is refused, or read as YAML.
-/

namespace DiskWarden.Config.Starter

open FileTree (AddedAbove Extends)

variable {tree made later : FileTree} {path : Path} {position : Position} {socketPath : String}
  {mode : Nat} {user : Option Location.User}

/-! ## Writing a starter file -/

/-- A file is made at a free name, or the tree stays as it is. -/
theorem createUnlessThere_cases (tree : FileTree) (path : Path) (mode : Nat)
    (octets : Text.Octets) :
    ((∀ directory name, tree.locate path = .ok (.free directory name) →
        FileTree.asksForDirectory path = true) ∧
      ((createUnlessThere path mode octets).run.run tree).2 = tree) ∨
    ∃ directory name, tree.locate path = .ok (.free directory name) ∧
      FileTree.asksForDirectory path = false ∧
      (createUnlessThere path mode octets).run.run tree =
        (.ok (), tree.put (directory ++ [name]) (.file mode octets)) := by
  rcases FileTree.createFile_cases tree path mode octets with
    ⟨reason, ran⟩ | ⟨directory, name, free, isFile, ran⟩
  · refine .inl ⟨fun directory name free => ?_, ?_⟩
    · rw [← Bool.not_eq_false]
      intro isFile
      cases ran.symm.trans (FileTree.createFile_eq_ok_iff.mpr
        ⟨directory, name, free, isFile, rfl⟩)
    · rw [createUnlessThere, FileTree.run_tryCatch, ran]
      simp only
      split <;> rfl
  · exact .inr ⟨directory, name, free, isFile, createUnlessThere_of_created ran⟩

/-- Nothing can be written at a path that is in no directory. -/
theorem writeFor_of_no_parent (tree : FileTree) (socketPath : String) (mode : Nat)
    (outside : path.parent? = none) :
    (∀ made position, ¬ IsVacant tree made path position) ∧
      ((writeFor socketPath mode path).run.run tree).2 = tree := by
  have noneFree (tree : FileTree) (directory : Position) (name : String) :
      tree.locate path ≠ .ok (.free directory name) := by
    intro free
    obtain ⟨parent, above⟩ := FileTree.exists_parent_of_locate free
    cases outside.symm.trans above
  have alone : writeFor socketPath mode path =
      createUnlessThere path mode (Text.encode (template socketPath)) := by
    rw [writeFor, outside]
  constructor
  · intro made position vacant
    obtain ⟨directory, name, free, -⟩ := vacant.isFree
    exact noneFree made directory name free
  · rw [alone]
    rcases createUnlessThere_cases tree path mode (Text.encode (template socketPath)) with
      ⟨-, same⟩ | ⟨directory, name, free, -, -⟩
    · exact same
    · exact absurd free (noneFree tree directory name)

/-- A starter file is written where a path is vacant.  Anywhere else directories are made at
most. -/
theorem writeFor_cases (socketPath : String) (mode : Nat) (missing : tree.pathExists path = false) :
    (∃ made position, IsVacant tree made path position ∧
        (writeFor socketPath mode path).run.run tree =
          (.ok (), made.put position (.file mode (Text.encode (template socketPath))))) ∨
      (∀ made position, ¬ IsVacant tree made path position) ∧
        Extends (AddedAbove tree.workingDirectory path) tree
          ((writeFor socketPath mode path).run.run tree).2 := by
  cases inside : path.parent? with
  | none =>
      obtain ⟨taken, same⟩ := writeFor_of_no_parent tree socketPath mode inside
      rw [same]
      exact .inr ⟨taken, .refl _ tree⟩
  | some parent =>
      have grown := FileTree.adds_makeDirectories inside tree rfl
      rw [writeFor_of_parent inside, FileTree.run_bind]
      rcases ran : (FileTree.makeDirectories parent).run.run tree with ⟨result, made⟩
      rw [ran] at grown
      cases result with
      | error reason =>
          refine .inr ⟨fun made' position vacant => ?_, grown⟩
          cases ran.symm.trans (vacant.directoriesMade parent inside)
      | ok =>
          rcases createUnlessThere_cases made path mode (Text.encode (template socketPath)) with
            ⟨asks, same⟩ | ⟨directory, name, free, isFile, created⟩
          · refine .inr ⟨fun made' position vacant => ?_, ?_⟩
            · cases ran.symm.trans (vacant.directoriesMade parent inside)
              obtain ⟨directory, name, free, -⟩ := vacant.isFree
              exact Bool.false_ne_true (vacant.isFile.symm.trans (asks directory name free))
            · simp only [same]
              exact grown
          · refine .inl ⟨made, _, ⟨missing, fun parent' inside' => ?_, ⟨directory, name, free, rfl⟩,
              isFile⟩, created⟩
            cases inside.symm.trans inside'
            exact ran

/-! ## Starts -/

/-- The own starter file of a user. -/
def userFile (user : Location.User) : FileNode :=
  .file userMode (Text.encode (template user.socketPath))

/-- What a start that finds nothing may add: directories, and the user's own starter file. -/
def AddedBeside (user : Option Location.User) (node : FileNode) : Prop :=
  node = .directory ∨ ∃ account, user = some account ∧ node = userFile account

theorem extends_of_isVacant (vacant : IsVacant tree made path position) :
    Extends (fun _ node => node = .directory) tree made ∧ made.node? position = none ∧
      position ≠ [] := by
  obtain ⟨directory, name, free, rfl⟩ := vacant.isFree
  obtain ⟨parent, inside⟩ := FileTree.exists_parent_of_locate free
  have grown := FileTree.adds_makeDirectories inside tree rfl
  rw [vacant.directoriesMade parent inside] at grown
  exact ⟨grown.mono fun _ _ added => added.1, FileTree.node?_of_locate free, by simp⟩

theorem extends_put (vacant : IsVacant tree made path position) (node : FileNode) :
    Extends (fun _ other => other = .directory ∨ other = node) tree (made.put position node) := by
  obtain ⟨grown, free, below⟩ := extends_of_isVacant vacant
  exact (grown.mono fun _ _ => .inl).trans (.put free below (.inr rfl))

theorem extends_loadUserCopy (user : Option Location.User) (tree : FileTree) :
    Extends (fun _ => AddedBeside user) tree ((Stored.loadUserCopy user).run tree).2 := by
  cases user with
  | none => exact .refl _ tree
  | some account =>
      have written : tree.pathExists account.configuration = false →
          Extends (fun _ => AddedBeside (some account)) tree
            ((writeFor account.socketPath userMode account.configuration).run.run tree).2 := by
        intro missing
        rcases writeFor_cases account.socketPath userMode missing with
          ⟨made, position, vacant, ran⟩ | ⟨-, grown⟩
        · rw [ran]
          refine (extends_put vacant _).mono fun _ node added => ?_
          exact added.imp_right fun same => ⟨account, rfl, same⟩
        · exact grown.mono fun _ _ added => .inl added.1
      rw [Stored.loadUserCopy, run_startWith]
      split
      · exact .refl _ tree
      · next missing =>
          have grown := written (Bool.eq_false_iff.mpr missing)
          revert grown
          rcases (writeFor account.socketPath userMode account.configuration).run.run tree with
            ⟨_ | ⟨⟩, later⟩
          · exact id
          · exact id

/-- What is loaded from a starter file is an error, unless its path is one for TOML. -/
theorem load_file_fails_iff (vacant : IsVacant tree made path position) :
    (∃ fault, Stored.load (made.put position file) path = .error fault) ↔
      Format.ofPath path ≠ .ok .toml := by
  cases accepted : Format.ofPath path with
  | error fault =>
      refine iff_of_true ⟨fault, ?_⟩ (by simp)
      rw [Stored.load, accepted]
      rfl
  | ok format =>
      rw [load_file vacant accepted]
      cases format with
      | toml =>
          refine iff_of_false ?_ (fun other => other rfl)
          rintro ⟨fault, failed⟩
          rw [outcome, if_pos rfl] at failed
          cases failed
      | yaml => exact iff_of_true ⟨.yaml, rfl⟩ (by decide)

/-- Where nothing can be written to a path, a start adds what is above it, and for the
configuration of the machine what is made for a user's own. -/
theorem extends_of_not_vacant (user : Option Location.User)
    (notVacant : ∀ made position, ¬ IsVacant tree made path position) :
    Extends
      (fun position node => AddedAbove tree.workingDirectory path position node ∨
        Location.isSystem path = true ∧ AddedBeside user node)
      tree ((Stored.loadOrStartFor user path).run tree).2 := by
  rw [Stored.loadOrStartFor, run_startWith]
  split
  · exact .refl _ tree
  next missing =>
    rcases writeFor_cases standardSocket mode (Bool.eq_false_iff.mpr missing) with
      ⟨made, position, vacant, -⟩ | ⟨-, above⟩
    · exact absurd vacant (notVacant made position)
    have grown := above.mono fun position node => Or.inl
      (b := Location.isSystem path = true ∧ AddedBeside user node)
    change Extends _ tree ((write path).run.run tree).2 at grown
    generalize (write path).run.run tree = ran at grown
    obtain ⟨reason | ⟨⟩, middle⟩ := ran
    · by_cases isSystem : Location.isSystem path = true
      · simp only [if_pos isSystem]
        exact grown.trans <| (extends_loadUserCopy user middle).mono fun _ _ added =>
          .inr ⟨isSystem, added⟩
      · simp only [if_neg isSystem]
        exact grown
    · exact grown

/-- A start changes no node that is there, and nothing at all where it finds something.  It leaves
a starter file where a path is vacant, also when it fails, which it does unless the path is one
for TOML.  Otherwise nothing comes to be at a path without steps up; only where the configuration
of the machine is asked for may what is made for a user's own come to lie there. -/
theorem start_leaves {outcome : Except Fault Stored}
    (ran : (Stored.loadOrStartFor user path).run tree = (outcome, later)) :
    (∀ position node, tree.node? position = some node → later.node? position = some node) ∧
      (tree.pathExists path = true → later = tree) ∧
      (∀ made position, IsVacant tree made path position →
        later = made.put position file ∧ later.find path = .ok file ∧
          ((∃ fault, outcome = .error fault) ↔ Format.ofPath path ≠ .ok .toml)) ∧
      ((∀ made position, ¬ IsVacant tree made path position) →
        Extends (fun _ => AddedBeside user) tree later ∧
          (tree.IsClosed → ".." ∉ path.pieces → ∀ node, later.find path = .ok node →
            tree.find path = .ok node ∨
              Location.isSystem path = true ∧ AddedBeside user node)) := by
  have found (present : tree.pathExists path = true) : later = tree := by
    rw [Stored.loadOrStartFor, run_startWith, if_pos present] at ran
    cases ran
    rfl
  have written {made : FileTree} {position : Position}
      (vacant : IsVacant tree made path position) :
      later = made.put position file ∧ outcome = Stored.load (made.put position file) path := by
    rw [Stored.loadOrStartFor, run_startWith, if_neg (Bool.eq_false_iff.mp vacant.missing),
      run_write vacant] at ran
    cases ran
    exact ⟨rfl, rfl⟩
  have grown (notVacant : ∀ made position, ¬ IsVacant tree made path position) :=
    extends_of_not_vacant user notVacant
  rw [ran] at grown
  refine ⟨?_, found, fun made position vacant => ?_, fun notVacant => ⟨?_, ?_⟩⟩
  · by_cases isVacant : ∃ made position, IsVacant tree made path position
    · obtain ⟨made, position, vacant⟩ := isVacant
      rw [(written vacant).1]
      exact (extends_put vacant file).kept
    · simp only [not_exists] at isVacant
      exact (grown isVacant).kept
  · obtain ⟨left, loaded⟩ := written vacant
    refine ⟨left, ?_, loaded ▸ load_file_fails_iff vacant⟩
    obtain ⟨directory, name, isFree, rfl⟩ := vacant.isFree
    rw [left]
    exact FileTree.find_put isFree (Option.some_ne_none _).symm vacant.isFile file
  · refine (grown notVacant).mono fun position node added => ?_
    exact added.elim (fun above => .inl above.1) And.right
  · intro closed noRise node found
    rcases FileTree.find_of_extends closed (grown notVacant) noRise found with
      old | ⟨-, elsewhere⟩ | beside
    · exact .inl old
    · exact absurd rfl (elsewhere noRise)
    · exact .inr beside

/-- In an empty directory the refused path `noext` is left with a starter file, and the path
`c.toml/`, at which no file can be made, with nothing. -/
theorem refused_path_keeps_starter :
    (∃ fault later,
      (Stored.loadOrStartFor none ⟨"noext"⟩).run (.withDirectory "home") = (.error fault, later) ∧
        (FileTree.withDirectory "home").pathExists ⟨"noext"⟩ = false ∧
        later.find ⟨"noext"⟩ = .ok file) ∧
      ∃ outcome later,
        (Stored.loadOrStartFor none ⟨"c.toml/"⟩).run (.withDirectory "home") = (outcome, later) ∧
          ∀ node, later.find ⟨"c.toml/"⟩ ≠ .ok node := by
  constructor
  · have vacant : IsVacant (.withDirectory "home") (.withDirectory "home") ⟨"noext"⟩
        ["home", "noext"] := by
      refine ⟨by decide +kernel, fun parent inside => ?_,
        ⟨["home"], "noext", by decide +kernel, rfl⟩, by decide +kernel⟩
      have here : (⟨"noext"⟩ : Path).parent? = some ⟨""⟩ := by decide +kernel
      cases here.symm.trans inside
      rfl
    rcases ran : (Stored.loadOrStartFor none ⟨"noext"⟩).run (.withDirectory "home") with
      ⟨outcome, later⟩
    obtain ⟨-, -, left, -⟩ := start_leaves ran
    obtain ⟨-, starter, fails⟩ := left _ _ vacant
    obtain ⟨fault, rfl⟩ := fails.mpr (by decide +kernel)
    exact ⟨fault, later, rfl, vacant.missing, starter⟩
  · rcases ran : (Stored.loadOrStartFor none ⟨"c.toml/"⟩).run (.withDirectory "home") with
      ⟨outcome, later⟩
    obtain ⟨-, -, -, otherwise⟩ := start_leaves ran
    have asks : FileTree.asksForDirectory ⟨"c.toml/"⟩ = true := by decide +kernel
    obtain ⟨-, nothing⟩ := otherwise fun made position vacant =>
      Bool.false_ne_true (vacant.isFile.symm.trans asks)
    refine ⟨outcome, later, rfl, fun node found => ?_⟩
    rcases nothing (FileTree.isClosed_withDirectory "home") (by decide +kernel) node found with
      old | ⟨isSystem, -⟩
    · have missing : (FileTree.withDirectory "home").pathExists ⟨"c.toml/"⟩ = false := by
        decide +kernel
      rw [FileTree.pathExists, old] at missing
      cases missing
    · exact absurd isSystem (by decide +kernel)

end DiskWarden.Config.Starter
