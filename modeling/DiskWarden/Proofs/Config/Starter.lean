import DiskWarden.Config.Store
import DiskWarden.Proofs.FileTree.Growth
import DiskWarden.Proofs.Toml.Tables

/-!
# Starter files

Where there is no configuration, a starter file is written and read.  Its text is a TOML document
with the standard settings, whatever the extension of the path says.
-/

namespace DiskWarden.Config.Starter

open Toml (IsBlock Statement)

/-! ## Lines -/

/-- A comment that fills a line. -/
def IsComment (line : List Char) : Prop :=
  line = '#' :: line.tail.dropLast ++ ['\n'] ∧ ∀ c ∈ line.tail.dropLast, Toml.isPrintable c = true

instance (line : List Char) : Decidable (IsComment line) :=
  have := List.decidableBAll (fun c => Toml.isPrintable c = true) line.tail.dropLast
  inferInstanceAs (Decidable (_ ∧ _))

/-- A line of a document, with the statement that it gives, if it gives one. -/
abbrev Line := String × List Statement

def Line.IsRead (line : Line) : Prop := IsBlock line.1.toList line.2

theorem isRead_blank : Line.IsRead ("\n", []) := by
  have feed : "\n".toList = ['\n'] := by decide
  rw [Line.IsRead, feed]
  exact Toml.isBlock_blank

theorem isRead_comment {text : String} {chars : List Char} (same : text.toList = chars)
    (isComment : IsComment chars) : Line.IsRead (text, []) := by
  rw [Line.IsRead, same, isComment.1]
  exact Toml.isBlock_comment isComment.2

theorem isRead_header {text : String} {path : List String}
    (same : "[" ++ Text.joinWith "." (path.map Toml.keyText) ++ "]\n" = text)
    (some' : path ≠ []) (short : path.length < Toml.keyPathLimit) :
    Line.IsRead (text, [.header path]) :=
  same ▸ Toml.isBlock_header some' short

theorem isRead_assignment {text key : String} {value : Toml}
    (same : Toml.keyText key ++ " = " ++ value.inline ++ "\n" = text) (leaf : value.IsLeaf) :
    Line.IsRead (text, [.assignment [key] value]) :=
  same ▸ Toml.isBlock_inline key leaf

theorem isBlock_join {lines : List Line} (read : ∀ line ∈ lines, line.IsRead) :
    IsBlock (String.join (lines.map Prod.fst)).toList (lines.flatMap Prod.snd) := by
  rw [String.toList_join]
  induction lines with
  | nil => exact Toml.isBlock_nil
  | cons line lines inductionHypothesis =>
      obtain ⟨first, later⟩ := List.forall_mem_cons.mp read
      exact first.append (inductionHypothesis later)

/-! ## The text of a starter file -/

/-- The lines of a starter file with the standard path of the socket. -/
def lines : List Line :=
  [("# Auto-generated diskenc configuration bootstrap.\n", []),
    ("\n", []),
    ("[agent]\n", [.header ["agent"]]),
    ("# Unix socket the daemon bridge writes notifications and password requests to.\n", []),
    ("socket_path = \"/run/diskenc/agent.sock\"\n",
      [.assignment ["socket_path"] (.text standardSocket)]),
    ("# Ask on the terminal before honouring reboot offers; false always answers \"later\".\n", []),
    ("interactive = true\n", [.assignment ["interactive"] (.bool true)]),
    ("\n", []),
    ("[tpm]\n", [.header ["tpm"]]),
    ("# Helper invoked as `<helper> <device>`; the PIN (or nothing) arrives on stdin,\n", []),
    ("# the unsealed passphrase is expected on stdout.\n", []),
    ("helper_path = \"/usr/libexec/diskenc/tpm-unseal\"\n",
      [.assignment ["helper_path"] (.text "/usr/libexec/diskenc/tpm-unseal")]),
    ("timeout_secs = 10\n", [.assignment ["timeout_secs"] (.integer 10)]),
    ("\n", []),
    ("[session]\n", [.header ["session"]]),
    ("reboot_command = [\"systemctl\", \"reboot\"]\n",
      [.assignment ["reboot_command"] (.array [.text "systemctl", .text "reboot"])]),
    ("\n", []),
    ("[registry]\n", [.header ["registry"]]),
    ("# Progress arriving this soon after a job finished is treated as a late duplicate.\n", []),
    ("stale_window_ms = 3000\n", [.assignment ["stale_window_ms"] (.integer 3000)]),
    ("\n", []),
    ("[devices]\n", [.header ["devices"]]),
    ("# Accepts `password`, `tpm-pin`, `tpm`, or the daemon's integer code.\n", []),
    ("# default_key_type = \"password\"\n", []),
    ("\n", []),
    ("[devices.key_types]\n", [.header ["devices", "key_types"]]),
    ("# \"/dev/sda1\" = \"tpm-pin\"\n", [])]

theorem template_eq_join : template standardSocket = String.join (lines.map Prod.fst) := by
  decide +kernel

theorem isRead_of_mem_lines : ∀ line ∈ lines, line.IsRead := by
  have command : ∀ item ∈ [Toml.text "systemctl", .text "reboot"], item.IsSimple := by
    simp [Toml.IsSimple.text]
  simp only [lines, List.forall_mem_cons]
  refine ⟨isRead_comment String.toList_ofList (by decide), isRead_blank,
    isRead_header (by decide +kernel) (by decide) (by decide),
    isRead_comment String.toList_ofList (by decide),
    isRead_assignment (by decide +kernel) (.simple (.text _)),
    isRead_comment String.toList_ofList (by decide),
    isRead_assignment (by decide +kernel) (.simple (.bool _)), isRead_blank,
    isRead_header (by decide +kernel) (by decide) (by decide),
    isRead_comment String.toList_ofList (by decide),
    isRead_comment String.toList_ofList (by decide),
    isRead_assignment (by decide +kernel) (.simple (.text _)),
    isRead_assignment (by decide +kernel) (.simple (.integer (by decide))), isRead_blank,
    isRead_header (by decide +kernel) (by decide) (by decide),
    isRead_assignment (by decide +kernel) (.array command), isRead_blank,
    isRead_header (by decide +kernel) (by decide) (by decide),
    isRead_comment String.toList_ofList (by decide),
    isRead_assignment (by decide +kernel) (.simple (.integer (by decide))), isRead_blank,
    isRead_header (by decide +kernel) (by decide) (by decide),
    isRead_comment String.toList_ofList (by decide),
    isRead_comment String.toList_ofList (by decide), isRead_blank,
    isRead_header (by decide +kernel) (by decide) (by decide),
    isRead_comment String.toList_ofList (by decide), nofun⟩

/-- As a TOML document a starter file gives the standard settings. -/
theorem ofText?_template : TomlForm.ofText? (template standardSocket) = some Config.standard := by
  have noMark : (template standardSocket).toList.head? ≠ some Toml.byteOrderMark := by
    rw [template_eq_join, String.toList_join, lines, List.map_cons, List.flatMap_cons,
      String.toList_ofList]
    exact nofun
  have reads : Toml.ReadsAs (template standardSocket).toList (lines.flatMap Prod.snd) := by
    rw [template_eq_join]
    exact (isBlock_join isRead_of_mem_lines).readsAs
  rw [TomlForm.ofText?, Toml.ofText?_of_readsAs reads noMark]
  decide +kernel

/-- A starter file is no YAML document: behind the list that its first header is read as, more
follows. -/
theorem yaml_ofText?_template : YamlForm.ofText? (template standardSocket) = none := by
  unfold YamlForm.ofText? Yaml.Document.ofText? Yaml.Token.ofText? template standardSocket
  simp only [String.toList_append, String.reduceToList]
  decide +kernel

/-- What a starter file is read as, by the format that the extension of its path tells. -/
theorem read_template (format : Format) :
    format.read (template standardSocket) =
      if format = .toml then .ok Config.standard else .error .yaml := by
  cases format with
  | toml => rw [Format.read, ofText?_template, if_pos rfl]
  | yaml => rw [Format.read, yaml_ofText?_template, if_neg nofun]

/-! ## Starting where nothing is -/

/-- Nothing lies at a path, and once the directory is made that the path lies in, its last name
is free there. -/
structure IsVacant (tree made : FileTree) (path : Path) (position : Position) : Prop where
  missing : tree.pathExists path = false
  directoriesMade : ∀ parent, path.parent? = some parent →
    (FileTree.makeDirectories parent).run.run tree = (.ok (), made)
  isFree : ∃ directory name, made.locate path = .ok (.free directory name) ∧
    directory ++ [name] = position
  isFile : FileTree.asksForDirectory path = false

variable {tree made : FileTree} {path : Path} {position : Position} {format : Format}

/-- The file that is written at a vacant path. -/
def file : FileNode := .file mode (Text.encode (template standardSocket))

theorem writeFor_of_parent {parent : Path} (inside : path.parent? = some parent)
    (socketPath : String) (mode : Nat) :
    writeFor socketPath mode path = FileTree.makeDirectories parent >>= fun _ =>
      createUnlessThere path mode (Text.encode (template socketPath)) := by
  rw [writeFor, inside]

theorem createUnlessThere_of_created {mode : Nat} {octets : Text.Octets}
    (created : (FileTree.createFile path mode octets).run.run tree = (.ok (), made)) :
    (createUnlessThere path mode octets).run.run tree = (.ok (), made) := by
  rw [createUnlessThere, FileTree.run_tryCatch, created]

theorem run_write (vacant : IsVacant tree made path position) :
    (write path).run.run tree = (.ok (), made.put position file) := by
  obtain ⟨directory, name, isFree, rfl⟩ := vacant.isFree
  obtain ⟨parent, inside⟩ := FileTree.exists_parent_of_locate isFree
  have created : (FileTree.createFile path mode (Text.encode (template standardSocket))).run.run
      made = (.ok (), made.put (directory ++ [name]) file) :=
    FileTree.createFile_eq_ok_iff.mpr ⟨directory, name, isFree, vacant.isFile, rfl⟩
  have madeDirectories := vacant.directoriesMade parent inside
  rw [write, writeFor_of_parent inside, FileTree.run_bind, madeDirectories]
  exact createUnlessThere_of_created created

/-- What is loaded from a starter file. -/
def outcome (path : Path) (format : Format) : Except Fault Stored :=
  if format = .toml then .ok ⟨.standard, path, format⟩ else .error .yaml

theorem load_file (vacant : IsVacant tree made path position)
    (accepted : Format.ofPath path = .ok format) :
    Stored.load (made.put position file) path = outcome path format := by
  have text : (made.put position file).readText path = .ok (template standardSocket) := by
    obtain ⟨directory, name, isFree, rfl⟩ := vacant.isFree
    exact FileTree.readText_put isFree nofun vacant.isFile mode (template standardSocket)
  have read := read_template format
  unfold Stored.load
  rw [accepted]
  simp only [bind, Except.bind, text, read, outcome]
  by_cases isToml : format = .toml
  · simp only [if_pos isToml]
    rfl
  · simp only [if_neg isToml]

theorem run_startWith (write : FileAction Unit)
    (otherwise : String → StateM FileTree (Except Fault Stored)) (path : Path)
    (tree : FileTree) :
    (Stored.startWith write otherwise path).run tree =
      if tree.pathExists path then (Stored.load tree path, tree)
      else
        match write.run.run tree with
        | (.ok (), later) => (Stored.load later path, later)
        | (.error reason, later) => (otherwise reason).run later := by
  change ((if tree.pathExists path = true then _ else write.run >>= _ : StateM FileTree _).run
    tree) = _
  split
  · rfl
  · rw [StateT.run_bind]
    change (match write.run.run tree with | (result, later) => _) = _
    rcases write.run.run tree with ⟨_ | ⟨⟩, later⟩
    · rfl
    · rfl

theorem loadOrStart_of_exists (present : tree.pathExists path = true) :
    (Stored.loadOrStart path).run tree = (Stored.load tree path, tree) := by
  rw [Stored.loadOrStart, Stored.loadOrStartFor, run_startWith, if_pos present]

theorem loadOrStart_of_write (missing : tree.pathExists path = false) {later : FileTree}
    (written : (write path).run.run tree = (.ok (), later)) :
    (Stored.loadOrStart path).run tree = (Stored.load later path, later) := by
  rw [Stored.loadOrStart, Stored.loadOrStartFor, run_startWith,
    if_neg (Bool.eq_false_iff.mp missing), written]

/-- Where nothing is, a starter file is written, and it is loaded; the next start finds it, loads
the same and changes nothing.  The file is a TOML document whatever its path says, so that its
settings, which are the standard ones, are got under a path for TOML only. -/
theorem loadOrStart_vacant (vacant : IsVacant tree made path position)
    (accepted : Format.ofPath path = .ok format) :
    ∃ outcome, (Stored.loadOrStart path).run tree = (outcome, made.put position file) ∧
      (Stored.loadOrStart path).run (made.put position file) =
        (outcome, made.put position file) ∧
      (outcome = .ok ⟨.standard, path, format⟩ ↔ format = .toml) ∧
      (format = .yaml → outcome = .error .yaml) := by
  refine ⟨outcome path format, ?_, ?_, ?_, ?_⟩
  · rw [loadOrStart_of_write vacant.missing (run_write vacant),
      load_file vacant accepted]
  · have present : (made.put position file).pathExists path = true := by
      obtain ⟨directory, name, isFree, rfl⟩ := vacant.isFree
      have found : (made.put (directory ++ [name]) file).find path = .ok file :=
        FileTree.find_put isFree nofun vacant.isFile file
      rw [FileTree.pathExists, found]
      rfl
    rw [loadOrStart_of_exists present, load_file vacant accepted]
  · unfold outcome
    by_cases isToml : format = .toml
    · simp [isToml]
    · simp [isToml]
  · rintro rfl
    exact if_neg nofun

/-- In an empty directory `c.yaml` is started with a file that no start can load. -/
theorem yaml_starter_fails :
    IsVacant (.withDirectory "home") (.withDirectory "home") ⟨"c.yaml"⟩ ["home", "c.yaml"] ∧
      Format.ofPath ⟨"c.yaml"⟩ = .ok .yaml ∧
      ((Stored.loadOrStart ⟨"c.yaml"⟩).run (.withDirectory "home")).1 = .error .yaml := by
  have vacant : IsVacant (.withDirectory "home") (.withDirectory "home") ⟨"c.yaml"⟩
      ["home", "c.yaml"] := by
    refine ⟨by decide +kernel, fun parent inside => ?_, ⟨["home"], "c.yaml", by decide +kernel, rfl⟩,
      by decide +kernel⟩
    have here : (⟨"c.yaml"⟩ : Path).parent? = some ⟨""⟩ := by decide +kernel
    cases here.symm.trans inside
    rfl
  have accepted : Format.ofPath ⟨"c.yaml"⟩ = .ok .yaml := by decide +kernel
  obtain ⟨outcome, first, -, -, fails⟩ := loadOrStart_vacant vacant accepted
  refine ⟨vacant, accepted, ?_⟩
  rw [first]
  exact fails rfl

end DiskWarden.Config.Starter
