import DiskWarden.Config.Store
import DiskWarden.Proofs.Config.Forms
import DiskWarden.Proofs.FileTree.Writing
import DiskWarden.Proofs.Toml.Tables

/-!
# Configurations that are saved and loaded

A configuration that has been saved is loaded again as it was.  It can be written in either
format, but for numbers that are too large for TOML; then the file stays as it is.
-/

namespace DiskWarden.Config

namespace TomlForm

open Toml (inRange integerLimit IsLeaf IsRegular IsSimple)

/-- The numbers of a configuration are in the range of TOML. -/
def Fits (config : Config) : Prop :=
  config.tpm.timeoutSeconds.toNat < integerLimit ∧ config.jobs.staleWindow.toNat < integerLimit

instance (config : Config) : Decidable (Fits config) := inferInstanceAs (Decidable (_ ∧ _))

/-! ## Which numbers fit -/

theorem inRange_code (code : Code) : inRange code.value = true := by
  have lower := code.lower
  have upper := code.upper
  rw [Toml.inRange_iff]
  unfold integerLimit
  omega

theorem inRange_number (value : UInt64) :
    inRange (value.toNat : Int) = true ↔ value.toNat < integerLimit := by
  rw [Toml.inRange_iff]
  unfold integerLimit
  omega

theorem isWritable_ofSetting (setting : KeyTypeSetting) :
    (ofSetting setting).isWritable = true := by
  cases setting with
  | code code => exact inRange_code code
  | name name => rfl

theorem haveWritable_settings (entries : List (String × KeyTypeSetting)) :
    Toml.haveWritable (entries.map fun entry => (entry.1, ofSetting entry.2)) = true := by
  induction entries with
  | nil => rfl
  | cons entry entries inductionHypothesis =>
      rw [List.map_cons, Toml.haveWritable, isWritable_ofSetting, inductionHypothesis]
      rfl

theorem areWritable_texts (texts : List String) : Toml.areWritable (texts.map .text) = true := by
  induction texts with
  | nil => rfl
  | cons text texts inductionHypothesis =>
      rw [List.map_cons, Toml.areWritable, inductionHypothesis]
      rfl

theorem isWritable_document (config : Config) :
    (document config).isWritable = true ↔ Fits config := by
  obtain ⟨agent, tpm, session, jobs, ⟨default, keyTypes⟩⟩ := config
  have commandWritable := areWritable_texts session.rebootCommand
  have tableWritable := haveWritable_settings keyTypes.entries
  have timeout := inRange_number tpm.timeoutSeconds
  have window := inRange_number jobs.staleWindow
  cases default with
  | none =>
      simp [document, Toml.isWritable, Toml.haveWritable, ofNumber, Fits, commandWritable,
        tableWritable, timeout, window]
  | some setting =>
      have settingWritable := isWritable_ofSetting setting
      simp [document, Toml.isWritable, Toml.haveWritable, ofNumber, Fits, commandWritable,
        tableWritable, settingWritable, timeout, window]

/-- Only a number that is too large keeps a configuration from being written. -/
theorem toText?_eq_none_iff (config : Config) : toText? config = none ↔ ¬ Fits config := by
  rw [← isWritable_document, toText?, Toml.pretty?]
  split
  · next writable => simp [writable]
  · next unwritable => simp [unwritable]

/-! ## The shape of the document -/

theorem isLeaf_ofSetting (setting : KeyTypeSetting) : IsLeaf (ofSetting setting) := by
  cases setting with
  | code code => exact .simple (.integer (inRange_code code))
  | name name => exact .simple (.text _)

theorem isLeaf_ofNumber {value : UInt64} (small : value.toNat < integerLimit) :
    IsLeaf (ofNumber value) :=
  .simple (.integer ((inRange_number value).mpr small))

theorem isRegular_settings (table : SortedTable KeyTypeSetting) (depth : Nat) :
    IsRegular (depth + 1) (table.entries.map fun entry => (entry.1, ofSetting entry.2)) := by
  have distinct : (table.entries.map Prod.fst).Nodup := by
    refine List.pairwise_map.mpr (table.sorted.imp fun {first second} less same => ?_)
    exact String.lt_irrefl _ (same ▸ less)
  refine IsRegular.ofLeaves ?_ fun leaf listed => ?_
  · rw [List.map_map]
    exact distinct
  · obtain ⟨entry, -, rfl⟩ := List.mem_map.mp listed
    exact isLeaf_ofSetting entry.2

theorem isLeaf_command (words : List String) : IsLeaf (.array (words.map .text)) := by
  refine .array fun item listed => ?_
  obtain ⟨word, -, rfl⟩ := List.mem_map.mp listed
  exact .text word

theorem isRegular_devices (devices : Devices) :
    IsRegular 2 ((match devices.default with
        | some setting => [("default_key_type", ofSetting setting)]
        | none => []) ++
      [("key_types", Toml.table
        (devices.keyTypes.entries.map fun entry => (entry.1, ofSetting entry.2)))]) := by
  have inner : ∀ entry ∈ [("key_types",
      devices.keyTypes.entries.map fun entry => (entry.1, ofSetting entry.2))],
      IsRegular 1 entry.2 :=
    List.forall_mem_singleton.mpr (isRegular_settings devices.keyTypes 0)
  cases devices.default with
  | none => exact .ofTables (by simp) inner
  | some setting =>
      exact .intro (by simp) (List.forall_mem_singleton.mpr (isLeaf_ofSetting setting)) inner

/-- The sections of a document that can be written. -/
theorem isRegular_document {config : Config} (fits : Fits config) :
    ∃ members, document config = .table members ∧ IsRegular 3 members := by
  have agentRegular : IsRegular 2 [("socket_path", .text config.agent.socketPath),
      ("interactive", .bool config.agent.interactive)] :=
    .ofLeaves (by simp) (by simp [IsLeaf.simple, IsSimple.text, IsSimple.bool])
  have tpmRegular : IsRegular 2 [("helper_path", .text config.tpm.helperPath),
      ("timeout_secs", ofNumber config.tpm.timeoutSeconds)] :=
    .ofLeaves (by simp) (by simp [IsLeaf.simple, IsSimple.text, isLeaf_ofNumber fits.1])
  have sessionRegular : IsRegular 2 [("reboot_command",
      .array (config.session.rebootCommand.map .text))] :=
    .ofLeaves (by simp) (List.forall_mem_singleton.mpr (isLeaf_command _))
  have jobsRegular : IsRegular 2 [("stale_window_ms", ofNumber config.jobs.staleWindow)] :=
    .ofLeaves (by simp) (List.forall_mem_singleton.mpr (isLeaf_ofNumber fits.2))
  have regular : ∀ entry ∈ [("agent", _), ("tpm", _), ("session", _), ("registry", _),
      ("devices", _)], IsRegular 2 entry.2 :=
    List.forall_mem_cons.mpr ⟨agentRegular, List.forall_mem_cons.mpr ⟨tpmRegular,
      List.forall_mem_cons.mpr ⟨sessionRegular, List.forall_mem_cons.mpr ⟨jobsRegular,
        List.forall_mem_singleton.mpr (isRegular_devices config.devices)⟩⟩⟩⟩
  exact ⟨_, rfl, .ofTables (by simp) regular⟩

/-- A configuration is read back from its TOML text. -/
theorem ofText?_of_toText? {config : Config} {text : String} (written : toText? config = some text) :
    ofText? text = some config := by
  have fits : Fits config := by
    by_contra tooLarge
    rw [(toText?_eq_none_iff config).mpr tooLarge] at written
    cases written
  obtain ⟨members, isDocument, regular⟩ := isRegular_document fits
  rw [toText?, isDocument] at written
  have shallow : 3 ≤ Toml.keyPathLimit := by decide
  rw [ofText?, Toml.ofText?_of_pretty? regular shallow written, ← isDocument, Option.bind_some,
    config?_document]

end TomlForm

/-! ## Files -/

theorem Format.write_yaml (config : Config) :
    Format.yaml.write config = .ok (YamlForm.toText config) := rfl

-- The text is put aside first: a check by computation would not come to an end on the numbers.
theorem Format.write_toml (config : Config) :
    Format.toml.write config =
      (TomlForm.toText? config).elim (.error .tomlWriting) .ok := by
  rw [Format.write.eq_def]
  generalize TomlForm.toText? config = written
  cases written with
  | none => rfl
  | some text => rfl

/-- Numbers that are too large keep a configuration from being written, and in TOML only. -/
theorem Format.write_eq_error_iff {format : Format} {config : Config} {fault : Fault} :
    format.write config = .error fault ↔
      format = .toml ∧ ¬ TomlForm.Fits config ∧ fault = .tomlWriting := by
  cases format with
  | yaml =>
      rw [Format.write_yaml]
      exact iff_of_false (fun same => by cases same) (fun isToml => by cases isToml.1)
  | toml =>
      rw [Format.write_toml, ← TomlForm.toText?_eq_none_iff]
      cases TomlForm.toText? config with
      | none => simp [eq_comm]
      | some text => simp

/-- A document that has been written is read back with the same values, if YAML gives back the
nodes that it has written. -/
theorem Format.read_of_write {format : Format} {config : Config} {text : String}
    (kept : format = .yaml → Yaml.Document.ofText? (YamlForm.root config).render =
      some ⟨YamlForm.root config, []⟩)
    (written : format.write config = .ok text) : format.read text = .ok config := by
  cases format with
  | toml =>
      rw [Format.write_toml] at written
      cases isText : TomlForm.toText? config with
      | none => simp [isText] at written
      | some text' =>
          have same : text' = text := by simpa [isText] using written
          rw [Format.read, TomlForm.ofText?_of_toText? (same ▸ isText)]
  | yaml =>
      rw [Format.write_yaml, Except.ok.injEq] at written
      rw [← written, Format.read, YamlForm.ofText?, YamlForm.toText, kept rfl, Option.bind_some,
        YamlForm.config?_root]

namespace Stored

variable {stored : Stored} {tree later : FileTree}

theorem run_save_of_error {fault : Fault}
    (failed : stored.format.write stored.config = .error fault) :
    stored.save.run.run tree = (.error fault, tree) := by
  rw [save, failed]
  rfl

theorem run_save_of_ok {text : String} (written : stored.format.write stored.config = .ok text)
    (put : (FileTree.writeFile stored.path (Text.encode text)).run.run tree = (.ok (), later)) :
    stored.save.run.run tree = (.ok (), later) := by
  have isText : (liftM (Except.ok text : Except Fault String) :
      ExceptT Fault (StateM FileTree) String) = pure text := rfl
  have lifted : (liftM (FileTree.writeFile stored.path (Text.encode text)).run :
      ExceptT Fault (StateM FileTree) (Except String Unit)).run.run tree = (.ok (.ok ()), later) := by
    change (Except.ok <$> (FileTree.writeFile stored.path (Text.encode text)).run).run tree = _
    rw [StateT.run_map, put]
    rfl
  unfold save
  rw [written, isText, pure_bind, ExceptT.run_bind, StateT.run_bind, lifted]
  rfl

/-- What is in a file is what is loaded from it. -/
theorem load_of_readText {text : String}
    (matching : Format.ofPath stored.path = .ok stored.format)
    (content : tree.readText stored.path = .ok text)
    (read : stored.format.read text = .ok stored.config) :
    load tree stored.path = .ok stored := by
  unfold load
  rw [matching]
  simp only [bind, Except.bind, content, read]
  rfl

/-- A configuration that is saved to a file is loaded from it as it was, under the format that
its path tells, if YAML gives back the nodes that it has written.  Only in TOML it may not be
saved, for its numbers, and then the file is left alone. -/
theorem save_round_trip (matching : Format.ofPath stored.path = .ok stored.format)
    (writable : tree.CanWrite stored.path)
    (kept : stored.format = .yaml →
      Yaml.Document.ofText? (YamlForm.root stored.config).render =
        some ⟨YamlForm.root stored.config, []⟩) :
    if stored.format = .toml ∧ ¬ TomlForm.Fits stored.config then
      stored.save.run.run tree = (.error .tomlWriting, tree)
    else
      ∃ later, stored.save.run.run tree = (.ok (), later) ∧
        load later stored.path = .ok stored := by
  split
  · next tooLarge =>
      exact run_save_of_error (Format.write_eq_error_iff.mpr ⟨tooLarge.1, tooLarge.2, rfl⟩)
  · next fits =>
      cases written : stored.format.write stored.config with
      | error fault =>
          obtain ⟨isToml, tooLarge, -⟩ := Format.write_eq_error_iff.mp written
          exact absurd ⟨isToml, tooLarge⟩ fits
      | ok text =>
          obtain ⟨later, put⟩ := FileTree.exists_writeFile (Text.encode text) writable
          exact ⟨later, run_save_of_ok written put,
            load_of_readText matching (FileTree.readText_of_writeFile put)
              (Format.read_of_write kept written)⟩

/-- A configuration with no setting left as it is by standard: texts that need quotes, words and
an empty text in a command, devices with names and codes, and a window of any length. -/
def ownSettings (window : UInt64) : Config where
  agent := ⟨"/run/own: \"socket\" #1", false⟩
  tpm := ⟨"C:\\unseal 'é' 🔑\n", 86400⟩
  session := ⟨["true", "", "- now"]⟩
  jobs := ⟨window⟩
  devices :=
    ⟨some (.code (.ofSmall 7)),
      ((SortedTable.empty.put "/dev/sda1" (.name .tpmPin)).put "null"
        (.code ((Code.ofInt? (-3)).getD default))).put "/dev/sdb2" (.name .password)⟩

/-- The longest window fits into YAML and not into TOML, where a shorter one is kept as well. -/
theorem own_settings_saved :
    (∃ later,
      (⟨ownSettings 18446744073709551615, ⟨"c.yaml"⟩, .yaml⟩ : Stored).save.run.run
          (.withDirectory "home") = (.ok (), later) ∧
        load later ⟨"c.yaml"⟩ =
          .ok ⟨ownSettings 18446744073709551615, ⟨"c.yaml"⟩, .yaml⟩) ∧
      (⟨ownSettings 18446744073709551615, ⟨"c.toml"⟩, .toml⟩ : Stored).save.run.run
          (.withDirectory "home") = (.error .tomlWriting, .withDirectory "home") ∧
      ∃ later,
        (⟨ownSettings 1, ⟨"c.toml"⟩, .toml⟩ : Stored).save.run.run (.withDirectory "home") =
            (.ok (), later) ∧
          load later ⟨"c.toml"⟩ = .ok ⟨ownSettings 1, ⟨"c.toml"⟩, .toml⟩ := by
  have writable (name : String) (free : (FileTree.withDirectory "home").locate ⟨name⟩ =
      .ok (.free ["home"] name)) (isFile : FileTree.asksForDirectory ⟨name⟩ = false) :
      (FileTree.withDirectory "home").CanWrite ⟨name⟩ :=
    ⟨.free ["home"] name, FileTree.defaultMode, free, rfl, isFile⟩
  have inYaml : Format.ofPath ⟨"c.yaml"⟩ = .ok .yaml := by decide +kernel
  have inToml : Format.ofPath ⟨"c.toml"⟩ = .ok .toml := by decide +kernel
  have kept : Yaml.Document.ofText? (YamlForm.root (ownSettings 18446744073709551615)).render =
      some ⟨YamlForm.root (ownSettings 18446744073709551615), []⟩ := by
    decide +kernel
  refine ⟨?_, ?_, ?_⟩
  · exact @save_round_trip ⟨_, ⟨"c.yaml"⟩, .yaml⟩ _ inYaml
      (writable "c.yaml" (by decide +kernel) (by decide +kernel)) fun _ => kept
  · exact @save_round_trip ⟨ownSettings 18446744073709551615, ⟨"c.toml"⟩, .toml⟩ _ inToml
      (writable "c.toml" (by decide +kernel) (by decide +kernel)) nofun
  · exact @save_round_trip ⟨ownSettings 1, ⟨"c.toml"⟩, .toml⟩ _ inToml
      (writable "c.toml" (by decide +kernel) (by decide +kernel)) nofun

end Stored

end DiskWarden.Config
