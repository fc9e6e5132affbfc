import DiskWarden.Config.TomlForm
import DiskWarden.Config.YamlForm
import DiskWarden.Proofs.Yaml.Meaning

/-!
# Configurations as documents

What a configuration is written as in either format, as a tree of values, is read back as the
configuration.  Each section lists its members under their names, so no default stands in for one
of them.
-/

namespace DiskWarden

/-! ## Tables -/

namespace SortedTable

variable {ν : Type}

theorem ext_entries {first second : SortedTable ν} (same : first.entries = second.entries) :
    first = second := by
  cases first
  cases second
  cases same
  rfl

theorem putEntry_of_last {key : String} {entries : List (String × ν)}
    (last : ∀ entry ∈ entries, entry.1 < key) (value : ν) :
    putEntry key value entries = entries ++ [(key, value)] := by
  induction entries with
  | nil => rfl
  | cons entry rest inductionHypothesis =>
      obtain ⟨k, old⟩ := entry
      obtain ⟨less, later⟩ := List.forall_mem_cons.mp last
      have notLess : ¬ key < k := fun greater =>
        String.lt_irrefl k (String.lt_trans less greater)
      have differs : key ≠ k := fun same => notLess (same ▸ same ▸ less)
      rw [putEntry, if_neg notLess, if_neg differs, inductionHypothesis later]
      rfl

/-- Sorted entries make the table that has them. -/
theorem ofList_entries (table : SortedTable ν) : ofList table.entries = table := by
  have fold : ∀ (later : List (String × ν)) (front : SortedTable ν),
      (front.entries ++ later).Pairwise (fun first second => first.1 < second.1) →
      (later.foldl (fun table entry => table.put entry.1 entry.2) front).entries =
        front.entries ++ later := by
    intro later
    induction later with
    | nil => exact fun front _ => (List.append_nil _).symm
    | cons entry later inductionHypothesis =>
        intro front sorted
        have last : ∀ old ∈ front.entries, old.1 < entry.1 := fun old member =>
          (List.pairwise_append.mp sorted).2.2 old member entry List.mem_cons_self
        have entries_put : (front.put entry.1 entry.2).entries = front.entries ++ [entry] :=
          putEntry_of_last last entry.2
        rw [List.foldl_cons, inductionHypothesis, entries_put, List.append_assoc]
        · rfl
        · rw [entries_put, List.append_assoc]
          exact sorted
  exact ext_entries (fold table.entries empty table.sorted)

end SortedTable

/-- Values that are written one by one are read back one by one. -/
theorem mapM_map_of_reads {α β : Type} {read : β → Option α} {write : α → β} {values : List α}
    (reads : ∀ value ∈ values, read (write value) = some value) :
    (values.map write).mapM read = some values := by
  induction values with
  | nil => rfl
  | cons value values inductionHypothesis =>
      obtain ⟨first, later⟩ := List.forall_mem_cons.mp reads
      rw [List.map_cons, List.mapM_cons, first, inductionHypothesis later]
      rfl

namespace Config

/-! ## Sections in any format -/

namespace Form

variable {ν : Type} {form : Form ν} {config : Config} {value : ν}

theorem agent?_of_members {agent : Agent} {socketPath interactive : ν}
    (members : form.members? ["socket_path", "interactive"] value =
      some [some socketPath, some interactive])
    (path : form.text? socketPath = some agent.socketPath)
    (flag : form.flag? interactive = some agent.interactive) :
    form.agent? value = some agent := by
  simp only [agent?, members, member, path, flag, Option.bind_eq_bind, Option.bind_some]

theorem tpm?_of_members {tpm : Tpm} {helperPath timeout : ν}
    (members : form.members? ["helper_path", "timeout_secs"] value =
      some [some helperPath, some timeout])
    (path : form.text? helperPath = some tpm.helperPath)
    (seconds : form.number? timeout = some tpm.timeoutSeconds) :
    form.tpm? value = some tpm := by
  simp only [tpm?, members, member, path, seconds, Option.bind_eq_bind, Option.bind_some]

theorem session?_of_members {session : Session} {command : ν} {words : List ν}
    (members : form.members? ["reboot_command"] value = some [some command])
    (items : form.items? command = some words)
    (texts : words.mapM form.text? = some session.rebootCommand) :
    form.session? value = some session := by
  simp only [session?, members, member, texts?, items, texts, Option.bind_eq_bind,
    Option.bind_some]

theorem jobs?_of_members {jobs : Jobs} {window : ν}
    (members : form.members? ["stale_window_ms"] value = some [some window])
    (milliseconds : form.number? window = some jobs.staleWindow) :
    form.jobs? value = some jobs := by
  simp only [jobs?, members, member, milliseconds, Option.bind_eq_bind, Option.bind_some]

theorem keyTypes?_of_entries {table : SortedTable KeyTypeSetting} {ofSetting : KeyTypeSetting → ν}
    (entries : form.entries? value =
      some (table.entries.map fun entry => (entry.1, ofSetting entry.2)))
    (settings : ∀ setting, form.setting? (ofSetting setting) = some setting) :
    form.keyTypes? value = some table := by
  have read : (table.entries.map fun entry => (entry.1, ofSetting entry.2)).mapM
      (fun entry => do some (entry.1, ← form.setting? entry.2)) = some table.entries := by
    refine mapM_map_of_reads fun entry _ => ?_
    rw [settings]
    rfl
  rw [keyTypes?, entries, Option.bind_eq_bind, Option.bind_some, read, Option.bind_eq_bind,
    Option.bind_some, SortedTable.ofList_entries]

theorem devices?_of_members {devices : Devices} {default : Option ν} {keyTypes : ν}
    (members : form.members? ["default_key_type", "key_types"] value =
      some [default, some keyTypes])
    (setting : member form.optionalSetting? none default = some devices.default)
    (table : form.keyTypes? keyTypes = some devices.keyTypes) :
    form.devices? value = some devices := by
  have present : member form.keyTypes? .empty (some keyTypes) = some devices.keyTypes := table
  simp only [devices?, members, setting, present, Option.bind_eq_bind, Option.bind_some]

theorem config?_of_members {agent tpm session jobs devices : ν}
    (members : form.members? ["agent", "tpm", "session", "registry", "devices"] value =
      some [some agent, some tpm, some session, some jobs, some devices])
    (agentRead : form.agent? agent = some config.agent) (tpmRead : form.tpm? tpm = some config.tpm)
    (sessionRead : form.session? session = some config.session)
    (jobsRead : form.jobs? jobs = some config.jobs)
    (devicesRead : form.devices? devices = some config.devices) :
    form.config? value = some config := by
  simp only [config?, members, member, agentRead, tpmRead, sessionRead, jobsRead, devicesRead,
    Option.bind_eq_bind, Option.bind_some]

end Form

/-! ## TOML -/

namespace TomlForm

theorem setting?_ofSetting (setting : KeyTypeSetting) :
    setting? (ofSetting setting) = some setting := by
  cases setting with
  | code code => rw [ofSetting, setting?, Code.ofInt?_eq_some_iff.mpr rfl, Option.map_some]
  | name name => rw [ofSetting, setting?, KeyTypeName.ofText?_text, Option.map_some]

theorem number?_ofNumber (value : UInt64) : number? (ofNumber value) = some value := by
  have same : value.toNat.toUInt64 = value := UInt64.ofNat_toNat
  exact congrArg some same

/-- A setting for all other devices is left out if there is none, and none stands in for it. -/
theorem config?_document (config : Config) : form.config? (document config) = some config := by
  obtain ⟨agent, tpm, session, jobs, ⟨default, keyTypes⟩⟩ := config
  refine Form.config?_of_members rfl (Form.agent?_of_members rfl rfl rfl)
    (Form.tpm?_of_members rfl rfl (number?_ofNumber _))
    (Form.session?_of_members rfl rfl (mapM_map_of_reads fun _ _ => rfl))
    (Form.jobs?_of_members rfl (number?_ofNumber _)) ?_
  have table : form.keyTypes? (.table (keyTypes.entries.map fun entry =>
      (entry.1, ofSetting entry.2))) = some keyTypes :=
    Form.keyTypes?_of_entries rfl setting?_ofSetting
  cases default with
  | none => exact Form.devices?_of_members rfl rfl table
  | some setting =>
      refine Form.devices?_of_members rfl ?_ table
      have read : form.setting? (ofSetting setting) = some setting := setting?_ofSetting setting
      change (form.setting? (ofSetting setting)).bind (fun setting => some (some setting)) = _
      rw [read, Option.bind_some]

end TomlForm

/-! ## YAML -/

namespace YamlForm

open Yaml (Node Document Style Meaning Tag)

variable (document : Document)

theorem entries?_mapping (entries : List (String × Node)) :
    entries? document (mapping entries) = some entries :=
  mapM_map_of_reads fun _ _ => rfl

theorem members?_mapping {entries : List (String × Node)} {names : List String} :
    members? document names (mapping entries) = names.mapM (member? entries) := by
  rw [members?, entries?_mapping, Option.bind_eq_bind, Option.bind_some]

theorem flag?_ofFlag (value : Bool) : flag? document (ofFlag value) = some value := by
  cases value with
  | false => rfl
  | true => rfl

theorem number?_ofNumber (value : UInt64) : number? document (ofNumber value) = some value := by
  have digits : (toString value.toNat).toList = Nat.toDigits 10 value.toNat := Nat.toList_repr
  have small : value.toNat < UInt64.size := value.toNat_lt_size
  change (Yaml.natural? (toString value.toNat).toList).bind (fun n =>
    if n < UInt64.size then some n.toUInt64 else none) = some value
  rw [digits, Yaml.natural?_toDigits, Option.bind_some, if_pos small]
  exact congrArg some UInt64.ofNat_toNat

theorem meaning_text (code : Code) : Yaml.meaning code.text = .integer code.value := by
  have lower : -(Yaml.signedLimit : Int) ≤ code.value := by
    have := code.lower
    unfold Yaml.signedLimit
    omega
  have upper : code.value < (Yaml.unsignedLimit : Int) := by
    have := code.upper
    unfold Yaml.unsignedLimit Yaml.signedLimit
    omega
  exact Yaml.meaning_of_integer? (Yaml.integer?_toString lower upper)

theorem setting?_ofSetting (setting : KeyTypeSetting) :
    setting? document (ofSetting setting) = some setting := by
  cases setting with
  | code code =>
      have meant : meaning? none .plain code.text = some (.integer code.value) :=
        congrArg some (meaning_text code)
      simp only [ofSetting, plain, setting?, Document.resolve, meant]
      rw [Code.ofInt?_eq_some_iff.mpr rfl, Option.map_some]
  | name name => cases name <;> rfl

/-- No setting is read as nothing. -/
theorem isNothing?_ofSetting (setting : KeyTypeSetting) :
    isNothing? document (ofSetting setting) = some false := by
  cases setting with
  | code code =>
      have meant := meaning_text code
      unfold Yaml.meaning at meant
      split at meant
      · cases meant
      · next something =>
          exact congrArg some (Bool.eq_false_iff.mpr something)
  | name name => cases name <;> rfl

theorem config?_root (config : Config) :
    (form document).config? (root config) = some config := by
  obtain ⟨agent, tpm, session, jobs, ⟨default, keyTypes⟩⟩ := config
  refine Form.config?_of_members (members?_mapping document)
    (Form.agent?_of_members (members?_mapping document) rfl (flag?_ofFlag document _))
    (Form.tpm?_of_members (members?_mapping document) rfl (number?_ofNumber document _))
    (Form.session?_of_members (members?_mapping document) rfl (mapM_map_of_reads fun _ _ => rfl))
    (Form.jobs?_of_members (members?_mapping document) (number?_ofNumber document _)) ?_
  have table : (form document).keyTypes? (mapping (keyTypes.entries.map fun entry =>
      (entry.1, ofSetting entry.2))) = some keyTypes :=
    Form.keyTypes?_of_entries (entries?_mapping document _) (setting?_ofSetting document)
  refine Form.devices?_of_members (members?_mapping document) ?_ table
  cases default with
  | none => rfl
  | some setting =>
      have nothing : (form document).isNothing? (ofSetting setting) = some false :=
        isNothing?_ofSetting document setting
      have read : (form document).setting? (ofSetting setting) = some setting :=
        setting?_ofSetting document setting
      change (form document).optionalSetting? (ofSetting setting) = some (some setting)
      simp only [Form.optionalSetting?, nothing, read, Option.bind_eq_bind, Option.bind_some,
        Bool.false_eq_true, if_false]

end YamlForm

end Config

end DiskWarden
