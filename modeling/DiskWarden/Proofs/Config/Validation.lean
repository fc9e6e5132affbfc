import DiskWarden.Config.Basic
import DiskWarden.Proofs.Acquisition.Calls
import DiskWarden.Proofs.Text.Digits
import DiskWarden.Proofs.Text.Trimming
import Mathlib.Data.List.Nodup

/-!
# Validation and use

Validation and use look at a configuration apart from each other: what is reported as an issue is
decided here, and what a device is unlocked by, or the machine rebooted by, is decided where that is
done.  Both agree.  A configuration without issues has a flow for each device that anything is
configured for and a program for a reboot, and what would fail is among the issues.  Each rule that
is broken is reported once.
-/

namespace DiskWarden

/-! ## Entries of a table -/

namespace SortedTable

variable {ν : Type}

/-- The keys are in order, so a table has one entry for each of them. -/
theorem nodup_keys (table : SortedTable ν) : (table.entries.map Prod.fst).Nodup := by
  refine List.pairwise_map.mpr (table.sorted.imp fun less same => ?_)
  exact String.lt_irrefl _ (same ▸ less)

theorem get?_eq_some_iff (table : SortedTable ν) (key : String) (value : ν) :
    table.get? key = some value ↔ (key, value) ∈ table.entries := by
  constructor
  · intro found
    obtain ⟨before, after, entries_eq, -⟩ := List.lookup_eq_some_iff.mp found
    rw [entries_eq]
    exact List.mem_append_right before List.mem_cons_self
  · intro member
    obtain ⟨before, after, entries_eq⟩ := List.append_of_mem member
    have distinct := table.nodup_keys
    rw [entries_eq, List.map_append, List.map_cons] at distinct
    refine List.lookup_eq_some_iff.mpr ⟨before, after, entries_eq, fun entry earlier => ?_⟩
    have differs := (List.nodup_append.mp distinct).2.2 entry.1 (List.mem_map_of_mem earlier)
      key List.mem_cons_self
    exact bne_iff_ne.mpr differs.symm

end SortedTable

/-! ## Texts of codes -/

namespace Code

theorem toList_text (code : Code) :
    code.text.toList =
      (if code.value < 0 then ['-'] else []) ++ Nat.toDigits 10 code.value.natAbs := by
  unfold text
  cases code.value with
  | ofNat n => exact Text.toList_toString_ofNat n
  | negSucc n =>
      rw [if_pos (Int.negSucc_lt_zero n)]
      exact Text.toList_toString_negSucc n

theorem text_ne_empty (code : Code) : code.text ≠ "" := by
  intro empty
  have letters := code.toList_text
  rw [empty] at letters
  exact Nat.toDigits_ne_nil (List.append_eq_nil_iff.mp letters.symm).2

theorem isDigit_or_minus {code : Code} {c : Char} (member : c ∈ code.text.toList) :
    c.isDigit = true ∨ c = '-' := by
  rw [toList_text, List.mem_append] at member
  rcases member with sign | digit
  · split at sign
    · exact .inr (List.mem_singleton.mp sign)
    · cases sign
  · exact .inl (Text.isDigit_of_mem_toDigits digit)

theorem minus_mem_text_iff (code : Code) : '-' ∈ code.text.toList ↔ code.value < 0 := by
  have noMinus : '-' ∉ Nat.toDigits 10 code.value.natAbs := fun member =>
    absurd (Text.isDigit_of_mem_toDigits member) (by decide)
  rw [toList_text]
  split <;> simp_all

theorem text_inj {first second : Code} (same : first.text = second.text) : first = second := by
  have sign_iff : first.value < 0 ↔ second.value < 0 := by
    rw [← minus_mem_text_iff, ← minus_mem_text_iff, same]
  have magnitude_eq : first.value.natAbs = second.value.natAbs := by
    have letters := congrArg String.toList same
    simp only [toList_text, sign_iff, List.append_cancel_left_eq] at letters
    have numbers := congrArg (Text.digitsValue 10) letters
    rwa [Text.digitsValue_toDigits, Text.digitsValue_toDigits] at numbers
  have value_eq : first.value = second.value := by omega
  cases first
  cases second
  cases value_eq
  rfl

end Code

/-! ## Protections without a flow -/

namespace KeyTypeSetting

variable {setting : KeyTypeSetting}

theorem unsupportedCode?_eq_some_iff (code : Code) :
    setting.unsupportedCode? = some code ↔ setting.keyType = .unsupported code := by
  unfold unsupportedCode?
  cases setting.keyType <;> simp

theorem exists_code_of_error {device : Device} {fault : Fault}
    (fails : Flow.of? device setting.keyType = .error fault) :
    ∃ code, fault = .unsupportedKeyType device code ∧ setting.keyType = .unsupported code := by
  rcases setting.keyType.exists_flow_or_unsupported with ⟨flow, flows⟩ | ⟨code, unsupported⟩
  · rw [flows, flow.of?_keyType] at fails
    cases fails
  · rw [unsupported] at fails
    cases fails
    exact ⟨code, rfl, unsupported⟩

end KeyTypeSetting

namespace Config

/-! ## Rules -/

/-- The rules for a configuration, those about an entry with its key. -/
inductive Rule
  | namedSocket
  | namedHelper
  | positiveTimeout
  | namedRebootProgram
  | supportedDefault
  | absoluteDevice (path : String)
  | supportedDevice (path : String)
deriving DecidableEq, Repr

/-- How a configuration breaks a rule, as the issue about it says. -/
inductive Violates (config : Config) : Issue → Prop
  | blankSocket (blank : Text.Trims config.agent.socketPath "") : Violates config .blankSocket
  | blankHelper (blank : Text.Trims config.tpm.helperPath "") : Violates config .blankHelper
  | zeroTimeout (zero : config.tpm.timeoutSeconds.toNat = 0) : Violates config .zeroTimeout
  | noRebootProgram
      (unnamed : ∀ program ∈ config.session.rebootCommand.head?, Text.Trims program "") :
      Violates config .noRebootProgram
  | unsupportedDefault {setting : KeyTypeSetting} {code : Code}
      (given : config.devices.default = some setting)
      (unsupported : setting.keyType = .unsupported code) :
      Violates config (.unsupportedDefault code)
  | relativeDevice {path : String} {setting : KeyTypeSetting}
      (given : config.devices.keyTypes.get? path = some setting)
      (relative : path.toList.head? ≠ some '/') : Violates config (.relativeDevice path)
  | unsupportedDevice {path : String} {setting : KeyTypeSetting} {code : Code}
      (given : config.devices.keyTypes.get? path = some setting)
      (unsupported : setting.keyType = .unsupported code) :
      Violates config (.unsupportedDevice path code)

/-- The rules for a configuration in the order in which they are looked at. -/
def rules (config : Config) : List Rule :=
  [.namedSocket, .namedHelper, .positiveTimeout, .namedRebootProgram, .supportedDefault] ++
    config.devices.keyTypes.entries.flatMap fun entry =>
      [.absoluteDevice entry.1, .supportedDevice entry.1]

theorem nodup_rules (config : Config) : config.rules.Nodup := by
  have distinct := List.pairwise_map.mp config.devices.keyTypes.nodup_keys
  refine List.nodup_append.mpr ⟨by decide, ?_, ?_⟩
  · refine List.nodup_flatMap.mpr ⟨fun entry _ => by simp, distinct.imp fun differ rule => ?_⟩
    simp only [List.mem_cons, List.not_mem_nil, or_false]
    rintro (rfl | rfl) (same | same) <;> simp_all
  · intro rule general other entryRule same
    subst same
    obtain ⟨entry, -, entryRule⟩ := List.mem_flatMap.mp entryRule
    simp only [List.mem_cons, List.not_mem_nil, or_false] at general entryRule
    rcases entryRule with rfl | rfl <;> simp at general

/-- The settings that issues are about. -/
inductive Setting
  | socketPath
  | helperPath
  | timeout
  | rebootCommand
  | defaultKeyType
  | keyTypes
deriving DecidableEq

namespace Setting

def name : Setting → String
  | socketPath => "agent.socket_path"
  | helperPath => "tpm.helper_path"
  | timeout => "tpm.timeout_secs"
  | rebootCommand => "session.reboot_command"
  | defaultKeyType => "devices.default_key_type"
  | keyTypes => "devices.key_types"

theorem eq_of_name_prefix (first second : Setting)
    (start : first.name.toList <+: second.name.toList) : first = second := by
  revert start
  cases first <;> cases second <;> decide

end Setting

namespace Issue

/-- The rule that an issue is about. -/
def rule : Issue → Rule
  | blankSocket => .namedSocket
  | blankHelper => .namedHelper
  | zeroTimeout => .positiveTimeout
  | noRebootProgram => .namedRebootProgram
  | unsupportedDefault _ => .supportedDefault
  | relativeDevice path => .absoluteDevice path
  | unsupportedDevice path _ => .supportedDevice path

/-! ## What issues say -/

/-- The name of the setting that an issue is about. -/
def setting : Issue → Setting
  | blankSocket => .socketPath
  | blankHelper => .helperPath
  | zeroTimeout => .timeout
  | noRebootProgram => .rebootCommand
  | unsupportedDefault _ => .defaultKeyType
  | relativeDevice _ => .keyTypes
  | unsupportedDevice _ _ => .keyTypes

/-- What an issue says of a setting. -/
def complaint : Issue → String
  | blankSocket => " must not be empty"
  | blankHelper => " must not be empty"
  | zeroTimeout => " must be greater than 0"
  | noRebootProgram => " must name a program"
  | unsupportedDefault code => " uses unsupported code " ++ code.text
  | relativeDevice device => " entry `" ++ device ++ "` must be an absolute device path"
  | unsupportedDevice device code => " entry `" ++ device ++ "` uses unsupported code " ++ code.text

theorem text_eq (issue : Issue) : issue.text = issue.setting.name ++ issue.complaint := by
  have default_eq : "devices.default_key_type uses unsupported code " =
      Setting.defaultKeyType.name ++ " uses unsupported code " := by decide +kernel
  have entry_eq : "devices.key_types entry `" = Setting.keyTypes.name ++ " entry `" := by
    decide +kernel
  have longer {whole name rest : String} (split : whole = name ++ rest) (tail : String) :
      whole ++ tail = name ++ (rest ++ tail) := by
    rw [split, String.append_assoc]
  cases issue with
  | unsupportedDefault code => exact longer default_eq code.text
  | relativeDevice device => exact longer (longer entry_eq device) _
  | unsupportedDevice device code => exact longer (longer (longer entry_eq device) _) code.text
  | _ => decide +kernel

/-- What is said about an entry before its code ends at the last space. -/
theorem rdropWhile_complaint (device : String) (code : Code) :
    (unsupportedDevice device code).complaint.toList.rdropWhile (· != ' ') =
      (" entry `" ++ device ++ "` uses unsupported code ").toList := by
  unfold complaint
  rw [String.toList_append]
  refine Text.rdropWhile_append (fun c member => bne_iff_ne.mpr ?_) fun c last => ?_
  · rintro rfl
    exact (Code.isDigit_or_minus member).elim (by decide) (by decide)
  · rw [String.toList_append, List.getLast?_append] at last
    cases last
    rfl

theorem complaint_ne (device other : String) (code : Code) :
    (relativeDevice device).complaint ≠ (unsupportedDevice other code).complaint := by
  intro same
  have last_h : (relativeDevice device).complaint.toList.getLast? = some 'h' := by
    unfold complaint
    rw [String.toList_append, List.getLast?_append]
    have last_h : "` must be an absolute device path".toList.getLast? = some 'h' := by
      decide +kernel
    exact congrArg (Option.or · _) last_h
  rw [same] at last_h
  unfold complaint at last_h
  rw [String.toList_append, List.getLast?_append] at last_h
  cases last : code.text.toList.getLast? with
  | none =>
      have empty := List.getLast?_eq_none_iff.mp last
      exact code.text_ne_empty (String.toList_eq_nil_iff.mp empty)
  | some c =>
      rw [last] at last_h
      cases last_h
      exact (Code.isDigit_or_minus (List.mem_of_getLast? last)).elim (by decide) (by decide)

theorem text_inj {first second : Issue} (same : first.text = second.text) : first = second := by
  rw [text_eq, text_eq] at same
  have setting_eq : first.setting = second.setting := by
    have letters := congrArg String.toList same
    rw [String.toList_append, String.toList_append] at letters
    have start := letters ▸ List.prefix_append first.setting.name.toList first.complaint.toList
    rcases List.prefix_or_prefix_of_prefix start (List.prefix_append _ _) with before | after
    · exact Setting.eq_of_name_prefix _ _ before
    · exact (Setting.eq_of_name_prefix _ _ after).symm
  rw [setting_eq, String.append_right_inj] at same
  cases first <;> cases second <;> cases setting_eq
  case unsupportedDefault.unsupportedDefault code code' =>
    unfold complaint at same
    exact congrArg unsupportedDefault (Code.text_inj ((String.append_right_inj _).mp same))
  case relativeDevice.relativeDevice device device' =>
    unfold complaint at same
    have same := (String.append_right_inj _).mp ((String.append_left_inj _).mp same)
    rw [same]
  case relativeDevice.unsupportedDevice device device' code =>
    exact absurd same (complaint_ne device device' code)
  case unsupportedDevice.relativeDevice device code device' =>
    exact absurd same.symm (complaint_ne device' device code)
  case unsupportedDevice.unsupportedDevice device code device' code' =>
    have fronts := congrArg (fun text => text.toList.rdropWhile (· != ' ')) same
    simp only [rdropWhile_complaint, String.toList_inj] at fronts
    obtain rfl := (String.append_right_inj _).mp ((String.append_left_inj _).mp fronts)
    unfold complaint at same
    exact congrArg _ (Code.text_inj ((String.append_right_inj _).mp same))
  all_goals rfl

end Issue

/-! ## Issues and rules -/

theorem rebootCommand?_eq_some_iff (config : Config) (command : RebootCommand) :
    config.rebootCommand? = some command ↔
      config.session.rebootCommand = command.program :: command.arguments ∧
        ¬ Text.Trims command.program "" := by
  rw [Text.trims_empty_iff]
  unfold rebootCommand? RebootCommand.ofWords?
  cases config.session.rebootCommand with
  | nil => simp
  | cons program arguments =>
      rw [Option.ite_none_left_eq_some, List.cons.injEq]
      constructor
      · rintro ⟨printed, ⟨⟩⟩
        exact ⟨⟨rfl, rfl⟩, printed⟩
      · rintro ⟨⟨rfl, rfl⟩, printed⟩
        exact ⟨printed, rfl⟩

theorem rebootCommand?_eq_none_iff (config : Config) :
    config.rebootCommand? = none ↔
      ∀ program ∈ config.session.rebootCommand.head?, Text.Trims program "" := by
  simp only [Text.trims_empty_iff]
  unfold rebootCommand? RebootCommand.ofWords?
  cases config.session.rebootCommand <;> simp

/-- What is wrong with the settings that stand alone. -/
def generalIssues (config : Config) : List Issue :=
  (if Text.isBlankText config.agent.socketPath then [.blankSocket] else []) ++
  (if Text.isBlankText config.tpm.helperPath then [.blankHelper] else []) ++
  (if config.tpm.timeoutSeconds = 0 then [.zeroTimeout] else []) ++
  (if config.rebootCommand?.isNone then [.noRebootProgram] else [])

def defaultIssue? (config : Config) : Option Issue :=
  (config.devices.default.bind KeyTypeSetting.unsupportedCode?).map .unsupportedDefault

theorem issues_eq (config : Config) :
    config.issues = config.generalIssues ++ (config.defaultIssue?.toList ++
      config.devices.keyTypes.entries.flatMap entryIssues) := by
  unfold issues defaultIssue?
  rw [List.append_assoc]
  cases config.devices.default.bind KeyTypeSetting.unsupportedCode? <;> rfl

theorem mem_generalIssues_iff (config : Config) (issue : Issue) :
    issue ∈ config.generalIssues ↔
      Text.Trims config.agent.socketPath "" ∧ issue = .blankSocket ∨
        Text.Trims config.tpm.helperPath "" ∧ issue = .blankHelper ∨
          config.tpm.timeoutSeconds = 0 ∧ issue = .zeroTimeout ∨
            config.rebootCommand? = none ∧ issue = .noRebootProgram := by
  simp only [generalIssues, List.mem_append, List.mem_ite_nil_right, List.mem_singleton,
    Text.trims_empty_iff, Option.isNone_iff_eq_none, or_assoc]

theorem defaultIssue?_eq_some_iff (config : Config) (issue : Issue) :
    config.defaultIssue? = some issue ↔
      ∃ setting code, config.devices.default = some setting ∧
        setting.keyType = .unsupported code ∧ issue = .unsupportedDefault code := by
  simp only [defaultIssue?, Option.map_eq_some_iff, Option.bind_eq_some_iff,
    KeyTypeSetting.unsupportedCode?_eq_some_iff]
  constructor
  · rintro ⟨code, ⟨setting, given, unsupported⟩, rfl⟩
    exact ⟨setting, code, given, unsupported, rfl⟩
  · rintro ⟨setting, code, given, unsupported, rfl⟩
    exact ⟨code, ⟨setting, given, unsupported⟩, rfl⟩

theorem mem_entryIssues_iff (path : String) (setting : KeyTypeSetting) (issue : Issue) :
    issue ∈ entryIssues (path, setting) ↔
      path.toList.head? ≠ some '/' ∧ issue = .relativeDevice path ∨
        ∃ code, setting.keyType = .unsupported code ∧ issue = .unsupportedDevice path code := by
  simp only [entryIssues, List.mem_append, List.mem_ite_nil_left, List.mem_singleton,
    ← KeyTypeSetting.unsupportedCode?_eq_some_iff]
  cases setting.unsupportedCode? <;> simp

/-- What is reported are the rules that are broken. -/
theorem mem_issues_iff (config : Config) (issue : Issue) :
    issue ∈ config.issues ↔ config.Violates issue := by
  have entry_iff := config.devices.keyTypes.get?_eq_some_iff
  simp only [issues_eq, List.mem_append, Option.mem_toList, List.mem_flatMap,
    mem_generalIssues_iff, defaultIssue?_eq_some_iff, rebootCommand?_eq_none_iff]
  constructor
  · rintro ((⟨blank, rfl⟩ | ⟨blank, rfl⟩ | ⟨zero, rfl⟩ | ⟨unnamed, rfl⟩) |
      ⟨setting, code, given, unsupported, rfl⟩ | ⟨⟨path, setting⟩, member, inEntry⟩)
    · exact .blankSocket blank
    · exact .blankHelper blank
    · exact .zeroTimeout (congrArg UInt64.toNat zero)
    · exact .noRebootProgram unnamed
    · exact .unsupportedDefault given unsupported
    · have given := (entry_iff path setting).mpr member
      rcases (mem_entryIssues_iff path setting issue).mp inEntry with
        ⟨relative, rfl⟩ | ⟨code, unsupported, rfl⟩
      · exact .relativeDevice given relative
      · exact .unsupportedDevice given unsupported
  · intro violates
    cases violates with
    | blankSocket blank => exact .inl (.inl ⟨blank, rfl⟩)
    | blankHelper blank => exact .inl (.inr (.inl ⟨blank, rfl⟩))
    | zeroTimeout zero => exact .inl (.inr (.inr (.inl ⟨UInt64.toNat_inj.mp zero, rfl⟩)))
    | noRebootProgram unnamed => exact .inl (.inr (.inr (.inr ⟨unnamed, rfl⟩)))
    | unsupportedDefault given unsupported => exact .inr (.inl ⟨_, _, given, unsupported, rfl⟩)
    | relativeDevice given relative =>
        refine .inr (.inr ⟨_, (entry_iff _ _).mp given, ?_⟩)
        exact (mem_entryIssues_iff _ _ _).mpr (.inl ⟨relative, rfl⟩)
    | unsupportedDevice given unsupported =>
        refine .inr (.inr ⟨_, (entry_iff _ _).mp given, ?_⟩)
        exact (mem_entryIssues_iff _ _ _).mpr (.inr ⟨_, unsupported, rfl⟩)

theorem sublist_rules (config : Config) : (config.issues.map Issue.rule).Sublist config.rules := by
  have one (condition : Prop) [Decidable condition] (issue : Issue) :
      ((if condition then [issue] else []).map Issue.rule).Sublist [issue.rule] := by
    split
    · exact .refl _
    · exact List.nil_sublist _
  have entryRules (entry : String × KeyTypeSetting) : ((entryIssues entry).map Issue.rule).Sublist
      [.absoluteDevice entry.1, .supportedDevice entry.1] := by
    unfold entryIssues
    cases entry.2.unsupportedCode? <;> split <;> simp [Issue.rule]
  have rules_eq : config.rules =
      [.namedSocket, .namedHelper, .positiveTimeout, .namedRebootProgram] ++ ([.supportedDefault] ++
        config.devices.keyTypes.entries.flatMap fun entry =>
          [.absoluteDevice entry.1, .supportedDevice entry.1]) := rfl
  rw [issues_eq, List.map_append, List.map_append, List.map_flatMap, rules_eq]
  refine List.Sublist.append ?_ (List.Sublist.append ?_ ?_)
  · simp only [generalIssues, List.map_append]
    exact (((one _ .blankSocket).append (one _ .blankHelper)).append (one _ .zeroTimeout)).append
      (one _ .noRebootProgram)
  · unfold defaultIssue?
    cases config.devices.default.bind KeyTypeSetting.unsupportedCode? with
    | none => exact List.nil_sublist _
    | some code => exact .refl _
  · induction config.devices.keyTypes.entries with
    | nil => exact .refl _
    | cons entry rest inductionHypothesis =>
        rw [List.flatMap_cons, List.flatMap_cons]
        exact (entryRules entry).append inductionHypothesis

/-! ## What is in use -/

section Use

variable (config : Config) (device : Device)

theorem keyTypeOf_of_settingFor? {setting : KeyTypeSetting}
    (given : config.settingFor? device = some setting) :
    config.keyTypeOf device = setting.keyType := by
  rw [keyTypeOf, given]

theorem settingFor?_of_entry {setting : KeyTypeSetting}
    (own : config.devices.keyTypes.get? device.path = some setting) :
    config.settingFor? device = some setting := by
  rw [settingFor?, own, Option.some_or]

theorem settingFor?_of_no_entry (none_eq : config.devices.keyTypes.get? device.path = none) :
    config.settingFor? device = config.devices.default := by
  rw [settingFor?, none_eq, Option.none_or]

/-- A setting for a device that is not supported is reported, where it is given. -/
theorem reported_of_unsupported {setting : KeyTypeSetting} {code : Code}
    (given : config.settingFor? device = some setting)
    (unsupported : setting.keyType = .unsupported code) :
    .unsupportedDevice device.path code ∈ config.issues ∨
      .unsupportedDefault code ∈ config.issues := by
  cases own : config.devices.keyTypes.get? device.path with
  | some setting' =>
      rw [config.settingFor?_of_entry device own, Option.some_inj] at given
      subst given
      exact .inl ((config.mem_issues_iff _).mpr (.unsupportedDevice own unsupported))
  | none =>
      rw [config.settingFor?_of_no_entry device own] at given
      exact .inr ((config.mem_issues_iff _).mpr (.unsupportedDefault given unsupported))

theorem exists_flow_of_no_issues (flawless : config.issues = []) {setting : KeyTypeSetting}
    (given : config.settingFor? device = some setting) :
    ∃ flow, Flow.of? device (config.keyTypeOf device) = .ok flow := by
  rw [config.keyTypeOf_of_settingFor? device given]
  rcases setting.keyType.exists_flow_or_unsupported with ⟨flow, flows⟩ | ⟨code, unsupported⟩
  · exact ⟨flow, flows ▸ flow.of?_keyType device⟩
  · have reported := config.reported_of_unsupported device given unsupported
    rw [flawless] at reported
    exact reported.elim (fun member => nomatch member) fun member => nomatch member

theorem exists_command_of_no_issues (flawless : config.issues = []) :
    ∃ command, config.rebootCommand? = some command := by
  cases found : config.rebootCommand? with
  | some command => exact ⟨command, rfl⟩
  | none =>
      have unnamed := config.rebootCommand?_eq_none_iff.mp found
      have reported := (config.mem_issues_iff _).mpr (.noRebootProgram unnamed)
      rw [flawless] at reported
      exact nomatch reported

end Use

/-- What validation reports is what use refuses.  Each rule that a configuration breaks has one
issue, with a text of its own.  A configuration without issues has a program for a reboot and a flow
for each device but those that nothing is configured for; a setting without a flow is reported for
the entry that gives it, and so is a command without a program. -/
theorem validation_agrees_with_use (config : Config) :
    ((∀ issue, issue ∈ config.issues ↔ config.Violates issue) ∧
      (config.issues.map Issue.rule).Nodup ∧ (config.issues.map Issue.text).Nodup) ∧
    (config.issues = [] →
      (∃ command, config.rebootCommand? = some command ∧
        config.session.rebootCommand = command.program :: command.arguments ∧
        ¬ Text.Trims command.program "") ∧
      ∀ device, (∃ flow, Flow.of? device (config.keyTypeOf device) = .ok flow) ∨
        config.devices.keyTypes.get? device.path = none ∧ config.devices.default = none ∧
          config.keyTypeOf device = .unsupported ⟨-1, by decide, by decide⟩) ∧
    (∀ setting device fault, Flow.of? device setting.keyType = .error fault →
      ∃ code, fault = .unsupportedKeyType device code ∧
        (∀ path, config.devices.keyTypes.get? path = some setting →
          .unsupportedDevice path code ∈ config.issues) ∧
        (config.devices.default = some setting → .unsupportedDefault code ∈ config.issues)) ∧
    (config.rebootCommand? = none →
      .noRebootProgram ∈ config.issues ∧
        ∀ (ε σ : Type) (runner : Helper.Runner σ) (state : σ),
          (RebootCommand.request config.rebootCommand? runner : Act ε σ _) state =
            ⟨(.error (.session "no reboot command configured"), state), [], []⟩) ∧
    ∀ device setting, config.devices.keyTypes.get? device.path = some setting →
      config.keyTypeOf device = setting.keyType := by
  have rules_nodup := config.sublist_rules.nodup config.nodup_rules
  refine ⟨⟨config.mem_issues_iff, rules_nodup, ?_⟩, fun flawless => ⟨?_, ?_⟩, ?_, ?_, ?_⟩
  · exact (List.Nodup.of_map _ rules_nodup).map fun _ _ => Issue.text_inj
  · obtain ⟨command, found⟩ := config.exists_command_of_no_issues flawless
    exact ⟨command, found, (config.rebootCommand?_eq_some_iff command).mp found⟩
  · intro device
    cases given : config.settingFor? device with
    | some setting => exact .inl (config.exists_flow_of_no_issues device flawless given)
    | none =>
        obtain ⟨noEntry, noDefault⟩ := Option.or_eq_none_iff.mp given
        exact .inr ⟨noEntry, noDefault, by rw [keyTypeOf, given, KeyType.unknown]⟩
  · intro setting device fault fails
    obtain ⟨code, fault_eq, unsupported⟩ := setting.exists_code_of_error fails
    refine ⟨code, fault_eq, fun path entry => ?_, fun default => ?_⟩
    · exact (config.mem_issues_iff _).mpr (.unsupportedDevice entry unsupported)
    · exact (config.mem_issues_iff _).mpr (.unsupportedDefault default unsupported)
  · intro missing
    refine ⟨?_, fun ε σ runner state => by rw [missing]; rfl⟩
    exact (config.mem_issues_iff _).mpr
      (.noRebootProgram (config.rebootCommand?_eq_none_iff.mp missing))
  · intro device setting own
    exact config.keyTypeOf_of_settingFor? device (config.settingFor?_of_entry device own)

end Config

end DiskWarden
