import DiskWarden.Config.Basic

/-!
The layout of a configuration in any format of documents: which sections there are, which
members they have, and what stands in for those that are missing.
-/

namespace DiskWarden.Config

/-- How the values of a format are taken apart. Members are asked for by their names in order,
as some formats can give them by place. -/
structure Form (ν : Type) where
  text? : ν → Option String
  flag? : ν → Option Bool
  number? : ν → Option UInt64
  items? : ν → Option (List ν)
  entries? : ν → Option (List (String × ν))
  members? : List String → ν → Option (List (Option ν))
  setting? : ν → Option KeyTypeSetting
  isNothing? : ν → Option Bool

namespace Form

variable {ν : Type}

/-- The value of a member; that of a missing one is given. -/
def member {α : Type} (read : ν → Option α) (missing : α) : Option ν → Option α
  | none => some missing
  | some value => read value

def texts? (form : Form ν) (value : ν) : Option (List String) := do
  (← form.items? value).mapM form.text?

def agent? (form : Form ν) (value : ν) : Option Agent := do
  match ← form.members? ["socket_path", "interactive"] value with
  | [socketPath, interactive] =>
      some ⟨← member form.text? Agent.standard.socketPath socketPath,
        ← member form.flag? Agent.standard.interactive interactive⟩
  | _ => none

def tpm? (form : Form ν) (value : ν) : Option Tpm := do
  match ← form.members? ["helper_path", "timeout_secs"] value with
  | [helperPath, timeout] =>
      some ⟨← member form.text? Tpm.standard.helperPath helperPath,
        ← member form.number? Tpm.standard.timeoutSeconds timeout⟩
  | _ => none

def session? (form : Form ν) (value : ν) : Option Session := do
  match ← form.members? ["reboot_command"] value with
  | [rebootCommand] =>
      some ⟨← member form.texts? Session.standard.rebootCommand rebootCommand⟩
  | _ => none

def jobs? (form : Form ν) (value : ν) : Option Jobs := do
  match ← form.members? ["stale_window_ms"] value with
  | [staleWindow] => some ⟨← member form.number? Jobs.standard.staleWindow staleWindow⟩
  | _ => none

/-- A setting that may be given as nothing. -/
def optionalSetting? (form : Form ν) (value : ν) : Option (Option KeyTypeSetting) := do
  if ← form.isNothing? value then some none else some (some (← form.setting? value))

/-- The settings of single devices. Of two for one device the later one counts. -/
def keyTypes? (form : Form ν) (value : ν) : Option (SortedTable KeyTypeSetting) := do
  let entries ← (← form.entries? value).mapM fun entry => do
    some (entry.1, ← form.setting? entry.2)
  some (.ofList entries)

def devices? (form : Form ν) (value : ν) : Option Devices := do
  match ← form.members? ["default_key_type", "key_types"] value with
  | [default, keyTypes] =>
      some ⟨← member form.optionalSetting? none default, ← member form.keyTypes? .empty keyTypes⟩
  | _ => none

def config? (form : Form ν) (document : ν) : Option Config := do
  match ← form.members? ["agent", "tpm", "session", "registry", "devices"] document with
  | [agent, tpm, session, jobs, devices] =>
      some ⟨← member form.agent? .standard agent, ← member form.tpm? .standard tpm,
        ← member form.session? .standard session, ← member form.jobs? .standard jobs,
        ← member form.devices? .standard devices⟩
  | _ => none

end Form

end DiskWarden.Config
