import DiskWarden.Config.Form
import DiskWarden.Toml.Printer
import DiskWarden.Toml.Reader

/-!
Configurations as TOML documents.
-/

namespace DiskWarden.Config.TomlForm

/-! ## Reading -/

def text? : Toml → Option String
  | .text value => some value
  | _ => none

def flag? : Toml → Option Bool
  | .bool value => some value
  | _ => none

def number? : Toml → Option UInt64
  | .integer (.ofNat n) => some n.toUInt64
  | _ => none

def items? : Toml → Option (List Toml)
  | .array items => some items
  | _ => none

def entries? : Toml → Option (List (String × Toml))
  | .table members => some members
  | _ => none

/-- The members of a section. An array gives them by place; it may be too short or too long. A
point in time counts as a section of which nothing is known. -/
def members? (names : List String) : Toml → Option (List (Option Toml))
  | .table members => some (names.map fun name => members.lookup name)
  | .dateTime _ => some (names.map fun _ => none)
  | .array items => some (names.zipIdx.map fun (_, place) => items[place]?)
  | _ => none

def setting? : Toml → Option KeyTypeSetting
  | .integer value => (Code.ofInt? value).map .code
  | .text value => (KeyTypeName.ofText? value).map .name
  | _ => none

/-- How TOML values are taken apart. There is no value for nothing. -/
def form : Form Toml := ⟨text?, flag?, number?, items?, entries?, members?, setting?,
  fun _ => some false⟩

def ofText? (text : String) : Option Config := (Toml.ofText? text).bind form.config?

/-! ## Writing -/

def ofSetting : KeyTypeSetting → Toml
  | .code code => .integer code.value
  | .name name => .text name.text

def ofNumber (value : UInt64) : Toml := .integer (value.toNat : Int)

def document (config : Config) : Toml :=
  let default :=
    match config.devices.default with
    | some setting => [("default_key_type", ofSetting setting)]
    | none => []
  .table
    [("agent", .table
        [("socket_path", .text config.agent.socketPath),
         ("interactive", .bool config.agent.interactive)]),
     ("tpm", .table
        [("helper_path", .text config.tpm.helperPath),
         ("timeout_secs", ofNumber config.tpm.timeoutSeconds)]),
     ("session", .table
        [("reboot_command", .array (config.session.rebootCommand.map .text))]),
     ("registry", .table [("stale_window_ms", ofNumber config.jobs.staleWindow)]),
     ("devices", .table (default ++
        [("key_types", .table
          (config.devices.keyTypes.entries.map fun entry => (entry.1, ofSetting entry.2)))]))]

/-- Writes a configuration. None if a number is out of range. -/
def toText? (config : Config) : Option String := (document config).pretty?

end DiskWarden.Config.TomlForm
