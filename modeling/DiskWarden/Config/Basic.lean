import DiskWarden.Device
import DiskWarden.Helper
import DiskWarden.KeyType
import DiskWarden.SortedTable

/-!
The configuration: where the agent listens, which helpers it starts, and how the keys of the
devices are protected.
-/

namespace DiskWarden

inductive KeyTypeName
  | password
  | tpmPin
  | tpm
deriving DecidableEq, Repr

namespace KeyTypeName

def all : List KeyTypeName := [password, tpmPin, tpm]

def text : KeyTypeName → String
  | password => "password"
  | tpmPin => "tpm-pin"
  | tpm => "tpm"

def ofText? (text : String) : Option KeyTypeName := all.find? fun name => name.text == text

theorem ofText?_text (name : KeyTypeName) : ofText? name.text = some name := by
  cases name <;> decide

end KeyTypeName

/-- A protection as a configuration gives it: by name, or by the daemon's code. -/
inductive KeyTypeSetting
  | code (code : Code)
  | name (name : KeyTypeName)
deriving DecidableEq, Repr

namespace KeyTypeSetting

def keyType : KeyTypeSetting → KeyType
  | code number => .ofCode number
  | name .password => .password
  | name .tpmPin => .tpmAndPin
  | name .tpm => .tpmOnly

/-- The code of a setting that stands for no known protection. -/
def unsupportedCode? (setting : KeyTypeSetting) : Option Code :=
  match setting.keyType with
  | .unsupported number => some number
  | _ => none

end KeyTypeSetting

namespace Config

/-- Where the agent listens, and whether it asks before a reboot. -/
structure Agent where
  socketPath : String
  interactive : Bool
deriving DecidableEq, Repr

/-- The helper that unseals secrets, and how long it may take. -/
structure Tpm where
  helperPath : String
  timeoutSeconds : UInt64
deriving DecidableEq, Repr

/-- The words of the command that reboots the machine. -/
structure Session where
  rebootCommand : List String
deriving DecidableEq, Repr

/-- How long after a result late ticks are dropped, in milliseconds. -/
structure Jobs where
  staleWindow : UInt64
deriving DecidableEq, Repr

/-- The protection of the keys of single devices, and of all others. -/
structure Devices where
  default : Option KeyTypeSetting
  keyTypes : SortedTable KeyTypeSetting
deriving DecidableEq

/-- The path of the agent's socket where no other is given. -/
def standardSocket : String := "/run/diskenc/agent.sock"

def Agent.standard : Agent := ⟨standardSocket, true⟩

def Tpm.standard : Tpm := ⟨"/usr/libexec/diskenc/tpm-unseal", 10⟩

def Session.standard : Session := ⟨["systemctl", "reboot"]⟩

def Jobs.standard : Jobs := ⟨3000⟩

def Devices.standard : Devices := ⟨none, .empty⟩

end Config

structure Config where
  agent : Config.Agent
  tpm : Config.Tpm
  session : Config.Session
  jobs : Config.Jobs
  devices : Config.Devices
deriving DecidableEq

namespace Config

/-- The configuration that is in force where nothing is configured. -/
def standard : Config := ⟨.standard, .standard, .standard, .standard, .standard⟩

instance : Inhabited Config := ⟨standard⟩

/-! ## What follows from a configuration -/

/-- The setting for a device: its own one if it has one. -/
def settingFor? (config : Config) (device : Device) : Option KeyTypeSetting :=
  (config.devices.keyTypes.get? device.path).or config.devices.default

/-- The protection of a device's key. Without a setting it counts as one that is not
supported. -/
def keyTypeOf (config : Config) (device : Device) : KeyType :=
  match config.settingFor? device with
  | some setting => setting.keyType
  | none => .unknown

def unsealer (config : Config) : Unsealer :=
  ⟨config.tpm.helperPath, .ofSeconds config.tpm.timeoutSeconds.toNat⟩

/-- The command that reboots the machine, if there is one. -/
def rebootCommand? (config : Config) : Option RebootCommand :=
  RebootCommand.ofWords? config.session.rebootCommand

/-- The window in which late ticks are dropped. -/
def staleWindow (config : Config) : Nat := config.jobs.staleWindow.toNat

/-! ## Validation -/

inductive Issue
  | blankSocket
  | blankHelper
  | zeroTimeout
  | noRebootProgram
  | unsupportedDefault (code : Code)
  | relativeDevice (device : String)
  | unsupportedDevice (device : String) (code : Code)
deriving DecidableEq, Repr

namespace Issue

def text : Issue → String
  | blankSocket => "agent.socket_path must not be empty"
  | blankHelper => "tpm.helper_path must not be empty"
  | zeroTimeout => "tpm.timeout_secs must be greater than 0"
  | noRebootProgram => "session.reboot_command must name a program"
  | unsupportedDefault code => "devices.default_key_type uses unsupported code " ++ code.text
  | relativeDevice device =>
      "devices.key_types entry `" ++ device ++ "` must be an absolute device path"
  | unsupportedDevice device code =>
      "devices.key_types entry `" ++ device ++ "` uses unsupported code " ++ code.text

end Issue

def entryIssues (entry : String × KeyTypeSetting) : List Issue :=
  (if entry.1.toList.head? = some '/' then [] else [.relativeDevice entry.1]) ++
    (match entry.2.unsupportedCode? with
      | some code => [.unsupportedDevice entry.1 code]
      | none => [])

/-- All that is wrong with a configuration, section by section. -/
def issues (config : Config) : List Issue :=
  (if Text.isBlankText config.agent.socketPath then [.blankSocket] else []) ++
  (if Text.isBlankText config.tpm.helperPath then [.blankHelper] else []) ++
  (if config.tpm.timeoutSeconds = 0 then [.zeroTimeout] else []) ++
  (if config.rebootCommand?.isNone then [.noRebootProgram] else []) ++
  (match config.devices.default.bind KeyTypeSetting.unsupportedCode? with
    | some code => [.unsupportedDefault code]
    | none => []) ++
  config.devices.keyTypes.entries.flatMap entryIssues

end Config

end DiskWarden
