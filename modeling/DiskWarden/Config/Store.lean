import DiskWarden.Config.Location
import DiskWarden.Config.TomlForm
import DiskWarden.Config.YamlForm
import DiskWarden.FileTree

/-!
Configuration files: loading and saving them, and writing a commented starter file where there
is none yet.
-/

namespace DiskWarden.Config

namespace Format

def read (format : Format) (text : String) : Except Fault Config :=
  match format with
  | toml =>
      match TomlForm.ofText? text with
      | some config => .ok config
      | none => .error .tomlReading
  | yaml =>
      match YamlForm.ofText? text with
      | some config => .ok config
      | none => .error .yaml

def write (format : Format) (config : Config) : Except Fault String :=
  match format with
  | toml =>
      match TomlForm.toText? config with
      | some text => .ok text
      | none => .error .tomlWriting
  | yaml => .ok (YamlForm.toText config)

end Format

/-- A configuration with the file that it belongs to. -/
structure Stored where
  config : Config
  path : Path
  format : Format
deriving DecidableEq

namespace Stored

/-- Loads the configuration at a path. The extension tells the format. -/
def load (tree : FileTree) (path : Path) : Except Fault Stored := do
  let format ← Format.ofPath path
  match tree.readText path with
  | .error reason => throw (.io reason)
  | .ok text => pure ⟨← format.read text, path, format⟩

/-- Saves a configuration to its file, in its format. -/
def save (stored : Stored) : ExceptT Fault (StateM FileTree) Unit := do
  let text ← stored.format.write stored.config
  match ← (FileTree.writeFile stored.path (Text.encode text)).run with
  | .ok () => pure ()
  | .error reason => throw (.io reason)

end Stored

/-! ## Starter files -/

namespace Starter

/-- The mode of a starter file: all may read it, as agents run for every user. -/
def mode : Nat := 0o644

/-- A commented configuration with the standard settings, but for the path of the socket, which
is put in as it is. -/
def template (socketPath : String) : String :=
  "# Auto-generated diskenc configuration bootstrap.\n\n" ++
  "[agent]\n" ++
  "# Unix socket the daemon bridge writes notifications and password requests to.\n" ++
  "socket_path = \"" ++ socketPath ++ "\"\n" ++
  "# Ask on the terminal before honouring reboot offers; false always answers \"later\".\n" ++
  "interactive = true\n\n" ++
  "[tpm]\n" ++
  "# Helper invoked as `<helper> <device>`; the PIN (or nothing) arrives on stdin,\n" ++
  "# the unsealed passphrase is expected on stdout.\n" ++
  "helper_path = \"/usr/libexec/diskenc/tpm-unseal\"\n" ++
  "timeout_secs = 10\n\n" ++
  "[session]\n" ++
  "reboot_command = [\"systemctl\", \"reboot\"]\n\n" ++
  "[registry]\n" ++
  "# Progress arriving this soon after a job finished is treated as a late duplicate.\n" ++
  "stale_window_ms = 3000\n\n" ++
  "[devices]\n" ++
  "# Accepts `password`, `tpm-pin`, `tpm`, or the daemon's integer code.\n" ++
  "# default_key_type = \"password\"\n\n" ++
  "[devices.key_types]\n" ++
  "# \"/dev/sda1\" = \"tpm-pin\"\n"

/-- The mode of the own starter file of a user. -/
def userMode : Nat := 0o600

/-- Makes a file. One that is there by then is left alone. -/
def createUnlessThere (path : Path) (mode : Nat) (octets : Text.Octets) : FileAction Unit :=
  tryCatch (FileTree.createFile path mode octets) fun reason =>
    if reason = SystemError.fileExists then pure () else throw reason

/-- Writes a starter file with its directory. -/
def writeFor (socketPath : String) (mode : Nat) (path : Path) : FileAction Unit := do
  if let some parent := path.parent? then
    FileTree.makeDirectories parent
  createUnlessThere path mode (Text.encode (template socketPath))

/-- Writes a starter file for the machine. -/
def write (path : Path) : FileAction Unit := writeFor standardSocket mode path

end Starter

namespace Stored

/-- Loads the configuration at a path. Where there is nothing, a starter file is written before;
if that fails, the reason decides. -/
def startWith (write : FileAction Unit)
    (otherwise : String → StateM FileTree (Except Fault Stored)) (path : Path) :
    StateM FileTree (Except Fault Stored) := do
  if (← get).pathExists path then
    pure (load (← get) path)
  else
    match ← write.run with
    | .ok () => pure (load (← get) path)
    | .error reason => otherwise reason

def starterFailure (path : Path) (reason : String) : Fault :=
  .invalidConfig ("no configuration at " ++ path.text ++
    " and writing a starter file failed: " ++ reason)

/-- Loads the own configuration of a user, where a starter file is written if there is nothing. -/
def loadUserCopy : Option Location.User → StateM FileTree (Except Fault Stored)
  | none =>
      pure (.error (.invalidConfig (Location.system.text ++
        " is missing and no per-user config directory is known")))
  | some user =>
      startWith (Starter.writeFor user.socketPath Starter.userMode user.configuration)
        (fun reason => pure (.error (.invalidConfig ("writing per-user configuration " ++
          user.configuration.text ++ " failed: " ++ reason))))
        user.configuration

/-- Loads the configuration at a path, where a starter file is written if there is nothing. Where
the one of the machine cannot be written, the user's own stands in for it. -/
def loadOrStartFor (user : Option Location.User) (path : Path) :
    StateM FileTree (Except Fault Stored) :=
  startWith (Starter.write path)
    (fun reason =>
      if Location.isSystem path then loadUserCopy user
      else pure (.error (starterFailure path reason)))
    path

/-- Loads the configuration at a path for no user in particular. -/
def loadOrStart (path : Path) : StateM FileTree (Except Fault Stored) := loadOrStartFor none path

end Stored

end DiskWarden.Config
