import DiskWarden.Fault
import DiskWarden.Path

/-!
Where a configuration lies, and in which format.
-/

namespace DiskWarden.Config

/-- The formats of configuration files. -/
inductive Format
  | toml
  | yaml
deriving DecidableEq, Repr, Inhabited

namespace Format

def text : Format → String
  | toml => "toml"
  | yaml => "yaml"

def ofExtension? (extension : String) : Option Format :=
  let extension := Text.asciiLower extension
  if extension = "toml" then some toml
  else if extension = "yaml" || extension = "yml" then some yaml
  else none

def ofPath (path : Path) : Except Fault Format :=
  match path.extension?.bind ofExtension? with
  | some format => .ok format
  | none => .error (.invalidConfig (path.text ++ " is neither .toml nor .yaml"))

end Format

namespace Location

/-- The path of the configuration of the machine. -/
def system : Path := ⟨"/etc/diskenc.toml"⟩

/-- Whether a path is that of the machine, however it is written. -/
def isSystem (path : Path) : Bool :=
  path.isAbsolute && path.names = ["etc", "diskenc.toml"]

/-- The path that is used: the one that is asked for, else that of the environment unless it is
blank, else that of the machine. -/
def resolve (explicit environment : Option String) : Path :=
  match explicit with
  | some text => ⟨text⟩
  | none =>
      match environment with
      | some text => if Text.isBlankText text then system else ⟨text⟩
      | none => system

/-- The home directory of a user: that of the environment unless it is empty, else that of the
account. -/
def home? (environment account : Option String) : Option Path :=
  match environment with
  | some text => if text.isEmpty then account.map Path.mk else some ⟨text⟩
  | none => account.map Path.mk

/-- The directory of a user's configurations: the one that the environment names, if it does so
by an absolute path, else one in the home directory. -/
def userDirectory (home : Path) (configHome : Option String) : Path :=
  match configHome.map Path.mk with
  | some path => if path.isAbsolute then path else home.join ⟨".config"⟩
  | none => home.join ⟨".config"⟩

/-- The path of the own configuration of a user with a home directory. -/
def user (home : Path) (configHome : Option String) : Path :=
  ((userDirectory home configHome).join ⟨"diskenc"⟩).join ⟨"diskenc.toml"⟩

/-- Where a user's own configuration lies, and what the program keeps while it runs. -/
structure User where
  configuration : Path
  runtime : Option Path
  temporary : Path

/-- The path of the socket in the own starter file of a user. -/
def User.socketPath (user : User) : String :=
  let runtime := user.runtime.getD (user.temporary.join ⟨"diskenc"⟩)
  (runtime.join ⟨"agent.sock"⟩).text

end Location

end DiskWarden.Config
