import DiskWarden.CommandLine.Inspecting
import DiskWarden.CommandLine.Replaying
import DiskWarden.CommandLine.Unlocking

/-!
Running the program on the words of its command line.
-/

namespace DiskWarden.CommandLine

variable {σ : Type}

def versionText : String := "diskenc 0.1.0\n"

def usage : String :=
  "Inspect disk-encryption results and run the device-password hook from a terminal.\n\n" ++
  "Usage: diskenc [-c <PATH>] <COMMAND>\n\n" ++
  "Commands:\n" ++
  "  classify --operation <OPERATION> --code <CODE> [--device <DEVICE>] [--name <NAME>]\n" ++
  "           [--format plain|json]\n" ++
  "  unlock <DEVICE> [--stdin] [--print-fingerprint] [--no-passphrase-fallback]\n" ++
  "  replay <CAPTURE> [--interactive]\n" ++
  "  validate [-f <PATH>]\n" ++
  "  schema\n" ++
  "  signals\n\n" ++
  "Options:\n" ++
  "  -c, --config <PATH>  The configuration (else $DISKENC_CONFIG or /etc/diskenc.toml)\n" ++
  "  -h, --help           Show this text\n" ++
  "  -V, --version        Show the version\n"

def refusedCode : Nat := 2

/-- The report where there is nothing to run. -/
def Halt.report : Halt → Report
  | refused => ⟨refusedCode, "", usage⟩
  | help => .success usage
  | version => .success versionText

def Command.run (user : Option Config.Location.User) (machine : Machine σ) (path : Path)
    (command : Command) (surroundings : Surroundings σ) : Report × Surroundings σ :=
  match command with
  | classify request => (request.report, surroundings)
  | unlock request => withConfig user path (request.run machine) surroundings
  | replay request => withConfig user path (request.run machine) surroundings
  | validate file => (validationReport surroundings.files (file.getD path), surroundings)
  | schema => (schemaReport, surroundings)
  | signals => (signalsReport, surroundings)

def Invocation.configPath (machine : Machine σ) (invocation : Invocation) : Path :=
  Config.Location.resolve (invocation.config.map Path.text) machine.configPath

/-! ## What a run depends on -/

/-- The paths whose nodes matter to a command with the configuration at a path. -/
def Command.paths (configuration : Path) : Command → List Path
  | unlock _ => [configuration]
  | replay request => [configuration, request.capture]
  | validate file => [file.getD configuration]
  | classify _ | schema | signals => []

def Command.readsInput : Command → Bool
  | unlock request => request.readsInput
  | replay request => request.asks || Replaying.isInput request.capture
  | classify _ | validate _ | schema | signals => false

/-! ## The run -/

/-- Runs the program for a user on the words after its name. -/
def runFor (user : Option Config.Location.User) (machine : Machine σ) (words : List String)
    (surroundings : Surroundings σ) : Report × Surroundings σ :=
  match Invocation.read words with
  | .error halt => (halt.report, surroundings)
  | .ok invocation =>
      invocation.command.run user machine (invocation.configPath machine) surroundings

/-- Runs the program for no user in particular. -/
def run (machine : Machine σ) (words : List String) (surroundings : Surroundings σ) :
    Report × Surroundings σ :=
  runFor none machine words surroundings

end DiskWarden.CommandLine
