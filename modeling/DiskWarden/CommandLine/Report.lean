import DiskWarden.Config.Store
import DiskWarden.Terminal

/-!
What commands act on, and what a run of the program leaves for its caller.
-/

namespace DiskWarden.CommandLine

/-- The exit code of a run with what it has written to the output and as messages. -/
structure Report where
  exitCode : Nat
  output : String
  messages : String
deriving DecidableEq, Repr

namespace Report

def success (output : String) : Report := ⟨0, output, ""⟩

/-- A run that failed for a reason. -/
def failure (reason : String) : Report := ⟨1, "", "error: " ++ reason ++ "\n"⟩

/-- The same report, with messages that were written before. -/
def after (messages : String) (report : Report) : Report :=
  { report with messages := messages ++ report.messages }

end Report

/-- What commands act on: the files, what is left of the standard input, and helpers. -/
structure Surroundings (σ : Type) where
  files : FileTree
  input : Text.Octets
  helpers : σ

/-- What commands can rely on: the path of the configuration in the environment, if there is one,
and who runs helpers. -/
structure Machine (σ : Type) where
  configPath : Option String
  runner : Helper.Runner σ

variable {σ : Type}

/-- Runs helpers in their part of the surroundings. -/
def Machine.helperRunner (machine : Machine σ) : Helper.Runner (Surroundings σ) :=
  fun task surroundings =>
    let (completion, helpers) := machine.runner task surroundings.helpers
    (completion, { surroundings with helpers })

namespace Surroundings

def onInput {ε α : Type} (action : Act ε Text.Octets α) : Act ε (Surroundings σ) α :=
  action.onPart input fun surroundings input => { surroundings with input }

/-- Loads the configuration at a path, where a starter file is written if there is nothing. That
of a user can stand in for the one of the machine. -/
def loadConfig (user : Option Config.Location.User) (path : Path)
    (surroundings : Surroundings σ) : Except Fault Config.Stored × Surroundings σ :=
  let (loaded, files) := (Config.Stored.loadOrStartFor user path).run surroundings.files
  (loaded, { surroundings with files })

end Surroundings

def loadFailure (path : Path) (fault : Fault) : Report :=
  .failure ("failed to load configuration from " ++ path.text ++ ": " ++ fault.chain)

/-- What is said of a configuration that stands in for the one at a path. -/
def standInText (path : Path) (stored : Config.Stored) : String :=
  if stored.path.isSame path then ""
  else
    "Using bootstrap configuration at " ++ stored.path.text ++
      " (set DISKENC_CONFIG to replace).\n"

def withConfig (user : Option Config.Location.User) (path : Path)
    (command : Config → Surroundings σ → Report × Surroundings σ)
    (surroundings : Surroundings σ) : Report × Surroundings σ :=
  match surroundings.loadConfig user path with
  | (.error fault, surroundings) => (loadFailure path fault, surroundings)
  | (.ok stored, surroundings) =>
      let (report, surroundings) := command stored.config surroundings
      (report.after (standInText path stored), surroundings)

end DiskWarden.CommandLine
