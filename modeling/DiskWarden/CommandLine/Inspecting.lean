import DiskWarden.CommandLine.Invocation
import DiskWarden.CommandLine.Report
import DiskWarden.Config.Schema
import DiskWarden.Decision
import DiskWarden.Json.Printer
import DiskWarden.Signal

/-!
The commands that only tell something: what a result code means, whether a configuration is
valid, what configurations look like, and which channels are listened to.
-/

namespace DiskWarden.CommandLine

/-! ## Classifying -/

namespace Classification

def verdict (request : Classification) : Verdict := judge request.operation request.code

/-- What the user is told about it. -/
def decision (request : Classification) : Decision :=
  request.verdict.decision (request.device.label request.name)

def plainText (request : Classification) : String :=
  "operation: " ++ request.operation.text ++ "\n" ++
  "code: " ++ request.code.text ++ "\n" ++
  "outcome: " ++ request.verdict.outcome.text ++ "\n" ++
  "severity: " ++ request.decision.severity.text ++ "\n" ++
  "title: " ++ request.decision.title ++ "\n" ++
  "message: " ++ request.decision.message ++ "\n" ++
  "offer_reboot: " ++ (if request.decision.offersReboot then "true" else "false") ++ "\n"

def json (request : Classification) : Json :=
  .object
    [("code", .integer request.code.value),
     ("magnitude", .integer request.code.magnitude),
     ("message", .text request.decision.message),
     ("offer_reboot", .bool request.decision.offersReboot),
     ("operation", .text request.operation.text),
     ("outcome", .text request.verdict.outcome.text),
     ("severity", .text request.decision.severity.text),
     ("title", .text request.decision.title)]

def report (request : Classification) : Report :=
  if Text.isBlankText request.name then .failure "--name must not be empty"
  else
    match request.layout with
    | .plain => .success request.plainText
    | .json => .success (request.json.pretty ++ "\n")

end Classification

/-! ## Validating -/

def validText (config : Config) : String :=
  "Configuration valid (" ++ toString config.devices.keyTypes.entries.length ++
    " device key type(s), default " ++
    (match config.devices.default with
      | some setting => setting.keyType.text
      | none => "none") ++ ").\n"

def issuesText (issues : List Config.Issue) : String :=
  "Configuration validation failed:\n" ++
    String.join (issues.map fun issue => "  - " ++ issue.text ++ "\n")

def validationReport (files : FileTree) (path : Path) : Report :=
  match Config.Stored.load files path with
  | .error fault => loadFailure path fault
  | .ok stored =>
      match stored.config.issues with
      | [] => .success (validText stored.config)
      | issues => ⟨1, "", issuesText issues⟩

/-! ## Listing -/

def schemaReport : Report := .success (Config.Schema.document.pretty ++ "\n")

def signalsReport : Report :=
  .success (String.join (Channel.all.map fun channel => channel.name ++ "\n"))

end DiskWarden.CommandLine
