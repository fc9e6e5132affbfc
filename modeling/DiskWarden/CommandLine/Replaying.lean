import DiskWarden.CommandLine.Invocation
import DiskWarden.CommandLine.Report
import DiskWarden.Replay

/-!
The command that replays a capture and sums it up.
-/

namespace DiskWarden.CommandLine.Replaying

variable {σ : Type}

/-! ## The capture -/

/-- Whether a path stands for the standard input. -/
def isInput (path : Path) : Bool := Path.dropIdleEnd path.pieces = ["-"]

/-- The octets of a file that is opened and read. -/
def readCapture (files : FileTree) (path : Path) : Except String Text.Octets :=
  match files.find path with
  | .error reason => .error ("failed to open " ++ path.text ++ ": " ++ reason)
  | .ok .socket => .error ("failed to open " ++ path.text ++ ": " ++ SystemError.noSuchDevice)
  | .ok node => node.octets

def takeCapture (path : Path) (surroundings : Surroundings σ) :
    Except String Text.Octets × Surroundings σ :=
  if isInput path then (.ok surroundings.input, { surroundings with input := [] })
  else (readCapture surroundings.files path, surroundings)

/-! ## The summary -/

def presentationText : Presentation → String
  | .notice => ""
  | .rebootDeclined => " (reboot postponed)"
  | .rebootRequested => " (reboot requested)"
  | .rebootFailed => " (reboot request failed)"
  | .rebootPending => " (reboot question pending)"

def resultLine (result : ReplayedResult) : String :=
  result.device.path ++ ": " ++ result.operation.text ++ " -> " ++ result.outcome.text ++
    presentationText result.presentation ++ "\n"

def countsLine (replay : Replay) : String :=
  toString replay.signals ++ " notification(s) replayed, " ++
    toString replay.skipped ++ " malformed line(s) skipped, " ++
    toString replay.requests ++ " password request(s) ignored.\n"

def jobLine (job : Job) : String :=
  "  " ++ job.key.kind.text ++ " " ++ job.key.device.path ++ " [" ++ job.label ++ "] " ++
    Decimal.wholeText job.progress.toFloat ++ "%\n"

def jobsText : List Job → String
  | [] => "No jobs in flight.\n"
  | jobs => "Jobs still in flight:\n" ++ String.join (jobs.map jobLine)

/-- The results of a replay, what it has counted, and the jobs that are left over. -/
def summary (replay : Replay) : String :=
  String.join (replay.results.map resultLine) ++ countsLine replay ++ jobsText replay.activeJobs

/-! ## The run -/

/-- Where the answers to questions come from. -/
def answers (request : Replaying) : Terminal.Answers :=
  if request.asks then .console else .never

/-- Those who answer while a capture is replayed. -/
def desk (machine : Machine σ) (config : Config) (request : Replaying) :
    Desk (Surroundings σ) where
  confirm _ := Surroundings.onInput (Terminal.confirm request.answers)
  reboot := RebootCommand.request config.rebootCommand? machine.helperRunner

def reportOf : Option Replay → Report
  | none => .failure Text.notUtf8
  | some replay => .success (summary replay)

/-- Replays the capture with a configuration. All of it happens at one time. -/
def run (machine : Machine σ) (request : Replaying) (config : Config)
    (surroundings : Surroundings σ) : Report × Surroundings σ :=
  match takeCapture request.capture surroundings with
  | (.error reason, surroundings) => (.failure reason, surroundings)
  | (.ok capture, surroundings) =>
      let traced := Replay.run (request.desk machine config) (fun _ => 0)
        (.new config.staleWindow) capture surroundings
      ((reportOf traced.value.1).after
        (String.join (traced.events.map (Terminal.shownText request.answers))), traced.value.2)

end DiskWarden.CommandLine.Replaying
