import DiskWarden.Dispatch
import DiskWarden.WireLine

/-!
Replaying a capture of the line protocol. Notifications are dispatched in the order of their
lines, password requests are counted only, and lines that hold neither are skipped.
-/

namespace DiskWarden

structure ReplayedResult where
  device : Device
  operation : Operation
  outcome : Outcome
  presentation : Presentation
deriving DecidableEq, Repr

/-- What a replay has counted, its results in order, the dispatcher it leaves, and whether it
met a line that is no text. -/
structure Replay where
  signals : Nat
  requests : Nat
  skipped : Nat
  results : List ReplayedResult
  dispatcher : Dispatcher
  isBroken : Bool
deriving Repr

namespace Replay

variable {σ : Type}

def start (dispatcher : Dispatcher) : Replay := ⟨0, 0, 0, [], dispatcher, false⟩

/-- The account of a dispatched notification, if it was a result. -/
def resultOf : Dispatched → List ReplayedResult
  | .progress .. => []
  | .result report =>
      [⟨report.device, report.verdict.operation, report.verdict.outcome, report.presentation⟩]

def dispatch (desk : Desk σ) (now : Instant) (signal : Signal) (replay : Replay) :
    Act DeskEvent σ Replay := do
  let (dispatched, dispatcher) ← Dispatcher.dispatch desk replay.dispatcher now signal
  pure { replay with
    signals := replay.signals + 1
    results := replay.results ++ resultOf dispatched
    dispatcher }

/-- Goes through the lines of a capture, of which the first has a given number. A line that is
no text ends this. -/
def readLines (desk : Desk σ) (clock : Nat → Instant) :
    Nat → List Text.Octets → Replay → Act DeskEvent σ Replay
  | _, [], replay => pure replay
  | number, line :: rest, replay =>
      match WireLine.read line with
      | .blank => readLines desk clock (number + 1) rest replay
      | .broken => pure { replay with isBroken := true }
      | .inbound (.signal signal) => do
          let replay ← dispatch desk (clock replay.signals) signal replay
          readLines desk clock (number + 1) rest replay
      | .inbound (.passwordRequest _) =>
          readLines desk clock (number + 1) rest { replay with requests := replay.requests + 1 }
      | .malformed cause => do
          Act.record .warn ("line " ++ toString number ++ ": " ++ (Fault.json cause).message)
          readLines desk clock (number + 1) rest { replay with skipped := replay.skipped + 1 }

/-- Replays a capture as far as it is text. The clock gives the time of each notification. -/
def readAll (desk : Desk σ) (clock : Nat → Instant) (dispatcher : Dispatcher)
    (capture : Text.Octets) : Act DeskEvent σ Replay :=
  readLines desk clock 1 (Text.lines capture) (start dispatcher)

/-- Replays a capture. A line that is no text leaves no account. -/
def run (desk : Desk σ) (clock : Nat → Instant) (dispatcher : Dispatcher)
    (capture : Text.Octets) : Act DeskEvent σ (Option Replay) := do
  let replay ← readAll desk clock dispatcher capture
  pure (if replay.isBroken then none else some replay)

/-- The jobs that are left over, in the order of their keys. -/
def activeJobs (replay : Replay) : List Job := replay.dispatcher.registry.sortedJobs

end Replay

end DiskWarden
