import DiskWarden.Decision
import DiskWarden.Fault
import DiskWarden.Registry
import DiskWarden.Signal
import DiskWarden.Traced

/-!
Dispatching notifications: each moves the registry, the progress indicators follow the jobs,
and results are told to the user, with a question where a reboot is offered.
-/

namespace DiskWarden

/-- What becomes visible at the user's desk. -/
inductive DeskEvent
  | opened (key : JobKey) (title : String)
  | updated (key : JobKey) (progress : Percent)
  | closed (key : JobKey)
  | noticed (severity : Severity) (title message : String)
  | cursorRestored
  | rebootAsked (title message : String)
  | rebootRequested
deriving DecidableEq, Repr

/-- Those who answer: the user to the question about a reboot, the session manager to the
request for one. -/
structure Desk (σ : Type) where
  confirm : Decision → Consult σ Bool
  reboot : Consult σ (Except Fault Unit)

/-- How a decision reached the user. -/
inductive Presentation
  | notice
  | rebootDeclined
  | rebootRequested
  | rebootFailed
  | rebootPending
deriving DecidableEq, Repr

namespace Presentation

def text : Presentation → String
  | notice => "notice"
  | rebootDeclined => "reboot-declined"
  | rebootRequested => "reboot-requested"
  | rebootFailed => "reboot-failed"
  | rebootPending => "reboot-pending"

def logName : Presentation → String
  | notice => "Notice"
  | rebootDeclined => "RebootDeclined"
  | rebootRequested => "RebootRequested"
  | rebootFailed => "RebootFailed"
  | rebootPending => "RebootPending"

end Presentation

namespace Desk

variable {σ : Type}

/-- Asks whether to reboot, and passes a yes on to the session manager. -/
def offerReboot (desk : Desk σ) (decision : Decision) : Act DeskEvent σ Presentation := do
  Act.emit (.rebootAsked decision.title decision.message)
  if ← Act.consult (desk.confirm decision) then
    Act.record .info "reboot is confirmed..."
    Act.emit .rebootRequested
    match ← Act.consult desk.reboot with
    | .ok () => pure .rebootRequested
    | .error fault =>
        Act.record .warn ("reboot request failed: " ++ fault.message)
        pure .rebootFailed
  else pure .rebootDeclined

/-- Shows a decision: as a notice, or as a question if it offers a reboot. -/
def present (desk : Desk σ) (decision : Decision) : Act DeskEvent σ Presentation :=
  if decision.offersReboot then desk.offerReboot decision
  else do
    Act.emit (.noticed decision.severity decision.title decision.message)
    pure .notice

end Desk

/-- The jobs in flight, and whether questions about a reboot are left for later. -/
structure Dispatcher where
  registry : Registry
  defersReboots : Bool
deriving Repr

structure ResultReport where
  device : Device
  verdict : Verdict
  decision : Decision
  presentation : Presentation
  evicted : Option Job
deriving DecidableEq, Repr

inductive Dispatched
  | progress (key : JobKey) (tick : Tick)
  | result (report : ResultReport)
deriving DecidableEq, Repr

namespace Dispatcher

variable {σ : Type}

def new (window : Nat) : Dispatcher := ⟨.empty window, false⟩

/-- Handles a tick: the first of a job opens its indicator, a late one shows nothing. -/
def onTick (dispatcher : Dispatcher) (now : Instant) (device : Device) (displayName : String)
    (kind : JobKind) (progress : Float) : Act DeskEvent σ (Dispatched × Dispatcher) := do
  let key : JobKey := ⟨device, kind⟩
  let (tick, registry) := dispatcher.registry.tick now key displayName progress
  match tick.effect with
  | .started =>
      Act.emit .cursorRestored
      Act.record .info (kind.text ++ " job started for " ++ device.path)
      Act.emit (.opened key (kind.activity ++ device.label displayName))
      Act.emit (.updated key tick.progress)
  | .advanced => Act.emit (.updated key tick.progress)
  | .stale =>
      Act.record .debug ("ignoring late " ++ kind.text ++ " progress for " ++ device.path)
  pure (.progress key tick, { dispatcher with registry })

/-- Ends the job that a result is about, and closes its indicator. -/
def evict (registry : Registry) (now : Instant) (device : Device) (operation : Operation) :
    Act DeskEvent σ (Option Job × Registry) :=
  match operation.jobKind? with
  | some kind => do
      let key : JobKey := ⟨device, kind⟩
      let (job, registry) := registry.finish now key
      if job.isSome then
        Act.emit (.closed key)
      pure (job, registry)
  | none => pure (none, registry)

/-- Handles a result: the job it ends is closed, then the user is told. -/
def onResult (desk : Desk σ) (dispatcher : Dispatcher) (now : Instant) (device : Device)
    (displayName : String) (operation : Operation) (code : Code) :
    Act DeskEvent σ (Dispatched × Dispatcher) := do
  Act.emit .cursorRestored
  let (evicted, registry) ← evict dispatcher.registry now device operation
  let verdict := judge operation code
  Act.record .info (operation.text ++ " result for " ++ device.path ++ ": code " ++
    code.text ++ " -> " ++ verdict.outcome.text)
  let decision := verdict.decision (device.label displayName)
  let presentation ←
    if decision.offersReboot && dispatcher.defersReboots then pure .rebootPending
    else desk.present decision
  pure (.result ⟨device, verdict, decision, presentation, evicted⟩,
    { dispatcher with registry })

/-- Handles a notification that arrives at a given time. -/
def dispatch (desk : Desk σ) (dispatcher : Dispatcher) (now : Instant) (signal : Signal) :
    Act DeskEvent σ (Dispatched × Dispatcher) :=
  match signal.notification with
  | .progress kind value =>
      dispatcher.onTick now signal.device signal.displayName kind value
  | .result operation code =>
      onResult desk dispatcher now signal.device signal.displayName operation code

/-- Closes the indicator of a job before its result. -/
def close (dispatcher : Dispatcher) (key : JobKey) :
    Act DeskEvent σ (Option Job × Dispatcher) := do
  let (job, registry) := dispatcher.registry.close key
  if job.isSome then
    Act.emit (.closed key)
  pure (job, { dispatcher with registry })

end Dispatcher

end DiskWarden
