import DiskWarden.Acquisition
import DiskWarden.Dispatch

/-!
The event loop. Commands wait in one queue, and the loop takes one at a time. What may keep a
user busy is left to workers: password requests, and questions about a reboot.
-/

namespace DiskWarden

/-- The number of a request, by which its answer is found. -/
abbrev Ticket := Nat

/-- What can be asked of the loop. -/
inductive Command
  | signal (signal : Signal)
  | password (ticket : Ticket) (device : Device)
  | jobs (ticket : Ticket)
  | shutdown
deriving DecidableEq, Repr

inductive Errand
  | reboot (device : Device) (decision : Decision)
  | password (ticket : Ticket) (device : Device)
deriving DecidableEq, Repr

/-- What becomes visible of the loop and its workers. -/
inductive BusEvent
  | shown (event : DeskEvent)
  | asked (event : DeskEvent)
  | called (call : Call)
deriving DecidableEq, Repr

/-- Those who answer the workers. A password request may die without an answer. -/
structure Hosts (σ : Type) where
  desk : Desk σ
  hook : Device → Act Call σ (Option Reply)

/-- The loop: what waits in its queue, whether it still takes commands, the errands of its
workers, and the answers given so far. -/
structure Bus where
  dispatcher : Dispatcher
  queue : List Command
  isRunning : Bool
  errands : List Errand
  snapshots : Table Ticket (List Job)
  replies : Table Ticket (Option Reply)
deriving Repr

namespace Bus

variable {σ : Type}

/-- A loop over a dispatcher, which from now on defers its questions about reboots. -/
def start (dispatcher : Dispatcher) : Bus :=
  ⟨{ dispatcher with defersReboots := true }, [], true, [], [], []⟩

/-- What is told to those who come after the loop has stopped. -/
def stopped : Fault := .bus "event loop has stopped"

def send (bus : Bus) (command : Command) : Except Fault Bus :=
  if bus.isRunning then .ok { bus with queue := bus.queue ++ [command] } else .error stopped

/-- The errand that a dispatched notification leaves for a worker. -/
def errandOf : Dispatched → List Errand
  | .progress .. => []
  | .result report =>
      if report.presentation = .rebootPending then [.reboot report.device report.decision]
      else []

/-- The answers once some commands are dropped: their password requests have died. -/
def abandon (replies : Table Ticket (Option Reply)) : List Command → Table Ticket (Option Reply)
  | [] => replies
  | .password ticket _ :: commands => abandon (replies.put ticket none) commands
  | _ :: commands => abandon replies commands

/-- Carries out a command. After a shutdown what still waits in the queue is dropped. -/
def execute (hosts : Hosts σ) (now : Instant) (bus : Bus) : Command → Act BusEvent σ Bus
  | .signal signal => do
      Act.record .debug ("dispatching " ++ signal.channel.name ++ " for " ++ signal.device.path)
      let (dispatched, dispatcher) ←
        Act.mapEvents .shown (Dispatcher.dispatch hosts.desk bus.dispatcher now signal)
      pure { bus with dispatcher, errands := bus.errands ++ errandOf dispatched }
  | .password ticket device =>
      pure { bus with errands := bus.errands ++ [.password ticket device] }
  | .jobs ticket =>
      pure { bus with
        snapshots := bus.snapshots.put ticket bus.dispatcher.registry.sortedJobs }
  | .shutdown => do
      if bus.dispatcher.registry.hasJobs then
        Act.record .info ("event loop stopping with " ++
          toString bus.dispatcher.registry.size ++ " job(s) still in flight")
      pure { bus with
        isRunning := false, queue := [], replies := abandon bus.replies bus.queue }

/-- Lets the loop take the next command, if it runs and one waits. -/
def turn (hosts : Hosts σ) (now : Instant) (bus : Bus) : Act BusEvent σ Bus :=
  match bus.isRunning, bus.queue with
  | true, command :: queue => execute hosts now { bus with queue } command
  | _, _ => pure bus

/-- Lets the loop take a number of commands. -/
def turns (hosts : Hosts σ) (now : Instant) : Nat → Bus → Act BusEvent σ Bus
  | 0, bus => pure bus
  | count + 1, bus => do turns hosts now count (← bus.turn hosts now)

/-- Lets the loop take all commands that wait. -/
def drain (hosts : Hosts σ) (now : Instant) (bus : Bus) : Act BusEvent σ Bus :=
  turns hosts now bus.queue.length bus

def perform (hosts : Hosts σ) (bus : Bus) : Errand → Act BusEvent σ Bus
  | .reboot device decision => do
      let presentation ← Act.mapEvents .asked (hosts.desk.offerReboot decision)
      Act.record .info
        ("reboot offer for " ++ device.path ++ ": " ++ presentation.logName)
      pure bus
  | .password ticket device => do
      let reply ← Act.mapEvents .called (hosts.hook device)
      pure { bus with replies := bus.replies.put ticket reply }

/-- Lets a worker carry out the errand at a place, if there is one. -/
def work (hosts : Hosts σ) (place : Nat) (bus : Bus) : Act BusEvent σ Bus :=
  match bus.errands[place]? with
  | some errand => perform hosts { bus with errands := bus.errands.eraseIdx place } errand
  | none => pure bus

/-- Lets the workers carry out a number of errands, in order. -/
def works (hosts : Hosts σ) : Nat → Bus → Act BusEvent σ Bus
  | 0, bus => pure bus
  | count + 1, bus => do works hosts count (← bus.work hosts 0)

/-- Lets the workers carry out all errands. -/
def finishErrands (hosts : Hosts σ) (bus : Bus) : Act BusEvent σ Bus :=
  works hosts bus.errands.length bus

/-! ## Requests from one client, one after the other -/

def publish (bus : Bus) (signal : Signal) : Except Fault Bus := bus.send (.signal signal)

/-- What a request comes to by its answer, which is none if it died. -/
def replyOf : Option Reply → Except Fault Reply
  | some reply => .ok reply
  | none => .error (.bus "password hook dropped its reply")

/-- The answer that is found under a ticket after a password request. -/
def replyTo (bus : Bus) (ticket : Ticket) : Except Fault Reply :=
  replyOf (bus.replies.get? ticket).join

/-- Requests a password and waits for the answer. -/
def acquirePassword (hosts : Hosts σ) (now : Instant) (bus : Bus) (ticket : Ticket)
    (device : Device) : Act BusEvent σ (Except Fault Reply × Bus) := do
  match bus.send (.password ticket device) with
  | .error fault => pure (.error fault, bus)
  | .ok bus =>
      let bus ← (← bus.drain hosts now).finishErrands hosts
      pure (bus.replyTo ticket, bus)

/-- Asks for the jobs in flight and waits for the answer. -/
def activeJobs (hosts : Hosts σ) (now : Instant) (bus : Bus) (ticket : Ticket) :
    Act BusEvent σ (Except Fault (List Job) × Bus) := do
  match bus.send (.jobs ticket) with
  | .error fault => pure (.error fault, bus)
  | .ok bus =>
      let bus ← bus.drain hosts now
      match bus.snapshots.get? ticket with
      | some jobs => pure (.ok jobs, bus)
      | none => pure (.error (.bus "event loop dropped the job snapshot"), bus)

/-- Stops the loop and waits for it and its workers. -/
def shutdown (hosts : Hosts σ) (now : Instant) (bus : Bus) : Act BusEvent σ Bus := do
  let bus :=
    match bus.send .shutdown with
    | .ok bus => bus
    | .error _ => bus
  (← bus.drain hosts now).finishErrands hosts

end Bus

end DiskWarden
