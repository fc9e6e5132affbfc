import DiskWarden.Bus
import DiskWarden.FileTree
import DiskWarden.WireLine

/-!
Serving a peer of the agent. A reader takes the lines as they come and never waits for a reply;
each password request is brought before the loop by a task of its own; a writer gives the
replies in the order of the requests, up to the first request that died. The parts take their
moves in any order.
-/

namespace DiskWarden

/-- What has become of the reader. -/
inductive Reading
  | going
  | finished
  | failed (reason : String)
deriving DecidableEq, Repr

/-- A peer that is served: the lines not yet read, the requests not yet before the loop and those
that it no longer took, and, of the writer, the requests it still has to answer, the replies it
gave, and why it stopped. -/
structure Connection where
  bus : Bus
  unread : List Text.Octets
  reading : Reading
  nextTicket : Ticket
  unasked : List (Ticket × Device)
  refused : List Ticket
  awaited : List Ticket
  replies : List Reply
  fault : Option String
deriving Repr

namespace Connection

variable {σ : Type}

/-- A peer with its input still unread. Its requests are numbered from `firstTicket`. -/
def start (bus : Bus) (firstTicket : Ticket) (input : Text.Octets) : Connection :=
  ⟨bus, Text.lines input, .going, firstTicket, [], [], [], [], none⟩

/-! ## The reader -/

/-- Takes a password request. If the writer has stopped, the reader stops as well. -/
def request (connection : Connection) (device : Device) : Connection :=
  let ticket := connection.nextTicket
  let connection :=
    { connection with
      nextTicket := ticket + 1, unasked := connection.unasked ++ [(ticket, device)] }
  if connection.fault.isSome then { connection with reading := .finished }
  else { connection with awaited := connection.awaited ++ [ticket] }

/-- Handles what has arrived on a line. -/
def receive (connection : Connection) : Inbound → Act BusEvent σ Connection
  | .signal signal => do
      Act.record .debug ("received " ++ signal.channel.name ++ " for " ++ signal.device.path)
      match connection.bus.publish signal with
      | .ok bus => pure { connection with bus }
      | .error fault => pure { connection with reading := .failed fault.chain }
  | .passwordRequest device => do
      Act.record .debug ("password requested for " ++ device.path)
      pure (connection.request device)

def readLine (connection : Connection) (line : Text.Octets) : Act BusEvent σ Connection :=
  match WireLine.read line with
  | .blank => pure connection
  | .inbound arrived => connection.receive arrived
  | .malformed cause => do
      Act.record .warn ("skipping malformed line: " ++ (Fault.json cause).message)
      pure connection
  | .broken => pure { connection with reading := .failed Text.notUtf8 }

/-- Reads the next line, or notes that there is none. -/
def read (connection : Connection) : Act BusEvent σ Connection :=
  match connection.reading, connection.unread with
  | .going, [] => pure { connection with reading := .finished }
  | .going, line :: unread => readLine { connection with unread } line
  | _, _ => pure connection

/-! ## The tasks and the writer -/

/-- Brings the request at a place before the loop. -/
def ask (connection : Connection) (place : Nat) : Connection :=
  match connection.unasked[place]? with
  | none => connection
  | some (ticket, device) =>
      let connection :=
        { connection with unasked := connection.unasked.eraseIdx place }
      match connection.bus.send (.password ticket device) with
      | .ok bus => { connection with bus }
      | .error _ => { connection with refused := connection.refused ++ [ticket] }

/-- What a request has come to, if it is settled. -/
def answer? (connection : Connection) (ticket : Ticket) : Option (Except Fault Reply) :=
  if ticket ∈ connection.refused then some (.error Bus.stopped)
  else (connection.bus.replies.get? ticket).map Bus.replyOf

/-- Gives the reply to the next request, if it is settled. The peer may be unable to take it. -/
def write (connection : Connection) (failure : Option String) : Connection :=
  match connection.fault, connection.awaited with
  | none, ticket :: awaited =>
      match connection.answer? ticket with
      | none => connection
      | some (.error fault) => { connection with awaited, fault := some fault.chain }
      | some (.ok reply) =>
          match failure with
          | none => { connection with awaited, replies := connection.replies ++ [reply] }
          | some reason => { connection with awaited, fault := some reason }
  | _, _ => connection

/-! ## Moves -/

/-- A move of one of the parts: the reader, the task of a request, the loop, a worker, or the
writer. -/
inductive Move
  | read
  | ask (place : Nat)
  | turn (now : Instant)
  | work (place : Nat)
  | write (failure : Option String)
deriving DecidableEq, Repr

def move (hosts : Hosts σ) (connection : Connection) : Move → Act BusEvent σ Connection
  | .read => connection.read
  | .ask place => pure (connection.ask place)
  | .turn now => do pure { connection with bus := ← connection.bus.turn hosts now }
  | .work place => do pure { connection with bus := ← connection.bus.work hosts place }
  | .write failure => pure (connection.write failure)

def run (hosts : Hosts σ) (connection : Connection) (moves : List Move) :
    Act BusEvent σ Connection :=
  moves.foldlM (move hosts) connection

/-! ## Serving, one part after the other -/

/-- What a peer has got, and how its connection ended. -/
structure Served where
  lines : List String
  fault : Option String
deriving DecidableEq, Repr

/-- Why reading ended early. -/
def readingFault (connection : Connection) : Option String :=
  match connection.reading with
  | .failed reason => some reason
  | _ => none

def served (connection : Connection) : Served :=
  ⟨connection.replies.map Wire.encodeReply, connection.readingFault.or connection.fault⟩

/-- The moves that read a number of lines, and bring each request before the loop at once. -/
def readingMoves : Nat → List Move
  | 0 => [.read]
  | count + 1 => .read :: .ask 0 :: readingMoves count

/-- Lets the parts move in stages, each planned for what the connection has come to. -/
def follow (hosts : Hosts σ) (connection : Connection) (stages : List (Connection → List Move)) :
    Act BusEvent σ Connection :=
  stages.foldlM (fun connection stage => connection.run hosts (stage connection)) connection

/-- First all lines are read, then the loop, the workers and the writer follow. -/
def oneAfterTheOther (now : Instant) : List (Connection → List Move) :=
  [fun connection => readingMoves connection.unread.length,
    fun connection => List.replicate connection.bus.queue.length (.turn now),
    fun connection => List.replicate connection.bus.errands.length (.work 0),
    fun connection => List.replicate connection.awaited.length (.write none)]

/-- Serves a peer to the end of its input. -/
def serve (hosts : Hosts σ) (now : Instant) (bus : Bus) (firstTicket : Ticket)
    (input : Text.Octets) : Act BusEvent σ (Served × Bus) := do
  let connection ← (start bus firstTicket input).follow hosts (oneAfterTheOther now)
  pure (connection.served, connection.bus)

/-- Serves peers one after the other. -/
def serveEach (hosts : Hosts σ) (now : Instant) :
    List Text.Octets → Ticket → Bus → Act BusEvent σ (List Served × Bus)
  | [], _, bus => pure ([], bus)
  | input :: inputs, firstTicket, bus => do
      let (served, bus) ← serve hosts now bus firstTicket input
      let (others, bus) ←
        serveEach hosts now inputs (firstTicket + (Text.lines input).length) bus
      pure (served :: others, bus)

end Connection

namespace FileTree

/-- Makes the socket that peers connect to. Its directory is made as well, and what an earlier
run has left at the path is removed. -/
def bind (path : Path) : FileAction Unit := do
  if let some parent := path.parent? then
    withHeading ("create socket directory " ++ parent.text) (makeDirectories parent)
  if (← get).pathExists path then
    withHeading ("remove stale socket " ++ path.text) (removeFile path)
  withHeading ("bind socket " ++ path.text) (makeSocket path)

end FileTree

end DiskWarden
