import DiskWarden.Connection
import DiskWarden.Proofs.Dispatch.Lines

/-!
# What the moves of a connection do

A loop that serves takes its commands one by one and stays.  Each move of a connection has its
effect stated once: on the notifications that wait, on the dispatcher and what it shows, and on
the lines.
-/

namespace DiskWarden

open Dispatcher WireLine

/-- What the dispatcher shows, among all that becomes visible. -/
def BusEvent.shown? : BusEvent → Option DeskEvent
  | .shown event => some event
  | .asked _ => none
  | .called _ => none

def BusEvent.shownIn (events : List BusEvent) : List DeskEvent := events.filterMap shown?

def Command.signal? : Command → Option Signal
  | .signal sent => some sent
  | .password .. => none
  | .jobs _ => none
  | .shutdown => none

namespace Bus

variable {σ : Type} {bus : Bus}

/-- The notifications in the queue. -/
def waiting (bus : Bus) : List Signal := bus.queue.filterMap Command.signal?

/-- The loop runs, is not about to stop, and defers its questions. -/
structure Serving (bus : Bus) : Prop where
  running : bus.isRunning = true
  staying : Command.shutdown ∉ bus.queue
  defers : bus.dispatcher.defersReboots = true

theorem serving_start (dispatcher : Dispatcher) : (Bus.start dispatcher).Serving :=
  ⟨rfl, List.not_mem_nil, rfl⟩

theorem Serving.send_eq (serving : bus.Serving) (command : Command) :
    bus.send command = .ok { bus with queue := bus.queue ++ [command] } := by
  unfold send
  rw [if_pos serving.running]

theorem Serving.append (serving : bus.Serving) {command : Command}
    (other : command ≠ .shutdown) :
    Serving { bus with queue := bus.queue ++ [command] } where
  running := serving.running
  staying := by
    simp [serving.staying, Ne.symm other]
  defers := serving.defers

/-- What the next turn of the loop dispatches, if it comes at a given time. -/
def upcoming (bus : Bus) (now : Instant) : List (Instant × Signal) :=
  match bus.isRunning, bus.queue with
  | true, .signal sent :: _ => [(now, sent)]
  | _, _ => []

/-- A turn takes the first command of the queue, and dispatches it if it is a notification. -/
structure Turned (desk : Desk σ) (now : Instant) (bus : Bus) (value : Bus × σ)
    (events : List BusEvent) : Prop where
  serving : value.1.Serving
  queue_eq : value.1.queue = bus.queue.tail
  replies_eq : value.1.replies = bus.replies
  waiting_eq : bus.waiting = (bus.upcoming now).map Prod.snd ++ value.1.waiting
  dispatched_eq : ∀ host,
    (dispatchAll desk bus.dispatcher (bus.upcoming now) host).value =
        (value.1.dispatcher, host) ∧
      (dispatchAll desk bus.dispatcher (bus.upcoming now) host).events = BusEvent.shownIn events

theorem Turned.of_quiet {desk : Desk σ} {now : Instant} {value : Bus × σ}
    {events : List BusEvent} (serving : value.1.Serving)
    (queue_eq : value.1.queue = bus.queue.tail) (replies_eq : value.1.replies = bus.replies)
    (none : bus.upcoming now = []) (same : bus.waiting = value.1.waiting)
    (dispatcher : value.1.dispatcher = bus.dispatcher)
    (quiet : BusEvent.shownIn events = []) : Turned desk now bus value events where
  serving := serving
  queue_eq := queue_eq
  replies_eq := replies_eq
  waiting_eq := by rw [none, same]; rfl
  dispatched_eq host := by
    rw [none, dispatcher, quiet]
    exact ⟨rfl, rfl⟩

theorem shownIn_map_shown (events : List DeskEvent) :
    BusEvent.shownIn (events.map .shown) = events := by
  induction events with
  | nil => rfl
  | cons event rest inductionHypothesis =>
      exact congrArg (event :: ·) inductionHypothesis

theorem turn_of_nil (hosts : Hosts σ) (now : Instant) (empty : bus.queue = []) :
    bus.turn hosts now = pure bus := by
  unfold turn
  rw [empty]
  cases bus.isRunning <;> rfl

theorem turn_of_cons (hosts : Hosts σ) (now : Instant) {command : Command}
    {queue : List Command} (running : bus.isRunning = true)
    (waits : bus.queue = command :: queue) :
    bus.turn hosts now = execute hosts now { bus with queue } command := by
  unfold turn
  split
  · next same =>
      rw [waits] at same
      cases same
      rfl
  · next none =>
      exact absurd waits (none command queue running)

theorem upcoming_of_cons (now : Instant) {command : Command} {queue : List Command}
    (running : bus.isRunning = true) (waits : bus.queue = command :: queue) :
    bus.upcoming now = command.signal?.toList.map (now, ·) := by
  unfold upcoming
  rw [running, waits]
  cases command <;> rfl

theorem upcoming_of_nil (now : Instant) (empty : bus.queue = []) : bus.upcoming now = [] := by
  unfold upcoming
  rw [empty]
  cases bus.isRunning <;> rfl

theorem waiting_of_cons {command : Command} {queue : List Command}
    (waits : bus.queue = command :: queue) :
    bus.waiting = command.signal?.toList ++ queue.filterMap Command.signal? := by
  rw [waiting, waits, List.filterMap_cons]
  cases command.signal? <;> rfl

/-- The loop defers its questions, so that what it does about a notification is the same on every
host. -/
theorem Serving.turned_signal {sent : Signal} {queue : List Command} (serving : bus.Serving)
    (waits : bus.queue = .signal sent :: queue) (hosts : Hosts σ) (now : Instant) (host : σ) :
    Turned hosts.desk now bus (execute hosts now { bus with queue } (.signal sent) host).value
      (execute hosts now { bus with queue } (.signal sent) host).events := by
  obtain ⟨running, staying, defers⟩ := serving
  rw [waits, List.mem_cons, not_or] at staying
  have upcoming_eq := upcoming_of_cons now running waits
  obtain ⟨dispatched, left, events, defers, dispatch_eq⟩ :=
    dispatch_of_defers hosts.desk bus.dispatcher defers now sent
  have executed :
      (execute hosts now { bus with queue } (.signal sent) host).value =
          ({ bus with
              queue, dispatcher := left, errands := bus.errands ++ errandOf dispatched },
            host) ∧
        (execute hosts now { bus with queue } (.signal sent) host).events =
          events.map .shown := by
    simp [execute, dispatch_eq]
  rw [executed.1, executed.2]
  refine ⟨⟨running, staying.2, defers⟩, ?_, rfl, ?_, fun other => ?_⟩
  · rw [waits]
    rfl
  · rw [upcoming_eq, waiting_of_cons waits]
    rfl
  · rw [upcoming_eq, shownIn_map_shown]
    change (dispatchAll hosts.desk bus.dispatcher [(now, sent)] other).value = _ ∧
      (dispatchAll hosts.desk bus.dispatcher [(now, sent)] other).events = _
    rw [dispatchAll_cons, Act.bind_apply, (dispatch_eq other).1, (dispatch_eq other).2]
    exact ⟨rfl, List.append_nil events⟩

theorem Serving.turned (serving : bus.Serving) (hosts : Hosts σ) (now : Instant) (host : σ) :
    Turned hosts.desk now bus (bus.turn hosts now host).value
      (bus.turn hosts now host).events := by
  have ⟨running, staying, defers⟩ := serving
  cases waits : bus.queue with
  | nil =>
      rw [turn_of_nil hosts now waits]
      exact .of_quiet ⟨running, staying, defers⟩ (by rw [waits]; exact waits) rfl
        (upcoming_of_nil now waits) rfl rfl rfl
  | cons command queue =>
      rw [waits, List.mem_cons, not_or] at staying
      rw [turn_of_cons hosts now running waits]
      have queue_eq : queue = bus.queue.tail := by
        rw [waits]
        rfl
      have upcoming_eq := upcoming_of_cons now running waits
      have waiting_eq := waiting_of_cons waits
      cases command with
      | signal sent => exact serving.turned_signal waits hosts now host
      | password ticket device =>
          exact .of_quiet ⟨running, staying.2, defers⟩ queue_eq rfl upcoming_eq waiting_eq rfl rfl
      | jobs ticket =>
          exact .of_quiet ⟨running, staying.2, defers⟩ queue_eq rfl upcoming_eq waiting_eq rfl rfl
      | shutdown => exact absurd rfl staying.1

/-- The queue and the dispatcher are left alone, and nothing is shown. -/
structure Framed (bus left : Bus) (events : List BusEvent) : Prop where
  queue_eq : left.queue = bus.queue
  running_eq : left.isRunning = bus.isRunning
  dispatcher_eq : left.dispatcher = bus.dispatcher
  quiet : BusEvent.shownIn events = []

theorem Framed.serving {left : Bus} {events : List BusEvent} (framed : Framed bus left events)
    (serving : bus.Serving) : left.Serving where
  running := framed.running_eq.trans serving.running
  staying := framed.queue_eq ▸ serving.staying
  defers := framed.dispatcher_eq ▸ serving.defers

theorem shownIn_map_eq_nil {ε : Type} (embed : ε → BusEvent)
    (hidden : ∀ event, (embed event).shown? = none) (events : List ε) :
    BusEvent.shownIn (events.map embed) = [] := by
  rw [BusEvent.shownIn, List.filterMap_map, List.filterMap_eq_nil_iff]
  exact fun event _ => hidden event

theorem framed_perform (hosts : Hosts σ) (bus : Bus) (errand : Errand) (host : σ) :
    Framed bus (bus.perform hosts errand host).value.1
      (bus.perform hosts errand host).events := by
  cases errand with
  | reboot device decision =>
      refine ⟨rfl, rfl, rfl, ?_⟩
      simp only [perform, Act.bind_apply, Act.mapEvents_apply, Act.record_apply,
        Act.pure_apply, List.append_nil]
      exact shownIn_map_eq_nil .asked (fun _ => rfl) _
  | password ticket device =>
      refine ⟨rfl, rfl, rfl, ?_⟩
      simp only [perform, Act.bind_apply, Act.mapEvents_apply, Act.pure_apply,
        List.append_nil]
      exact shownIn_map_eq_nil .called (fun _ => rfl) _

theorem framed_work (hosts : Hosts σ) (bus : Bus) (place : Nat) (host : σ) :
    Framed bus (bus.work hosts place host).value.1 (bus.work hosts place host).events := by
  unfold work
  cases bus.errands[place]? with
  | none => exact ⟨rfl, rfl, rfl, rfl⟩
  | some errand =>
      obtain ⟨queue_eq, running_eq, dispatcher_eq, quiet⟩ :=
        framed_perform hosts { bus with errands := bus.errands.eraseIdx place } errand host
      exact ⟨queue_eq, running_eq, dispatcher_eq, quiet⟩

end Bus

namespace Connection

variable {σ : Type} {connection : Connection}

/-! ## Reading -/

/-- What reading a line, or finding none, does to a connection whose loop serves. -/
inductive ReadStep (connection : Connection) : Connection → Prop
  | rest (stopped : connection.reading ≠ .going) : ReadStep connection connection
  | finish (going : connection.reading = .going) (none : connection.unread = []) :
      ReadStep connection { connection with reading := .finished }
  | skip (line : Text.Octets) (unread : List Text.Octets) (going : connection.reading = .going)
      (next : connection.unread = line :: unread) (text : IsText line)
      (quiet : signal? line = none) : ReadStep connection { connection with unread }
  | quit (line : Text.Octets) (unread : List Text.Octets) (going : connection.reading = .going)
      (next : connection.unread = line :: unread) (broken : ¬ IsText line) :
      ReadStep connection
        { connection with unread, reading := .failed Text.notUtf8 }
  | publish (line : Text.Octets) (unread : List Text.Octets) (signal : Signal)
      (going : connection.reading = .going) (next : connection.unread = line :: unread)
      (holds : signal? line = some signal) :
      ReadStep connection
        { connection with
          unread
          bus := { connection.bus with queue := connection.bus.queue ++ [.signal signal] } }
  | request (line : Text.Octets) (unread : List Text.Octets) (device : Device)
      (going : connection.reading = .going) (next : connection.unread = line :: unread)
      (holds : WireLine.read line = .inbound (.passwordRequest device))
      (writing : connection.fault.isSome = false) :
      ReadStep connection
        { connection with
          unread
          nextTicket := connection.nextTicket + 1
          unasked := connection.unasked ++ [(connection.nextTicket, device)]
          awaited := connection.awaited ++ [connection.nextTicket] }
  | giveUp (line : Text.Octets) (unread : List Text.Octets) (device : Device)
      (going : connection.reading = .going) (next : connection.unread = line :: unread)
      (holds : WireLine.read line = .inbound (.passwordRequest device))
      (stopped : connection.fault.isSome = true) :
      ReadStep connection
        { connection with
          unread
          nextTicket := connection.nextTicket + 1
          unasked := connection.unasked ++ [(connection.nextTicket, device)]
          reading := .finished }

theorem ReadStep.length_unread {left : Connection} (step : ReadStep connection left)
    (going : left.reading = .going) :
    connection.reading = .going ∧ connection.unread.length = left.unread.length + 1 := by
  cases step with
  | rest stopped => exact absurd going stopped
  | finish => cases going
  | skip line unread start next => exact ⟨start, congrArg List.length next⟩
  | quit => cases going
  | publish line unread signal start next => exact ⟨start, congrArg List.length next⟩
  | request line unread device start next => exact ⟨start, congrArg List.length next⟩
  | giveUp => cases going

theorem read_cases (connection : Connection) :
    (connection.reading = .going ∧ connection.unread = [] ∧
      (connection.read : Act BusEvent σ Connection) =
        pure { connection with reading := .finished }) ∨
    (∃ line unread, connection.reading = .going ∧ connection.unread = line :: unread ∧
      (connection.read : Act BusEvent σ Connection) = readLine { connection with unread } line) ∨
    (connection.reading ≠ .going ∧
      (connection.read : Act BusEvent σ Connection) = pure connection) := by
  unfold read
  split
  · next going none => exact .inl ⟨going, none, rfl⟩
  · next line unread going next => exact .inr (.inl ⟨line, unread, going, next, rfl⟩)
  · next notNil notCons =>
      refine .inr (.inr ⟨fun going => ?_, rfl⟩)
      cases next : connection.unread with
      | nil => exact notNil going next
      | cons line unread => exact notCons line unread going next

theorem readStep (serving : connection.bus.Serving) (host : σ) :
    ReadStep connection (connection.read host).value.1 ∧ (connection.read host).events = [] := by
  rcases read_cases (σ := σ) connection with
    ⟨going, none, same⟩ | ⟨line, unread, going, next, same⟩ | ⟨stopped, same⟩
  · rw [same]
    exact ⟨.finish going none, rfl⟩
  · rw [same]
    unfold readLine
    cases holds : WireLine.read line with
    | blank =>
        exact ⟨.skip line unread going next (by simp [IsText, holds])
          (by simp [signal?_eq, holds]), rfl⟩
    | malformed cause =>
        exact ⟨.skip line unread going next (by simp [IsText, holds])
          (by simp [signal?_eq, holds]), rfl⟩
    | broken => exact ⟨.quit line unread going next (by simp [IsText, holds]), rfl⟩
    | inbound arrived =>
        cases arrived with
        | passwordRequest device =>
            refine ⟨?_, rfl⟩
            change ReadStep connection (request { connection with unread } device)
            simp only [request]
            split
            · next stopped => exact .giveUp line unread device going next holds stopped
            · next writing =>
                exact .request line unread device going next holds (Bool.eq_false_iff.mpr writing)
        | signal signal =>
            have sent := serving.send_eq (.signal signal)
            simp only [receive, Bus.publish, sent]
            exact ⟨.publish line unread signal going next (by simp [signal?_eq, holds]), rfl⟩
  · rw [same]
    exact ⟨.rest stopped, rfl⟩

/-! ## Asking and writing -/

theorem ask_cases (serving : connection.bus.Serving) (place : Nat) :
    connection.ask place = connection ∨
    ∃ ticket device unasked, connection.ask place =
      { connection with
        unasked
        bus := { connection.bus with
          queue := connection.bus.queue ++ [.password ticket device] } } := by
  unfold ask
  cases connection.unasked[place]? with
  | none => exact .inl rfl
  | some request =>
      obtain ⟨ticket, device⟩ := request
      simp only [serving.send_eq]
      exact .inr ⟨ticket, device, _, rfl⟩

theorem ask_frame (connection : Connection) (place : Nat) :
    (connection.ask place).reading = connection.reading ∧
      (connection.ask place).unread = connection.unread := by
  unfold ask
  cases connection.unasked[place]? with
  | none => exact ⟨rfl, rfl⟩
  | some request =>
      cases sent : connection.bus.send (.password request.1 request.2) with
      | ok bus => simp [sent]
      | error fault => simp [sent]

/-- The writer has its own part of a connection, and does not start again once it stopped. -/
theorem write_frame (connection : Connection) (failure : Option String) :
    ∃ awaited replies fault,
      connection.write failure = { connection with awaited, replies, fault } ∧
      (connection.fault.isSome → fault.isSome) := by
  unfold write
  split
  · next awaits =>
      split
      · exact ⟨_, _, _, rfl, id⟩
      · exact ⟨_, _, _, rfl, fun _ => rfl⟩
      · split
        · exact ⟨_, _, _, rfl, id⟩
        · exact ⟨_, _, _, rfl, fun _ => rfl⟩
  · exact ⟨_, _, _, rfl, id⟩

end Connection

end DiskWarden
