import DiskWarden.Proofs.Bus.Turns

/-!
# Handles, the loop and its workers in any order

The handles of a loop are copies of one sender, so what they do together is one list of requests
that are made while the loop takes its turns and the workers settle their errands.  Beside every
such run stands a book that knows of requests and times only: requests wait in the order in which
they got through and are taken from the front, until a shutdown is met.  The loop has done
exactly what its book says.
-/

namespace DiskWarden

namespace Bus

/-- What a handle asks of the loop. -/
inductive Request
  | publish (signal : Signal)
  | acquirePassword (device : Device)
  | activeJobs
  | shutdown
deriving DecidableEq, Repr

namespace Request

def command (ticket : Ticket) : Request → Command
  | publish signal => .signal signal
  | acquirePassword device => .password ticket device
  | activeJobs => .jobs ticket
  | shutdown => .shutdown

def signal? : Request → Option Signal
  | publish signal => some signal
  | acquirePassword _ => none
  | activeJobs => none
  | shutdown => none

/-- The request that a command carries out. -/
def ofCommand : Command → Request
  | .signal signal => publish signal
  | .password _ device => acquirePassword device
  | .jobs _ => activeJobs
  | .shutdown => shutdown

theorem ofCommand_command (ticket : Ticket) (request : Request) :
    ofCommand (request.command ticket) = request := by
  cases request <;> rfl

end Request

/-- The published notifications among some requests. -/
def published (requests : List Request) : List Signal := requests.filterMap Request.signal?

/-- The commands of requests that were queued one behind the other. -/
def commands (first : Ticket) : List Request → List Command
  | [] => []
  | request :: requests => request.command first :: commands (first + 1) requests

theorem commands_concat (first : Ticket) (requests : List Request) (request : Request) :
    commands first (requests ++ [request]) =
      commands first requests ++ [request.command (first + requests.length)] := by
  induction requests generalizing first with
  | nil => rfl
  | cons head rest inductionHypothesis =>
      simp only [List.cons_append, commands, inductionHypothesis, List.length_cons]
      rw [Nat.add_assoc, Nat.add_comm 1]

theorem commands_eq_cons {first : Ticket} {requests : List Request} {command : Command}
    {queue : List Command} (front : commands first requests = command :: queue) :
    ∃ rest, requests = .ofCommand command :: rest ∧
      (Request.ofCommand command).command first = command ∧
      commands (first + 1) rest = queue := by
  cases requests with
  | nil => cases front
  | cons request rest =>
      obtain ⟨head, tail⟩ := List.cons.inj front
      have same : Request.ofCommand command = request := by
        rw [← head, Request.ofCommand_command]
      rw [same]
      exact ⟨rest, rfl, head, tail⟩

theorem length_commands (first : Ticket) (requests : List Request) :
    (commands first requests).length = requests.length := by
  induction requests generalizing first with
  | nil => rfl
  | cons head rest inductionHypothesis =>
      simp only [commands, List.length_cons, inductionHypothesis]

end Bus

/-- A loop, and the requests that it has accepted so far. The place of a request among them is
its ticket. -/
structure Exchange where
  bus : Bus
  accepted : List Bus.Request

namespace Exchange

open Bus

variable {σ : Type}

def start (dispatcher : Dispatcher) : Exchange := ⟨Bus.start dispatcher, []⟩

/-- A handle makes a request, which gets through if the loop still runs. -/
def request (exchange : Exchange) (request : Request) : Exchange :=
  match exchange.bus.send (request.command exchange.accepted.length) with
  | .ok bus => ⟨bus, exchange.accepted ++ [request]⟩
  | .error _ => exchange

/-- A move of a handle, of the loop or of a worker. -/
inductive Move
  | request (request : Request)
  | turn (now : Instant)
  | work (place : Nat)
deriving DecidableEq, Repr

def Move.isWork : Move → Bool
  | request _ => false
  | turn _ => false
  | work _ => true

def move (hosts : Hosts σ) (exchange : Exchange) : Move → Act BusEvent σ Exchange
  | .request request => pure (exchange.request request)
  | .turn now => do pure { exchange with bus := ← exchange.bus.turn hosts now }
  | .work place => do pure { exchange with bus := ← exchange.bus.work hosts place }

def run (hosts : Hosts σ) (exchange : Exchange) (moves : List Move) : Act BusEvent σ Exchange :=
  moves.foldlM (move hosts) exchange

theorem run_cons (hosts : Hosts σ) (exchange : Exchange) (move : Move) (moves : List Move) :
    exchange.run hosts (move :: moves) =
      exchange.move hosts move >>= fun left => left.run hosts moves :=
  List.foldlM_cons

theorem run_append (hosts : Hosts σ) (exchange : Exchange) (earlier later : List Move) :
    exchange.run hosts (earlier ++ later) =
      exchange.run hosts earlier >>= fun left => left.run hosts later :=
  List.foldlM_append

end Exchange

/-! ## The book of a run -/

/-- The requests that were taken, each with its time, those that wait, and whether any more are
taken. A shutdown that was met stays at the front of those that wait. -/
structure Book where
  taken : List (Instant × Bus.Request)
  waiting : List Bus.Request
  isOpen : Bool

namespace Book

open Bus

def start : Book := ⟨[], [], true⟩

/-- All requests that got through, in the order in which they did. -/
def accepted (book : Book) : List Request := book.taken.map Prod.snd ++ book.waiting

def note (book : Book) (request : Request) : Book :=
  if book.isOpen then { book with waiting := book.waiting ++ [request] } else book

def take (book : Book) (now : Instant) : Book :=
  match book.isOpen, book.waiting with
  | true, .shutdown :: _ => { book with isOpen := false }
  | true, request :: waiting => ⟨book.taken ++ [(now, request)], waiting, true⟩
  | _, _ => book

theorem take_of_empty {book : Book} (empty : book.isOpen = true → book.waiting = [])
    (now : Instant) : book.take now = book := by
  unfold take
  split
  · next opened waits => simp [empty opened] at waits
  · next opened waits => simp [empty opened] at waits
  · rfl

theorem take_of_cons {book : Book} {request : Request} {waiting : List Request}
    (opened : book.isOpen = true) (waits : book.waiting = request :: waiting)
    (other : request ≠ .shutdown) (now : Instant) :
    book.take now = ⟨book.taken ++ [(now, request)], waiting, true⟩ := by
  unfold take
  rw [opened, waits]
  cases request with
  | shutdown => exact absurd rfl other
  | publish signal => rfl
  | acquirePassword device => rfl
  | activeJobs => rfl

theorem take_of_shutdown {book : Book} {behind : List Request} (opened : book.isOpen = true)
    (waits : book.waiting = .shutdown :: behind) (now : Instant) :
    book.take now = { book with isOpen := false } := by
  unfold take
  rw [opened, waits]

/-- Workers do not come into the book. -/
def move (book : Book) : Exchange.Move → Book
  | .request request => book.note request
  | .turn now => book.take now
  | .work _ => book

def run (book : Book) (moves : List Exchange.Move) : Book := moves.foldl move book

theorem run_cons (book : Book) (first : Exchange.Move) (moves : List Exchange.Move) :
    book.run (first :: moves) = (book.move first).run moves := rfl

theorem run_filter (book : Book) (moves : List Exchange.Move) :
    book.run (moves.filter fun move => !move.isWork) = book.run moves := by
  induction moves generalizing book with
  | nil => rfl
  | cons first moves inductionHypothesis =>
      cases first with
      | request request => exact inductionHypothesis (book.note request)
      | turn now => exact inductionHypothesis (book.take now)
      | work place => exact inductionHypothesis book

/-! ## Order -/

/-- No shutdown has been taken, and a book is closed by the one at the front of those that
wait. -/
structure Ordered (book : Book) : Prop where
  before : .shutdown ∉ book.taken.map Prod.snd
  closed : book.isOpen = false → ∃ behind, book.waiting = .shutdown :: behind

theorem Ordered.note {book : Book} (ordered : book.Ordered) (request : Request) :
    (book.note request).Ordered := by
  unfold Book.note
  split
  · next opened =>
      refine ⟨ordered.before, fun closed => ?_⟩
      rw [opened] at closed
      cases closed
  · exact ordered

theorem Ordered.take {book : Book} (ordered : book.Ordered) (now : Instant) :
    (book.take now).Ordered := by
  unfold Book.take
  split
  · next behind opened waits => exact ⟨ordered.before, fun _ => ⟨behind, waits⟩⟩
  · next request waiting other opened waits =>
      refine ⟨?_, Bool.noConfusion⟩
      rw [List.map_append, List.mem_append, not_or]
      refine ⟨ordered.before, fun last => ?_⟩
      exact other (List.mem_singleton.mp last).symm
  · exact ordered

theorem ordered_start : start.Ordered := ⟨List.not_mem_nil, Bool.noConfusion⟩

theorem Ordered.run {book : Book} (ordered : book.Ordered) (moves : List Exchange.Move) :
    (book.run moves).Ordered := by
  induction moves generalizing book with
  | nil => exact ordered
  | cons first moves inductionHypothesis =>
      cases first with
      | request request => exact inductionHypothesis (ordered.note request)
      | turn now => exact inductionHypothesis (ordered.take now)
      | work place => exact inductionHypothesis ordered

/-- What a closed book has taken is what got through before the first shutdown. -/
theorem Ordered.taken_eq {book : Book} (ordered : book.Ordered) (closed : book.isOpen = false) :
    book.taken.map Prod.snd = book.accepted.takeWhile (· ≠ .shutdown) := by
  obtain ⟨behind, waits⟩ := ordered.closed closed
  rw [accepted, waits, List.takeWhile_append_of_pos, List.takeWhile_cons_of_neg, List.append_nil]
  · simp
  · intro request member
    refine decide_eq_true fun same => ordered.before ?_
    rw [← same]
    exact member

end Book

/-! ## The loop follows its book -/

namespace Bus

open Dispatcher

/-- The notifications among taken requests. -/
def timedSignals (taken : List (Instant × Request)) : List (Instant × Signal) :=
  taken.filterMap fun entry => entry.2.signal?.map (entry.1, ·)

theorem map_snd_timedSignals (taken : List (Instant × Request)) :
    (timedSignals taken).map Prod.snd = published (taken.map Prod.snd) := by
  unfold timedSignals published
  rw [List.map_filterMap, List.filterMap_map]
  congr 1
  funext entry
  obtain ⟨now, request⟩ := entry
  cases request <;> rfl

theorem timedSignals_append (earlier later : List (Instant × Request)) :
    timedSignals (earlier ++ later) = timedSignals earlier ++ timedSignals later :=
  List.filterMap_append

/-- The answer to the request at a place: if it asks for the jobs, those that are in flight once
the notifications taken before it are dispatched. -/
def snapshot? {σ : Type} (desk : Desk σ) (dispatcher : Dispatcher) (host : σ)
    (taken : List (Instant × Request)) (place : Nat) : Option (List Job) :=
  match taken[place]? with
  | some (_, .activeJobs) =>
      some (dispatchAll desk dispatcher (timedSignals (taken.take place))
        host).value.1.registry.sortedJobs
  | _ => none

theorem snapshot?_concat {σ : Type} (desk : Desk σ) (dispatcher : Dispatcher) (host : σ)
    (taken : List (Instant × Request)) (now : Instant) (request : Request) (place : Nat) :
    snapshot? desk dispatcher host (taken ++ [(now, request)]) place =
      if taken.length = place ∧ request = .activeJobs then
        some (dispatchAll desk dispatcher (timedSignals taken) host).value.1.registry.sortedJobs
      else snapshot? desk dispatcher host taken place := by
  unfold snapshot?
  rcases Nat.lt_trichotomy place taken.length with earlier | last | later
  · have different : taken.length ≠ place := Nat.ne_of_gt earlier
    rw [List.getElem?_append_left earlier, List.take_append_of_le_length (Nat.le_of_lt earlier),
      if_neg fun both => different both.1]
  · subst last
    rw [List.getElem?_concat_length, List.take_left, List.getElem?_eq_none (Nat.le_refl _)]
    cases request <;> simp
  · have none : (taken ++ [(now, request)]).length ≤ place := by
      rw [List.length_append]
      exact later
    rw [List.getElem?_eq_none none, List.getElem?_eq_none (Nat.le_of_lt later),
      if_neg fun both => Nat.ne_of_lt later both.1]

end Bus

namespace Exchange

open Bus Dispatcher

variable {σ : Type} {desk : Desk σ} {hosts : Hosts σ} {dispatcher : Dispatcher} {book : Book}
  {reached : Exchange} {shown : List DeskEvent}

/-- A loop has accepted what its book says, keeps in its queue what waits there, and has
dispatched the notifications that were taken, whoever would have been asked; each request for
the jobs was answered by the jobs at its turn. -/
structure Follows (desk : Desk σ) (dispatcher : Dispatcher) (book : Book) (reached : Exchange)
    (shown : List DeskEvent) : Prop where
  accepted_eq : reached.accepted = book.accepted
  running_eq : reached.bus.isRunning = book.isOpen
  queue_eq : reached.bus.queue =
    if book.isOpen then commands book.taken.length book.waiting else []
  defers : reached.bus.dispatcher.defersReboots = true
  dispatched_eq : ∀ host,
    (dispatchAll desk (Bus.start dispatcher).dispatcher (timedSignals book.taken) host).value =
        (reached.bus.dispatcher, host) ∧
      (dispatchAll desk (Bus.start dispatcher).dispatcher (timedSignals book.taken) host).events =
        shown
  snapshots_eq : ∀ host place, reached.bus.snapshots.get? place =
    snapshot? desk (Bus.start dispatcher).dispatcher host book.taken place

theorem follows_start (desk : Desk σ) (dispatcher : Dispatcher) :
    Follows desk dispatcher .start (start dispatcher) [] where
  accepted_eq := rfl
  running_eq := rfl
  queue_eq := rfl
  defers := rfl
  dispatched_eq _ := ⟨rfl, rfl⟩
  snapshots_eq _ _ := rfl

theorem Follows.request (follows : Follows desk dispatcher book reached shown)
    (request : Request) :
    Follows desk dispatcher (book.note request) (reached.request request) shown := by
  unfold Exchange.request Book.note Bus.send
  rw [follows.running_eq]
  by_cases opened : book.isOpen = true
  · have place : reached.accepted.length = book.taken.length + book.waiting.length := by
      rw [follows.accepted_eq, Book.accepted, List.length_append, List.length_map]
    have queue_eq := follows.queue_eq
    rw [if_pos opened] at queue_eq
    rw [if_pos opened, if_pos opened]
    refine ⟨?_, rfl, ?_, follows.defers, follows.dispatched_eq, follows.snapshots_eq⟩
    · rw [follows.accepted_eq]
      exact List.append_assoc _ _ _
    · rw [if_pos opened, commands_concat, queue_eq, place]
  · rw [if_neg opened, if_neg opened]
    exact follows

/-- The loop takes a request that is no shutdown. -/
theorem Follows.advance (follows : Follows desk dispatcher book reached shown)
    (opened : book.isOpen = true) {request : Request} {waiting : List Request}
    (waits : book.waiting = request :: waiting) (other : request ≠ .shutdown) (now : Instant)
    {left : Bus} {new : List DeskEvent} (running : left.isRunning = true)
    (queue_eq : left.queue = commands (book.taken.length + 1) waiting)
    (defers : left.dispatcher.defersReboots = true)
    (dispatched_eq : ∀ host,
      (dispatchAll desk reached.bus.dispatcher (timedSignals [(now, request)]) host).value =
          (left.dispatcher, host) ∧
        (dispatchAll desk reached.bus.dispatcher (timedSignals [(now, request)]) host).events = new)
    (snapshots_eq : ∀ place, left.snapshots.get? place =
      if book.taken.length = place ∧ request = .activeJobs then
        some reached.bus.dispatcher.registry.sortedJobs
      else reached.bus.snapshots.get? place) :
    Follows desk dispatcher (book.take now) { reached with bus := left } (shown ++ new) := by
  rw [Book.take_of_cons opened waits other]
  refine ⟨?_, running, ?_, defers, fun host => ?_, fun host place => ?_⟩
  · rw [follows.accepted_eq, Book.accepted, Book.accepted, waits, List.map_append,
      List.append_assoc]
    rfl
  · rw [if_pos rfl, queue_eq, List.length_append, List.length_singleton]
  · rw [timedSignals_append, dispatchAll_append, Act.bind_apply, (follows.dispatched_eq host).1,
      (follows.dispatched_eq host).2, (dispatched_eq host).1, (dispatched_eq host).2]
    exact ⟨rfl, rfl⟩
  · rw [snapshots_eq, snapshot?_concat, (follows.dispatched_eq host).1,
      follows.snapshots_eq host place]

/-- What the loop finds in its queue is what the book has at the front of those that wait. -/
theorem Follows.front (follows : Follows desk dispatcher book reached shown)
    (running : reached.bus.isRunning = true) {command : Command} {queue : List Command}
    (waits : reached.bus.queue = command :: queue) :
    book.isOpen = true ∧ ∃ waiting, book.waiting = .ofCommand command :: waiting ∧
      (Request.ofCommand command).command book.taken.length = command ∧
      queue = commands (book.taken.length + 1) waiting := by
  have opened := follows.running_eq.symm.trans running
  have queue_eq := follows.queue_eq
  rw [if_pos opened, waits] at queue_eq
  obtain ⟨waiting, next, same, rest⟩ := commands_eq_cons queue_eq.symm
  exact ⟨opened, waiting, next, same, rest.symm⟩

theorem Follows.waiting_eq_nil (follows : Follows desk dispatcher book reached shown)
    (idle : reached.bus.queue = []) (opened : book.isOpen = true) : book.waiting = [] := by
  have queue_eq := follows.queue_eq
  rw [idle, if_pos opened] at queue_eq
  have length_eq := congrArg List.length queue_eq
  rw [length_commands] at length_eq
  exact List.eq_nil_of_length_eq_zero length_eq.symm

theorem Follows.turn (follows : Follows desk dispatcher book reached shown) {now : Instant}
    {left : Bus} {new : List DeskEvent} (step : TurnStep desk now reached.bus left new) :
    Follows desk dispatcher (book.take now) { reached with bus := left } (shown ++ new) := by
  cases step with
  | rest idle =>
      have empty : book.isOpen = true → book.waiting = [] := by
        intro opened
        exact follows.waiting_eq_nil (idle (follows.running_eq.trans opened)) opened
      rw [Book.take_of_empty empty, List.append_nil]
      exact follows
  | signal sent queue dispatched left new running waits defers dispatch_eq =>
      obtain ⟨opened, waiting, next, -, rest⟩ := follows.front running waits
      refine follows.advance opened next Request.noConfusion now running rest defers
        (fun host => ?_) fun place => ?_
      · change (dispatchAll desk reached.bus.dispatcher [(now, sent)] host).value = _ ∧
          (dispatchAll desk reached.bus.dispatcher [(now, sent)] host).events = _
        rw [dispatchAll_cons, Act.bind_apply, (dispatch_eq host).1, (dispatch_eq host).2]
        exact ⟨rfl, List.append_nil new⟩
      · rw [if_neg fun both => Request.noConfusion both.2]
  | password ticket device queue running waits =>
      obtain ⟨opened, waiting, next, -, rest⟩ := follows.front running waits
      refine follows.advance opened next Request.noConfusion now running rest follows.defers
        (fun host => ⟨rfl, rfl⟩) fun place => ?_
      rw [if_neg fun both => Request.noConfusion both.2]
  | jobs ticket queue running waits =>
      obtain ⟨opened, waiting, next, same, rest⟩ := follows.front running waits
      refine follows.advance opened next Request.noConfusion now running rest follows.defers
        (fun host => ⟨rfl, rfl⟩) fun place => ?_
      cases same
      rw [Table.get?_put]
      simp only [Request.ofCommand, and_true]
  | shutdown queue running waits =>
      obtain ⟨opened, waiting, next, -, -⟩ := follows.front running waits
      rw [Book.take_of_shutdown opened next, List.append_nil]
      exact ⟨follows.accepted_eq, rfl, rfl, follows.defers, follows.dispatched_eq,
        follows.snapshots_eq⟩

theorem Follows.move (follows : Follows desk dispatcher book reached shown)
    (same : hosts.desk = desk) (move : Move) (host : σ) :
    Follows desk dispatcher (book.move move) (reached.move hosts move host).value.1
      (shown ++ BusEvent.shownIn (reached.move hosts move host).events) := by
  subst same
  cases move with
  | request request =>
      have left := follows.request request
      rw [← List.append_nil shown] at left
      exact left
  | turn now =>
      obtain ⟨left, new, step, turn_eq⟩ := exists_turnStep hosts now follows.defers
      simp only [Exchange.move, Act.bind_apply, Act.pure_apply, List.append_nil, turn_eq host]
      exact follows.turn step
  | work place =>
      obtain ⟨⟨errands, replies, frame⟩, quiet⟩ := work_frame hosts reached.bus place host
      simp only [Exchange.move, Act.bind_apply, Act.pure_apply, List.append_nil, quiet, frame]
      obtain ⟨accepted_eq, running_eq, queue_eq, defers, dispatched_eq, snapshots_eq⟩ := follows
      exact ⟨accepted_eq, running_eq, queue_eq, defers, dispatched_eq, snapshots_eq⟩

theorem Follows.run (follows : Follows desk dispatcher book reached shown)
    (same : hosts.desk = desk) (moves : List Move) (host : σ) :
    Follows desk dispatcher (book.run moves) (reached.run hosts moves host).value.1
      (shown ++ BusEvent.shownIn (reached.run hosts moves host).events) := by
  induction moves generalizing book reached shown host with
  | nil => exact (List.append_nil shown).symm ▸ follows
  | cons first moves inductionHypothesis =>
      have moved := follows.move same first host
      have left := inductionHypothesis moved (reached.move hosts first host).value.2
      rw [run_cons, Act.bind_apply, BusEvent.shownIn, List.filterMap_append, ← List.append_assoc]
      exact left

end Exchange

end DiskWarden
