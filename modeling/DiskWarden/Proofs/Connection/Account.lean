import DiskWarden.Proofs.Connection.Moves

/-!
# The account of a connection

After every order of moves, the notifications of the lines read so far have been dispatched or
wait in the queue, each once and in the order of the lines.  The reader is at work, or has left
at one of three points: behind the last line, behind a line that is no text, or behind a password
request that came after the writer had stopped.
-/

namespace DiskWarden.Connection

open Dispatcher WireLine

variable {σ : Type} {desk : Desk σ} {hosts : Hosts σ} {bus : Bus} {lines : List Text.Octets}
  {connection reached : Connection} {shown : List DeskEvent} {read : List Text.Octets}
  {dispatched : List (Instant × Signal)}

/-- Where the reader is once it has read some lines. -/
inductive HasRead (reached : Connection) (read : List Text.Octets) : Prop
  | going (going : reached.reading = .going) (text : ∀ line ∈ read, IsText line)
  | ended (finished : reached.reading = .finished) (none : reached.unread = [])
      (text : ∀ line ∈ read, IsText line)
  | unheard (earlier : List Text.Octets) (line : Text.Octets) (device : Device)
      (finished : reached.reading = .finished) (split : read = earlier ++ [line])
      (holds : WireLine.read line = .inbound (.passwordRequest device))
      (stopped : reached.fault.isSome) (text : ∀ line ∈ earlier, IsText line)
  | broken (earlier : List Text.Octets) (line : Text.Octets)
      (failed : reached.reading = .failed Text.notUtf8) (split : read = earlier ++ [line])
      (broken : ¬ IsText line) (text : ∀ line ∈ earlier, IsText line)

/-- A connection over a loop has come to a point where some lines are read and some
notifications are dispatched. -/
structure Account (desk : Desk σ) (bus : Bus) (lines : List Text.Octets) (reached : Connection)
    (shown : List DeskEvent) (read : List Text.Octets) (dispatched : List (Instant × Signal)) :
    Prop where
  serving : reached.bus.Serving
  lines_eq : lines = read ++ reached.unread
  signals_eq : dispatched.map Prod.snd ++ reached.bus.waiting =
    bus.waiting ++ WireLine.signals read
  dispatched_eq : ∀ host,
    (dispatchAll desk bus.dispatcher dispatched host).value = (reached.bus.dispatcher, host) ∧
      (dispatchAll desk bus.dispatcher dispatched host).events = shown
  reader : HasRead reached read

theorem Account.start (serving : bus.Serving) (firstTicket : Ticket) (input : Text.Octets) :
    Account desk bus (Text.lines input) (start bus firstTicket input) [] [] [] where
  serving := serving
  lines_eq := rfl
  signals_eq := (List.append_nil _).symm
  dispatched_eq _ := ⟨rfl, rfl⟩
  reader := .going rfl fun _ member => absurd member List.not_mem_nil

theorem HasRead.text (hasRead : HasRead reached read) (going : reached.reading = .going) :
    ∀ line ∈ read, IsText line := by
  cases hasRead with
  | going _ text => exact text
  | ended finished =>
      rw [going] at finished
      cases finished
  | unheard _ _ _ finished =>
      rw [going] at finished
      cases finished
  | broken _ _ failed =>
      rw [going] at failed
      cases failed

theorem text_concat {line : Text.Octets} (text : ∀ line ∈ read, IsText line)
    (last : IsText line) : ∀ other ∈ read ++ [line], IsText other := by
  intro other member
  rcases List.mem_append.mp member with earlier | same
  · exact text other earlier
  · rw [List.mem_singleton.mp same]
    exact last

theorem signals_concat (read : List Text.Octets) (line : Text.Octets) :
    WireLine.signals (read ++ [line]) = WireLine.signals read ++ (signal? line).toList := by
  unfold WireLine.signals
  rw [List.filterMap_append]
  cases holds : signal? line <;> simp [holds]

theorem Account.readStep {left : Connection}
    (account : Account desk bus lines reached shown read dispatched)
    (step : ReadStep reached left) :
    ∃ read', Account desk bus lines left shown read' dispatched := by
  obtain ⟨serving, lines_eq, signals_eq, dispatched_eq, reader⟩ := account
  have moved {line : Text.Octets} {unread : List Text.Octets}
      (next : reached.unread = line :: unread) : lines = read ++ [line] ++ unread := by
    rw [lines_eq, next, List.append_assoc]
    rfl
  cases step with
  | rest stopped => exact ⟨read, serving, lines_eq, signals_eq, dispatched_eq, reader⟩
  | finish going none =>
      have text := reader.text going
      exact ⟨read, serving, lines_eq, signals_eq, dispatched_eq, .ended rfl none text⟩
  | skip line unread going next text quiet =>
      refine ⟨read ++ [line], serving, moved next, ?_, dispatched_eq,
        .going going (text_concat (reader.text going) text)⟩
      rw [signals_concat, quiet]
      exact signals_eq.trans (congrArg _ (List.append_nil _).symm)
  | quit line unread going next broken =>
      refine ⟨read ++ [line], serving, moved next, ?_, dispatched_eq,
        .broken read line rfl rfl broken (reader.text going)⟩
      rw [signals_concat, signal?_of_not_isText broken]
      exact signals_eq.trans (congrArg _ (List.append_nil _).symm)
  | publish line unread signal going next holds =>
      have text : IsText line := by
        by_contra broken
        rw [signal?_of_not_isText broken] at holds
        cases holds
      -- the notification moves from the lines to the queue: the sum of both stays the same
      refine ⟨read ++ [line], serving.append Command.noConfusion, moved next, ?_, dispatched_eq,
        .going going (text_concat (reader.text going) text)⟩
      rw [signals_concat, holds, ← List.append_assoc, ← signals_eq, List.append_assoc]
      simp [Bus.waiting, Command.signal?]
  | request line unread device going next holds writing =>
      refine ⟨read ++ [line], serving, moved next, ?_, dispatched_eq,
        .going going (text_concat (reader.text going) (by simp [IsText, holds]))⟩
      rw [signals_concat, signal?_eq, holds]
      exact signals_eq.trans (congrArg _ (List.append_nil _).symm)
  | giveUp line unread device going next holds stopped =>
      refine ⟨read ++ [line], serving, moved next, ?_, dispatched_eq,
        .unheard read line device rfl rfl holds stopped (reader.text going)⟩
      rw [signals_concat, signal?_eq, holds]
      exact signals_eq.trans (congrArg _ (List.append_nil _).symm)

/-- The other parts leave the reader where it is. -/
theorem HasRead.frame {left : Connection} (hasRead : HasRead reached read)
    (reading_eq : left.reading = reached.reading) (unread_eq : left.unread = reached.unread)
    (stays : reached.fault.isSome → left.fault.isSome) : HasRead left read := by
  cases hasRead with
  | going going text => exact .going (reading_eq.trans going) text
  | ended finished none text => exact .ended (reading_eq.trans finished) (unread_eq.trans none) text
  | unheard earlier line device finished split holds stopped text =>
      exact .unheard earlier line device (reading_eq.trans finished) split holds (stays stopped)
        text
  | broken earlier line failed split broken text =>
      exact .broken earlier line (reading_eq.trans failed) split broken text

/-- What a move makes the loop dispatch. -/
def upcoming (connection : Connection) : Move → List (Instant × Signal)
  | .turn now => connection.bus.upcoming now
  | _ => []

theorem Account.turn (account : Account hosts.desk bus lines reached shown read dispatched)
    {now : Instant} {value : Bus × σ} {events : List BusEvent}
    (turned : Bus.Turned hosts.desk now reached.bus value events) :
    Account hosts.desk bus lines { reached with bus := value.1 }
      (shown ++ BusEvent.shownIn events) read (dispatched ++ reached.bus.upcoming now) := by
  obtain ⟨serving, lines_eq, signals_eq, dispatched_eq, reader⟩ := account
  refine ⟨turned.serving, lines_eq, ?_, fun host => ?_, reader.frame rfl rfl id⟩
  · rw [List.map_append, List.append_assoc, ← turned.waiting_eq, signals_eq]
  · rw [dispatchAll_append, Act.bind_apply, (dispatched_eq host).1, (dispatched_eq host).2,
      (turned.dispatched_eq host).1, (turned.dispatched_eq host).2]
    exact ⟨rfl, rfl⟩

theorem Account.ask (account : Account desk bus lines reached shown read dispatched)
    (place : Nat) : Account desk bus lines (reached.ask place) shown read dispatched := by
  obtain ⟨serving, lines_eq, signals_eq, dispatched_eq, reader⟩ := account
  rcases ask_cases serving place with same | ⟨ticket, device, unasked, same⟩
  · rw [same]
    exact ⟨serving, lines_eq, signals_eq, dispatched_eq, reader⟩
  · rw [same]
    refine ⟨serving.append Command.noConfusion, lines_eq, ?_, dispatched_eq,
      reader.frame rfl rfl id⟩
    rw [← signals_eq]
    simp [Bus.waiting, Command.signal?]

theorem Account.work (account : Account desk bus lines reached shown read dispatched)
    {left : Bus} {events : List BusEvent} (framed : Bus.Framed reached.bus left events) :
    Account desk bus lines { reached with bus := left } shown read dispatched := by
  obtain ⟨serving, lines_eq, signals_eq, dispatched_eq, reader⟩ := account
  refine ⟨framed.serving serving, lines_eq, ?_, ?_, reader.frame rfl rfl id⟩
  · rw [← signals_eq, Bus.waiting, framed.queue_eq, Bus.waiting]
  · rw [framed.dispatcher_eq]
    exact dispatched_eq

theorem Account.write (account : Account desk bus lines reached shown read dispatched)
    (failure : Option String) :
    Account desk bus lines (reached.write failure) shown read dispatched := by
  obtain ⟨serving, lines_eq, signals_eq, dispatched_eq, reader⟩ := account
  obtain ⟨awaited, replies, fault, same, stays⟩ := write_frame reached failure
  rw [same]
  exact ⟨serving, lines_eq, signals_eq, dispatched_eq, reader.frame rfl rfl stays⟩

theorem Account.move (account : Account hosts.desk bus lines reached shown read dispatched)
    (move : Move) (host : σ) :
    ∃ read', Account hosts.desk bus lines (reached.move hosts move host).value.1
      (shown ++ BusEvent.shownIn (reached.move hosts move host).events) read'
      (dispatched ++ reached.upcoming move) := by
  cases move with
  | read =>
      obtain ⟨step, quiet⟩ := Connection.readStep account.serving host
      obtain ⟨read', account⟩ := account.readStep step
      refine ⟨read', ?_⟩
      simp only [Connection.move, quiet, upcoming, List.append_nil]
      exact (List.append_nil shown).symm ▸ account
  | ask place =>
      refine ⟨read, ?_⟩
      simp only [Connection.move, Act.pure_apply, upcoming, List.append_nil]
      exact (List.append_nil shown).symm ▸ account.ask place
  | turn now =>
      refine ⟨read, ?_⟩
      simp only [Connection.move, Act.bind_apply, Act.pure_apply, List.append_nil]
      exact account.turn (account.serving.turned hosts now host)
  | work place =>
      refine ⟨read, ?_⟩
      have framed := Bus.framed_work hosts reached.bus place host
      simp only [Connection.move, Act.bind_apply, Act.pure_apply, List.append_nil, framed.quiet,
        upcoming]
      exact account.work framed
  | write failure =>
      refine ⟨read, ?_⟩
      simp only [Connection.move, Act.pure_apply, upcoming, List.append_nil]
      exact (List.append_nil shown).symm ▸ account.write failure

/-! ## Runs -/

theorem run_cons (move : Move) (moves : List Move) :
    connection.run hosts (move :: moves) =
      connection.move hosts move >>= fun left => left.run hosts moves :=
  List.foldlM_cons

theorem run_append (earlier later : List Move) :
    connection.run hosts (earlier ++ later) =
      connection.run hosts earlier >>= fun left => left.run hosts later :=
  List.foldlM_append

/-- What the loop dispatches in a run, each notification with the time of its turn. -/
def dispatches (hosts : Hosts σ) (connection : Connection) : List Move → σ → List (Instant × Signal)
  | [], _ => []
  | move :: moves, host =>
      let moved := (connection.move hosts move host).value
      connection.upcoming move ++ dispatches hosts moved.1 moves moved.2

theorem Account.run_dispatches
    (account : Account hosts.desk bus lines reached shown read dispatched)
    (moves : List Move) (host : σ) :
    ∃ read', Account hosts.desk bus lines (reached.run hosts moves host).value.1
      (shown ++ BusEvent.shownIn (reached.run hosts moves host).events) read'
      (dispatched ++ reached.dispatches hosts moves host) := by
  -- what has been shown grows with the moves, so the account is taken at any point
  induction moves generalizing reached shown read dispatched host with
  | nil =>
      refine ⟨read, ?_⟩
      rw [dispatches, List.append_nil]
      exact (List.append_nil shown).symm ▸ account
  | cons move moves inductionHypothesis =>
      obtain ⟨_, moved⟩ := account.move move host
      obtain ⟨read', left⟩ :=
        inductionHypothesis moved (reached.move hosts move host).value.2
      refine ⟨read', ?_⟩
      rw [run_cons, Act.bind_apply, BusEvent.shownIn, List.filterMap_append, ← List.append_assoc,
        dispatches, ← List.append_assoc]
      exact left

theorem Account.run (account : Account hosts.desk bus lines reached shown read dispatched)
    (moves : List Move) (host : σ) :
    ∃ read' dispatched', Account hosts.desk bus lines
      (reached.run hosts moves host).value.1
      (shown ++ BusEvent.shownIn (reached.run hosts moves host).events) read' dispatched' := by
  obtain ⟨read', left⟩ := account.run_dispatches moves host
  exact ⟨read', _, left⟩

/-- The reader has left, and the loop has taken all that it was sent. -/
structure Settled (reached : Connection) : Prop where
  stopped : reached.reading ≠ .going
  empty : reached.bus.queue = []

theorem Settled.move (settled : Settled reached) {move : Move}
    (other : ∀ place, move ≠ .ask place) (host : σ) :
    Settled (reached.move hosts move host).value.1 := by
  obtain ⟨stopped, empty⟩ := settled
  cases move with
  | read =>
      rcases read_cases (σ := σ) reached with ⟨going, -, -⟩ | ⟨_, _, going, -, -⟩ | ⟨-, same⟩
      · exact absurd going stopped
      · exact absurd going stopped
      · rw [Connection.move, same]
        exact ⟨stopped, empty⟩
  | ask place => exact absurd rfl (other place)
  | turn now =>
      simp only [Connection.move, Bus.turn_of_nil hosts now empty]
      exact ⟨stopped, empty⟩
  | work place =>
      have framed := Bus.framed_work hosts reached.bus place host
      exact ⟨stopped, framed.queue_eq.trans empty⟩
  | write failure =>
      obtain ⟨awaited, replies, fault, same, -⟩ := write_frame reached failure
      simp only [Connection.move, same]
      exact ⟨stopped, empty⟩

theorem Settled.run (settled : Settled reached) {moves : List Move}
    (other : ∀ move ∈ moves, ∀ place, move ≠ .ask place) (host : σ) :
    Settled (reached.run hosts moves host).value.1 := by
  induction moves generalizing reached host with
  | nil => exact settled
  | cons move moves inductionHypothesis =>
      rw [List.forall_mem_cons] at other
      rw [run_cons, Act.bind_apply]
      exact inductionHypothesis (settled.move other.1 host) other.2 _

/-- As many reads as there are lines, and one more, bring the reader to its end. -/
theorem Account.stopped_readingMoves
    (account : Account hosts.desk bus lines reached shown read dispatched) (count : Nat)
    (enough : reached.reading = .going → reached.unread.length ≤ count) (host : σ) :
    (reached.run hosts (readingMoves count) host).value.1.reading ≠ .going := by
  induction count generalizing reached shown read dispatched host with
  | zero =>
      obtain ⟨step, -⟩ := Connection.readStep account.serving host
      -- a reader at work has taken a line, but none was left
      intro going
      obtain ⟨start, length⟩ := step.length_unread going
      have none := enough start
      omega
  | succ count inductionHypothesis =>
      obtain ⟨step, -⟩ := Connection.readStep account.serving host
      obtain ⟨_, moved⟩ := account.move .read host
      obtain ⟨_, asked⟩ := moved.move (.ask 0) (reached.read host).value.2
      rw [readingMoves, run_cons, Act.bind_apply, run_cons, Act.bind_apply]
      refine inductionHypothesis asked (fun going => ?_) _
      have frame := ask_frame (reached.read host).value.1 0
      obtain ⟨start, length⟩ := step.length_unread (frame.1.symm.trans going)
      have more := enough start
      change ((reached.read host).value.1.ask 0).unread.length ≤ count
      rw [frame.2]
      omega

/-- As many turns as commands wait settle a connection whose reader has left. -/
theorem Account.settled_turns
    (account : Account hosts.desk bus lines reached shown read dispatched) (now : Instant)
    (stopped : reached.reading ≠ .going) (count : Nat)
    (length : reached.bus.queue.length = count) (host : σ) :
    Settled (reached.run hosts (List.replicate count (.turn now)) host).value.1 := by
  induction count generalizing reached shown read dispatched host with
  | zero => exact ⟨stopped, List.eq_nil_of_length_eq_zero length⟩
  | succ count inductionHypothesis =>
      obtain ⟨_, moved⟩ := account.move (.turn now) host
      have turned := account.serving.turned hosts now host
      rw [List.replicate_succ, run_cons, Act.bind_apply]
      refine inductionHypothesis moved stopped ?_ _
      change (reached.bus.turn hosts now host).value.1.queue.length = count
      rw [turned.queue_eq, List.length_tail, length]
      rfl

/-- Every connection can be brought to its end. -/
theorem Account.exists_settled
    (account : Account hosts.desk bus lines reached shown read dispatched) (host : σ) :
    ∃ moves, Settled (reached.run hosts moves host).value.1 := by
  have stopped := account.stopped_readingMoves reached.unread.length (fun _ => Nat.le_refl _) host
  obtain ⟨_, _, moved⟩ := account.run (readingMoves reached.unread.length) host
  refine ⟨readingMoves reached.unread.length ++
    List.replicate
      (reached.run hosts (readingMoves reached.unread.length) host).value.1.bus.queue.length
      (.turn 0), ?_⟩
  rw [run_append, Act.bind_apply]
  exact moved.settled_turns 0 stopped _ rfl _

end DiskWarden.Connection
