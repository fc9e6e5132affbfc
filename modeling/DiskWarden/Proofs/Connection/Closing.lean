import DiskWarden.Proofs.Bus.Errands
import DiskWarden.Proofs.Connection.Account

/-!
# The end of a connection and of its loop

Once the reader has left and the loop is told to stop, no notification can come any more.  What
the loop has dispatched and what it will dispatch stays the same list until the loop has stopped,
and all of the list is dispatched then.  The questions about reboots are the workers' business all
the while: those put and those that wait belong to the notifications dispatched so far.
-/

namespace DiskWarden

open Dispatcher

namespace Bus

/-- A loop that is told to stop. -/
def dismiss (bus : Bus) : Bus :=
  match bus.send .shutdown with
  | .ok bus => bus
  | .error _ => bus

theorem shutdown_eq {σ : Type} (hosts : Hosts σ) (now : Instant) (bus : Bus) :
    bus.shutdown hosts now = bus.dismiss.drain hosts now >>= finishErrands hosts := rfl

theorem due_send {bus left : Bus} {command : Command} (sent : bus.send command = .ok left)
    (other : command.signal? = none) :
    left.due = bus.due ∧ left.dispatcher = bus.dispatcher ∧ left.errands = bus.errands := by
  rw [send_eq_ok sent]
  exact ⟨due_append bus other, rfl, rfl⟩

theorem dismiss_frame (bus : Bus) :
    bus.dismiss.due = bus.due ∧ bus.dismiss.dispatcher = bus.dispatcher ∧
      bus.dismiss.errands = bus.errands := by
  unfold dismiss
  cases sent : bus.send .shutdown with
  | ok left => exact due_send sent rfl
  | error fault => exact ⟨rfl, rfl, rfl⟩

end Bus

namespace Connection

variable {σ : Type} {desk : Desk σ} {hosts : Hosts σ} {bus : Bus} {lines read : List Text.Octets}
  {reached : Connection} {shown : List DeskEvent} {sent : List Signal}
  {dispatched : List (Instant × Signal)} {asked : List (String × String)}

def dismiss (connection : Connection) : Connection :=
  { connection with bus := connection.bus.dismiss }

theorem ask_bus (connection : Connection) (place : Nat) :
    (connection.ask place).bus.due = connection.bus.due ∧
      (connection.ask place).bus.dispatcher = connection.bus.dispatcher ∧
      (connection.ask place).bus.errands = connection.bus.errands := by
  unfold ask
  cases connection.unasked[place]? with
  | none => exact ⟨rfl, rfl, rfl⟩
  | some request =>
      cases sent : connection.bus.send (.password request.1 request.2) with
      | ok left =>
          simp only [sent]
          exact Bus.due_send sent rfl
      | error fault =>
          simp only [sent]
          exact ⟨trivial, trivial, trivial⟩

/-! ## Notifications -/

/-- Behind the reader's end: what the loop has dispatched and what it will dispatch. -/
structure Closing (desk : Desk σ) (bus : Bus) (sent : List Signal) (reached : Connection)
    (shown : List DeskEvent) (dispatched : List (Instant × Signal)) : Prop where
  stopped : reached.reading ≠ .going
  defers : reached.bus.dispatcher.defersReboots = true
  signals_eq : dispatched.map Prod.snd ++ reached.bus.due = sent
  dispatched_eq : ∀ host,
    (dispatchAll desk bus.dispatcher dispatched host).value = (reached.bus.dispatcher, host) ∧
      (dispatchAll desk bus.dispatcher dispatched host).events = shown

theorem Account.closing (account : Account desk bus lines reached shown read dispatched)
    (stopped : reached.reading ≠ .going) :
    Closing desk bus (bus.waiting ++ WireLine.signals read) reached.dismiss shown dispatched := by
  obtain ⟨due_eq, dispatcher_eq, -⟩ := reached.bus.dismiss_frame
  refine ⟨stopped, ?_, ?_, ?_⟩
  · exact (congrArg Dispatcher.defersReboots dispatcher_eq).trans account.serving.defers
  · rw [← account.signals_eq, ← account.serving.due_eq]
    exact congrArg _ due_eq
  · intro host
    change (dispatchAll desk bus.dispatcher dispatched host).value =
      (reached.bus.dismiss.dispatcher, host) ∧ _
    rw [dispatcher_eq]
    exact account.dispatched_eq host

theorem Closing.of_due {left : Connection}
    (closing : Closing desk bus sent reached shown dispatched)
    (reading_eq : left.reading = reached.reading) (due_eq : left.bus.due = reached.bus.due)
    (dispatcher_eq : left.bus.dispatcher = reached.bus.dispatcher) :
    Closing desk bus sent left (shown ++ []) (dispatched ++ []) where
  stopped := reading_eq ▸ closing.stopped
  defers := dispatcher_eq ▸ closing.defers
  signals_eq := by rw [List.append_nil, due_eq, closing.signals_eq]
  dispatched_eq host := by
    rw [List.append_nil, List.append_nil, dispatcher_eq]
    exact closing.dispatched_eq host

theorem Closing.move (closing : Closing hosts.desk bus sent reached shown dispatched)
    (move : Move) (host : σ) :
    Closing hosts.desk bus sent (reached.move hosts move host).value.1
      (shown ++ BusEvent.shownIn (reached.move hosts move host).events)
      (dispatched ++ reached.upcoming move) := by
  cases move with
  | read =>
      rcases read_cases (σ := σ) reached with
        ⟨going, -, -⟩ | ⟨-, -, going, -, -⟩ | ⟨-, same⟩
      · exact absurd going closing.stopped
      · exact absurd going closing.stopped
      · simp only [Connection.move, same, upcoming]
        exact closing.of_due rfl rfl rfl
  | ask place =>
      obtain ⟨due_eq, dispatcher_eq, -⟩ := ask_bus reached place
      exact closing.of_due (ask_frame reached place).1 due_eq dispatcher_eq
  | turn now =>
      obtain ⟨left, new, step, turn_eq⟩ := Bus.exists_turnStep hosts now closing.defers
      obtain ⟨defers, due_eq, dispatched_eq⟩ := step.dispatching closing.defers
      simp only [Connection.move, Act.bind_apply, Act.pure_apply, List.append_nil, turn_eq host,
        upcoming]
      refine ⟨closing.stopped, defers, ?_, fun other => ?_⟩
      · rw [List.map_append, List.append_assoc, ← due_eq, closing.signals_eq]
      · rw [dispatchAll_append, Act.bind_apply, (closing.dispatched_eq other).1,
          (closing.dispatched_eq other).2, (dispatched_eq other).1, (dispatched_eq other).2]
        exact ⟨rfl, rfl⟩
  | work place =>
      obtain ⟨⟨errands, replies, frame⟩, quiet⟩ := Bus.work_frame hosts reached.bus place host
      simp only [Connection.move, Act.bind_apply, Act.pure_apply, List.append_nil, quiet, frame,
        upcoming]
      rw [← List.append_nil shown, ← List.append_nil dispatched]
      exact closing.of_due rfl rfl rfl
  | write failure =>
      obtain ⟨awaited, replies, fault, same, -⟩ := write_frame reached failure
      simp only [Connection.move, Act.pure_apply, same, upcoming]
      exact closing.of_due rfl rfl rfl

theorem Closing.run (closing : Closing hosts.desk bus sent reached shown dispatched)
    (moves : List Move) (host : σ) :
    Closing hosts.desk bus sent (reached.run hosts moves host).value.1
      (shown ++ BusEvent.shownIn (reached.run hosts moves host).events)
      (dispatched ++ reached.dispatches hosts moves host) := by
  induction moves generalizing reached shown dispatched host with
  | nil => exact closing.of_due rfl rfl rfl
  | cons move moves inductionHypothesis =>
      have left := inductionHypothesis (closing.move move host)
        (reached.move hosts move host).value.2
      rw [run_cons, Act.bind_apply, BusEvent.shownIn, List.filterMap_append, ← List.append_assoc,
        dispatches, ← List.append_assoc]
      exact left

/-- A loop that has stopped has dispatched all that it was to dispatch. -/
theorem Closing.signals_of_stopped
    (closing : Closing desk bus sent reached shown dispatched)
    (gone : reached.bus.isRunning = false) : dispatched.map Prod.snd = sent := by
  rw [← closing.signals_eq, Bus.due_of_stopped gone, List.append_nil]

/-! ## Questions -/

/-- The questions put and those that wait are those of the notifications dispatched so far. -/
structure Offered (reached : Connection) (asked : List (String × String))
    (dispatched : List (Instant × Signal)) : Prop where
  defers : reached.bus.dispatcher.defersReboots = true
  questions : (asked ++ (Errand.offers reached.bus.errands).map fun offer => offer.2.question).Perm
    ((offersOf dispatched).map fun offer => offer.2.question)

theorem Offered.of_errands {left : Connection} (offered : Offered reached asked dispatched)
    (dispatcher_eq : left.bus.dispatcher = reached.bus.dispatcher)
    (errands_eq : left.bus.errands = reached.bus.errands) :
    Offered left (asked ++ []) (dispatched ++ []) where
  defers := dispatcher_eq ▸ offered.defers
  questions := by
    rw [List.append_nil, List.append_nil, errands_eq]
    exact offered.questions

theorem read_frame (connection : Connection) (host : σ) :
    (connection.read host).events = [] ∧
      (connection.read host).value.1.bus.dispatcher = connection.bus.dispatcher ∧
      (connection.read host).value.1.bus.errands = connection.bus.errands := by
  rcases read_cases (σ := σ) connection with ⟨-, -, same⟩ | ⟨line, unread, -, -, same⟩ | ⟨-, same⟩
  · rw [same]
    exact ⟨rfl, rfl, rfl⟩
  · rw [same]
    unfold readLine
    cases WireLine.read line with
    | blank => exact ⟨rfl, rfl, rfl⟩
    | malformed cause => exact ⟨rfl, rfl, rfl⟩
    | broken => exact ⟨rfl, rfl, rfl⟩
    | inbound arrived =>
        cases arrived with
        | signal signal =>
            simp only [receive, Bus.publish]
            cases sent : connection.bus.send (.signal signal) with
            | ok left =>
                rw [Bus.send_eq_ok sent]
                exact ⟨rfl, rfl, rfl⟩
            | error fault => exact ⟨rfl, rfl, rfl⟩
        | passwordRequest device =>
            simp only [receive, request]
            split <;> exact ⟨rfl, rfl, rfl⟩
  · rw [same]
    exact ⟨rfl, rfl, rfl⟩

theorem Offered.move (offered : Offered reached asked dispatched) (move : Move) (host : σ) :
    Offered (reached.move hosts move host).value.1
      (asked ++ (reached.move hosts move host).events.filterMap BusEvent.question?)
      (dispatched ++ reached.upcoming move) := by
  cases move with
  | read =>
      obtain ⟨quiet, dispatcher_eq, errands_eq⟩ := read_frame reached host
      simp only [Connection.move, quiet, upcoming]
      exact offered.of_errands dispatcher_eq errands_eq
  | ask place =>
      obtain ⟨-, dispatcher_eq, errands_eq⟩ := ask_bus reached place
      exact offered.of_errands dispatcher_eq errands_eq
  | turn now =>
      obtain ⟨left, new, step, turn_eq⟩ := Bus.exists_turnStep hosts now offered.defers
      have quiet := Bus.question?_turn hosts now reached.bus host
      simp only [Connection.move, Act.bind_apply, Act.pure_apply, List.append_nil, turn_eq host,
        upcoming, quiet]
      refine ⟨(step.dispatching offered.defers).defers, ?_⟩
      rw [step.offers_eq offered.defers host, offersOf_append, List.map_append, List.map_append,
        ← List.append_assoc]
      exact offered.questions.append_right _
  | work place =>
      obtain ⟨⟨errands, replies, frame⟩, -⟩ := Bus.work_frame hosts reached.bus place host
      have questions := Bus.questions_work hosts reached.bus place host
      simp only [Connection.move, Act.bind_apply, Act.pure_apply, List.append_nil, upcoming]
      refine ⟨?_, ?_⟩
      · rw [frame]
        exact offered.defers
      · rw [List.append_assoc]
        exact (questions.append_left asked).trans offered.questions
  | write failure =>
      obtain ⟨awaited, replies, fault, same, -⟩ := write_frame reached failure
      simp only [Connection.move, Act.pure_apply, same, upcoming]
      exact offered.of_errands rfl rfl

theorem Offered.run (offered : Offered reached asked dispatched) (moves : List Move) (host : σ) :
    Offered (reached.run hosts moves host).value.1
      (asked ++ (reached.run hosts moves host).events.filterMap BusEvent.question?)
      (dispatched ++ reached.dispatches hosts moves host) := by
  induction moves generalizing reached asked dispatched host with
  | nil => exact offered.of_errands rfl rfl
  | cons move moves inductionHypothesis =>
      have moved : Offered (reached.move hosts move host).value.1 _ _ := offered.move move host
      have left := inductionHypothesis moved (reached.move hosts move host).value.2
      rw [run_cons, Act.bind_apply, List.filterMap_append, ← List.append_assoc, dispatches,
        ← List.append_assoc]
      exact left

theorem Offered.dismiss (offered : Offered reached asked dispatched) :
    Offered reached.dismiss asked dispatched := by
  obtain ⟨-, dispatcher_eq, errands_eq⟩ := reached.bus.dismiss_frame
  have left : Offered reached.dismiss (asked ++ []) (dispatched ++ []) :=
    offered.of_errands dispatcher_eq errands_eq
  rw [List.append_nil, List.append_nil] at left
  exact left

/-! ## Stopping -/

theorem stopped_turns (now : Instant) (count : Nat)
    (defers : reached.bus.dispatcher.defersReboots = true)
    (stopping : reached.bus.isRunning = true →
      .shutdown ∈ reached.bus.queue ∧ reached.bus.queue.length ≤ count) (host : σ) :
    (reached.run hosts (List.replicate count (.turn now)) host).value.1.bus.isRunning = false := by
  induction count generalizing reached host with
  | zero =>
      refine eq_false_of_ne_true fun running => ?_
      obtain ⟨member, none⟩ := stopping running
      rw [List.eq_nil_of_length_eq_zero (Nat.le_zero.mp none)] at member
      cases member
  | succ count inductionHypothesis =>
      obtain ⟨left, shown, step, turn_eq⟩ := Bus.exists_turnStep hosts now defers
      rw [List.replicate_succ, run_cons, Act.bind_apply]
      simp only [Connection.move, Act.bind_apply, Act.pure_apply, turn_eq host]
      refine inductionHypothesis (step.dispatching defers).defers ?_ host
      intro goesOn
      cases step with
      | rest idle =>
          have member := (stopping goesOn).1
          rw [idle goesOn] at member
          cases member
      | signal sent queue dispatched left shown running waits =>
          obtain ⟨member, length⟩ := stopping running
          rw [waits] at member length
          exact ⟨List.mem_of_ne_of_mem Command.noConfusion member, Nat.le_of_succ_le_succ length⟩
      | password ticket device queue running waits =>
          obtain ⟨member, length⟩ := stopping running
          rw [waits] at member length
          exact ⟨List.mem_of_ne_of_mem Command.noConfusion member, Nat.le_of_succ_le_succ length⟩
      | jobs ticket queue running waits =>
          obtain ⟨member, length⟩ := stopping running
          rw [waits] at member length
          exact ⟨List.mem_of_ne_of_mem Command.noConfusion member, Nat.le_of_succ_le_succ length⟩
      | shutdown => cases goesOn

theorem shutdown_mem_dismiss (bus : Bus) (running : bus.dismiss.isRunning = true) :
    .shutdown ∈ bus.dismiss.queue := by
  unfold Bus.dismiss at running ⊢
  cases sent : bus.send .shutdown with
  | ok left =>
      rw [Bus.send_eq_ok sent]
      exact List.mem_append_right _ List.mem_cons_self
  | error fault =>
      rw [sent] at running
      rw [Bus.send, if_pos running] at sent
      cases sent

theorem run_turns (hosts : Hosts σ) (connection : Connection) (now : Instant) (count : Nat) :
    connection.run hosts (List.replicate count (.turn now)) =
      connection.bus.turns hosts now count >>= fun bus => pure { connection with bus } := by
  induction count generalizing connection with
  | zero => simp only [List.replicate_zero, run, List.foldlM_nil, Bus.turns, pure_bind]
  | succ count inductionHypothesis =>
      simp only [List.replicate_succ, run_cons, move, bind_assoc, pure_bind, inductionHypothesis,
        Bus.turns]

theorem run_works (hosts : Hosts σ) (connection : Connection) (count : Nat) :
    connection.run hosts (List.replicate count (.work 0)) =
      connection.bus.works hosts count >>= fun bus => pure { connection with bus } := by
  induction count generalizing connection with
  | zero => simp only [List.replicate_zero, run, List.foldlM_nil, Bus.works, pure_bind]
  | succ count inductionHypothesis =>
      simp only [List.replicate_succ, run_cons, move, bind_assoc, pure_bind, inductionHypothesis,
        Bus.works]

theorem running_works (count : Nat) (host : σ) :
    (reached.run hosts (List.replicate count (.work 0)) host).value.1.bus.isRunning =
      reached.bus.isRunning := by
  induction count generalizing reached host with
  | zero => rfl
  | succ count inductionHypothesis =>
      obtain ⟨⟨errands, replies, frame⟩, -⟩ := Bus.work_frame hosts reached.bus 0 host
      rw [List.replicate_succ, run_cons, Act.bind_apply, inductionHypothesis]
      change (reached.bus.work hosts 0 host).value.1.isRunning = _
      rw [frame]

/-- Stopping the loop and waiting for it and its workers is a run behind the reader's end. -/
theorem exists_shutdown_run (hosts : Hosts σ) (connection : Connection)
    (defers : connection.bus.dispatcher.defersReboots = true) (now : Instant) (host : σ) :
    ∃ later,
      let stopped := connection.dismiss.run hosts later host
      stopped.value.1.bus.isRunning = false ∧
      (connection.bus.shutdown hosts now host).value = (stopped.value.1.bus, stopped.value.2) ∧
      (connection.bus.shutdown hosts now host).events = stopped.events := by
  let turns : List Move := List.replicate connection.dismiss.bus.queue.length (.turn now)
  let drained := connection.dismiss.bus.drain hosts now host
  refine ⟨turns ++ List.replicate drained.value.1.errands.length (.work 0), ?_⟩
  rw [run_append, Act.bind_apply]
  refine ⟨?_, ?_⟩
  · rw [running_works]
    refine stopped_turns now _ ?_ (fun running => ⟨?_, Nat.le_refl _⟩) host
    · exact (congrArg Dispatcher.defersReboots connection.bus.dismiss_frame.2.1).trans defers
    · exact shutdown_mem_dismiss connection.bus running
  · have turned : connection.dismiss.run hosts turns = connection.dismiss.bus.drain hosts now >>=
        fun bus => pure { connection.dismiss with bus } :=
      run_turns hosts connection.dismiss now _
    rw [turned, run_works, Bus.shutdown_eq]
    simp only [Act.bind_apply, Act.pure_apply, List.append_nil]
    exact ⟨rfl, rfl⟩

end Connection

end DiskWarden
