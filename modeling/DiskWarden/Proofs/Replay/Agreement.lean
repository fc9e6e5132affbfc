import DiskWarden.Proofs.Connection.Closing
import DiskWarden.Proofs.Connection.Lines

/-!
# A replay reproduces a connection

A peer is served until its reader leaves, then the loop is stopped.  A replay of the same input,
with the times of the loop's turns for its clock, dispatches the same notifications at the same
times.  Only the questions about reboots differ in their place: the replay puts them at once, and
the loop leaves them to its workers.
-/

namespace DiskWarden

open Dispatcher WireLine Connection

/-- The lines end a replay where they end the reading of a connection. -/
theorem Connection.Account.failed_iff {σ : Type} {desk : Desk σ} {bus : Bus}
    {lines read : List Text.Octets} {reached : Connection} {shown : List DeskEvent}
    {dispatched : List (Instant × Signal)}
    (account : Account desk bus lines reached shown read dispatched)
    (stopped : reached.reading ≠ .going) (writing : reached.fault = none) :
    reached.reading = .failed Text.notUtf8 ↔ ¬ ∀ line ∈ lines, IsText line := by
  rw [account.lines_eq]
  cases account.reader with
  | going going => exact absurd going stopped
  | ended finished none text =>
      rw [finished, none, List.append_nil]
      exact ⟨Reading.noConfusion, fun broken => absurd text broken⟩
  | unheard _ _ _ _ _ _ stopped =>
      rw [writing] at stopped
      cases stopped
  | broken earlier line failed split broken text =>
      refine ⟨fun _ all => broken (all line ?_), fun _ => failed⟩
      rw [split]
      exact List.mem_append_left _ (List.mem_append_right _ List.mem_cons_self)

namespace Replay

variable {σ τ : Type}

/-- The clock of a replay tells the times at which some notifications were dispatched. -/
def Tells (clock : Nat → Instant) (dispatched : List (Instant × Signal)) : Prop :=
  ∀ place entry, dispatched[place]? = some entry → clock place = entry.1

theorem timed_eq (clock : Nat → Instant) (count : Nat) (dispatched : List (Instant × Signal))
    (tells : ∀ place entry, dispatched[place]? = some entry → clock (count + place) = entry.1) :
    timed clock count (dispatched.map Prod.snd) = dispatched := by
  induction dispatched generalizing count with
  | nil => rfl
  | cons first later inductionHypothesis =>
      have now := tells 0 first rfl
      have rest := inductionHypothesis (count + 1) fun place entry found => by
        rw [Nat.add_assoc, Nat.add_comm 1]
        exact tells (place + 1) entry found
      rw [List.map_cons, timed, rest]
      exact congrArg (· :: later) (Prod.ext now rfl)

/-- A replay has come to what a connection came to that was served and whose loop then stopped:
the same notifications at the same times, the same registry, the same events reboots aside, and
the same questions, of which some may still wait for a worker of the loop. -/
structure Reproduces (desk : Desk τ) (window : Nat) (host : τ)
    (replayed : Traced DeskEvent (Replay × τ)) (dispatched : List (Instant × Signal))
    (served stopped : Connection) (events : List BusEvent) : Prop where
  dispatched_eq : (replayed.value.1.dispatcher, replayed.value.2) =
      (dispatchAll desk (.new window) dispatched host).value ∧
    replayed.events = (dispatchAll desk (.new window) dispatched host).events
  signals_eq : replayed.value.1.signals = dispatched.length
  broken_iff : replayed.value.1.isBroken = true ↔ served.reading = .failed Text.notUtf8
  registry_eq : replayed.value.1.dispatcher.registry = stopped.bus.dispatcher.registry
  plain_eq : replayed.events.filter DeskEvent.isPlain = BusEvent.shownIn events
  questions : (events.filterMap BusEvent.question? ++
      (Errand.offers stopped.bus.errands).map fun offer => offer.2.question).Perm
    (replayed.events.filterMap DeskEvent.question?)

/-- A replay reproduces a loop that has dispatched the notifications of the same lines. -/
theorem reproduces_of_dispatched {loopDesk : Desk σ} {loopHost : σ} {desk : Desk τ}
    {clock : Nat → Instant} {window : Nat} {input : Text.Octets} {host : τ}
    {dispatched : List (Instant × Signal)} {served stopped : Connection} {events : List BusEvent}
    (signals_eq : dispatched.map Prod.snd = WireLine.signals (textOf (Text.lines input)))
    (tells : Tells clock dispatched)
    (failed_iff : served.reading = .failed Text.notUtf8 ↔ ¬ ∀ line ∈ Text.lines input, IsText line)
    (loop_eq :
      (dispatchAll loopDesk (Bus.start (.new window)).dispatcher dispatched loopHost).value =
          (stopped.bus.dispatcher, loopHost) ∧
        (dispatchAll loopDesk (Bus.start (.new window)).dispatcher dispatched loopHost).events =
          BusEvent.shownIn events)
    (questions : (events.filterMap BusEvent.question? ++
        (Errand.offers stopped.bus.errands).map fun offer => offer.2.question).Perm
      ((offersOf dispatched).map fun offer => offer.2.question)) :
    Reproduces desk window host (readAll desk clock (.new window) input host) dispatched served
      stopped events := by
  have timed_eq : timed clock 0 (WireLine.signals (textOf (Text.lines input))) = dispatched := by
    rw [← signals_eq]
    refine timed_eq clock 0 dispatched fun place entry found => ?_
    rw [Nat.zero_add]
    exact tells place entry found
  obtain ⟨value_eq, events_eq, counted, whole_iff⟩ :=
    dispatches_readAll desk clock (.new window) input host
  rw [timed_eq] at value_eq events_eq
  -- the two dispatchers differ in whether they defer, which leaves these as they are
  have direct := dispatchAll_left desk (.new window) host dispatched
  have deferred :=
    dispatchAll_left loopDesk (Bus.start (.new window)).dispatcher loopHost dispatched
  refine ⟨⟨value_eq, events_eq⟩, ?_, ?_, ?_, ?_, ?_⟩
  · rw [counted, Nat.zero_add, ← signals_eq, List.length_map]
  · rw [failed_iff, ← whole_iff, Bool.not_eq_false]
  · have left := congrArg (fun reached => reached.1.registry) value_eq
    have loopLeft := congrArg (fun reached => reached.1.registry) loop_eq.1
    rw [direct.1] at left
    rw [deferred.1] at loopLeft
    exact left.trans loopLeft
  · rw [events_eq, direct.2, ← loop_eq.2, (dispatchAll_of_defers _ _ _ rfl _).2]
    rfl
  · rw [events_eq, question?_dispatchAll desk (.new window) host rfl]
    exact questions

/-- In whatever order the parts of a connection move, before and behind the end of its reader:
once the loop that was told to stop has stopped, it has dispatched the notifications of the lines
in front of the first that is no text, and a replay with the same times reproduces that.  The loop
can always be stopped, and to stop it and wait for its workers is one way of that. -/
theorem reproduces_connection (hosts : Hosts σ) (answer : hosts.Answer) (host : σ) (window : Nat)
    (firstTicket : Ticket) (input : Text.Octets) (moves : List Move)
    (writable : ∀ reason, .write (some reason) ∉ moves)
    (ended : ((Connection.start (.start (.new window)) firstTicket input).run hosts moves
      host).value.1.reading ≠ .going) :
    let fresh := Connection.start (.start (.new window)) firstTicket input
    let serving := fresh.run hosts moves host
    let served := serving.value.1
    (∀ later,
      let stopping := served.dismiss.run hosts later serving.value.2
      let stopped := stopping.value.1
      let events := serving.events ++ stopping.events
      let dispatched := fresh.dispatches hosts moves host ++
        served.dismiss.dispatches hosts later serving.value.2
      stopped.bus.isRunning = false →
        dispatched.map Prod.snd = WireLine.signals (textOf (Text.lines input)) ∧
        (∀ other,
          (dispatchAll hosts.desk (Bus.start (.new window)).dispatcher dispatched other).value =
              (stopped.bus.dispatcher, other) ∧
            (dispatchAll hosts.desk (Bus.start (.new window)).dispatcher dispatched other).events =
              BusEvent.shownIn events) ∧
        ∀ (desk : Desk τ) (clock : Nat → Instant) (other : τ), Tells clock dispatched →
          Reproduces desk window other (readAll desk clock (.new window) input other) dispatched
            served stopped events) ∧
    ∀ now, ∃ later,
      let stopping := served.dismiss.run hosts later serving.value.2
      stopping.value.1.bus.isRunning = false ∧
        (served.bus.shutdown hosts now serving.value.2).value =
          (stopping.value.1.bus, stopping.value.2) ∧
        (served.bus.shutdown hosts now serving.value.2).events = stopping.events := by
  intro fresh serving served
  have bus_serving : (Bus.start (.new window)).Serving := Bus.serving_start (.new window)
  have begun : Account hosts.desk (.start (.new window)) (Text.lines input) fresh [] [] [] :=
    Account.start bus_serving firstTicket input
  obtain ⟨read, account⟩ := begun.run_dispatches moves host
  have unfailing : Unfailing firstTicket served :=
    (unfailing_start bus_serving (fun _ _ died => nomatch died) input).run answer writable host
  have unasked : Offered fresh [] [] := ⟨rfl, .nil⟩
  refine ⟨?_, fun now => exists_shutdown_run hosts served account.serving.defers now _⟩
  intro later stopping stopped events dispatched gone
  have closing : Closing hosts.desk (.start (.new window)) (WireLine.signals read) stopped _ _ :=
    (account.closing ended).run later serving.value.2
  have offered : Offered stopped _ _ :=
    ((unasked.run moves host).dismiss).run later serving.value.2
  have signals_eq : dispatched.map Prod.snd = WireLine.signals (textOf (Text.lines input)) :=
    (closing.signals_of_stopped gone).trans (account.signals_text ended unfailing.writing)
  have shown_eq : BusEvent.shownIn events =
      BusEvent.shownIn serving.events ++ BusEvent.shownIn stopping.events :=
    List.filterMap_append
  have dispatched_eq := closing.dispatched_eq
  simp only [List.nil_append] at dispatched_eq
  rw [← shown_eq] at dispatched_eq
  refine ⟨signals_eq, dispatched_eq, fun desk clock other tells => ?_⟩
  refine reproduces_of_dispatched signals_eq tells
    (account.failed_iff ended unfailing.writing) (dispatched_eq host) ?_
  rw [List.filterMap_append]
  exact offered.questions

/-- A request, a line that holds nothing, the result of a pre-encryption, a line that is no text,
and a second request behind it. -/
def mixedInput : Text.Octets :=
  requestLine ++ [0x0A, 0x0D, 0x0A] ++ Text.encode
    "\x7b\"signal\":\"PrepareEncryptDiskResult\",\"args\":[\"/dev/sda1\",\"sda1\",\"\",0]\x7d" ++
    [0x0A, 0xFF, 0x0A] ++ requestLine

def mixedMoves : List Move :=
  [.read, .ask 0, .read, .read, .turn 6, .turn 7, .work 0, .write none, .read]

def mixedServing : Traced BusEvent (Connection × Unit) :=
  (Connection.start (.start (.new 3)) 0 mixedInput).run answeringHosts mixedMoves ()

def mixedStopping : Traced BusEvent (Connection × Unit) :=
  mixedServing.value.1.dismiss.run answeringHosts [.turn 8] ()

/-- The worker of the reboot question has not come to it, and the replay has asked. -/
theorem mixed_input_reproduced :
    let served := mixedServing.value.1
    let stopped := mixedStopping.value.1
    (served.reading = .failed Text.notUtf8 ∧ served.replies = [⟨true, false, "secret"⟩] ∧
      stopped.bus.isRunning = false ∧ stopped.bus.errands.length = 1) ∧
    Reproduces quietDesk 3 () (readAll quietDesk (fun _ => 7) (.new 3) mixedInput ())
      [(7, .prepareEncryptDiskResult "/dev/sda1" "sda1" "" (.ofSmall 0))] served stopped
      (mixedServing.events ++ mixedStopping.events) := by
  have facts : (mixedServing.value.1.reading = .failed Text.notUtf8 ∧
      mixedServing.value.1.replies = [⟨true, false, "secret"⟩] ∧
      mixedStopping.value.1.bus.isRunning = false ∧
      mixedStopping.value.1.bus.errands.length = 1) ∧
      (Connection.start (.start (.new 3)) 0 mixedInput).dispatches answeringHosts mixedMoves () ++
      mixedServing.value.1.dismiss.dispatches answeringHosts [.turn 8] () =
        [(7, .prepareEncryptDiskResult "/dev/sda1" "sda1" "" (.ofSmall 0))] := by
    decide +kernel
  obtain ⟨outcome, dispatched_eq⟩ := facts
  refine ⟨outcome, ?_⟩
  have ended : mixedServing.value.1.reading ≠ .going := by
    rw [outcome.1]
    exact Reading.noConfusion
  have writable : ∀ reason, .write (some reason) ∉ mixedMoves := by simp [mixedMoves]
  have law := (reproduces_connection (τ := Unit) answeringHosts
    (fun _ _ died => nomatch died) () 3 0 mixedInput mixedMoves writable ended).1
  have reproduces := (law [.turn 8] outcome.2.2.1).2.2 quietDesk (fun _ => 7) ()
  rw [← dispatched_eq]
  apply reproduces
  change Tells _ ((Connection.start (.start (.new 3)) 0 mixedInput).dispatches answeringHosts
      mixedMoves () ++ mixedServing.value.1.dismiss.dispatches answeringHosts [.turn 8] ())
  rw [dispatched_eq]
  intro place entry found
  cases place with
  | zero =>
      cases found
      rfl
  | succ place => cases found

end Replay

end DiskWarden
