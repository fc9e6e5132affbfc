import DiskWarden.Proofs.Connection.Account
import DiskWarden.Proofs.Connection.Writer
import DiskWarden.Proofs.Replay.Lines
import Mathlib.Data.List.TakeWhile

/-!
# Which notifications of an input are dispatched

A replay and a connection dispatch the notifications of the lines that they come to, each once
and in the order of the lines.  Blank and malformed lines and requests take nothing away from
that.  What ends it before the last line is a line that is no text and, on a connection, a
request behind one that could not be answered.
-/

namespace DiskWarden.Connection

open Dispatcher WireLine

variable {σ : Type} {desk : Desk σ} {hosts : Hosts σ} {bus : Bus} {lines : List Text.Octets}
  {reached : Connection} {shown : List DeskEvent} {read : List Text.Octets}
  {dispatched : List (Instant × Signal)}

/-! ## Accounts that are settled -/

theorem textOf_eq_self (text : ∀ line ∈ lines, IsText line) : textOf lines = lines := by
  rw [textOf, List.takeWhile_eq_self_iff]
  exact fun line member => decide_eq_true (text line member)

theorem textOf_append_broken {earlier later : List Text.Octets} {line : Text.Octets}
    (text : ∀ line ∈ earlier, IsText line) (broken : ¬ IsText line) :
    textOf (earlier ++ line :: later) = earlier := by
  rw [textOf, List.takeWhile_append_of_pos, List.takeWhile_cons_of_neg, List.append_nil]
  · exact fun refused => broken (of_decide_eq_true refused)
  · exact fun line member => decide_eq_true (text line member)

theorem Account.dispatched_of_settled
    (account : Account desk bus lines reached shown read dispatched) (settled : Settled reached) :
    dispatched.map Prod.snd = bus.waiting ++ WireLine.signals read := by
  have none : reached.bus.waiting = [] := by
    rw [Bus.waiting, settled.empty]
    rfl
  rw [← account.signals_eq, none, List.append_nil]

theorem Account.dispatched_all_iff
    (account : Account desk bus lines reached shown read dispatched) (settled : Settled reached) :
    dispatched.map Prod.snd = bus.waiting ++ WireLine.signals lines ↔
      WireLine.signals reached.unread = [] := by
  rw [account.dispatched_of_settled settled, List.append_cancel_left_eq, account.lines_eq,
    WireLine.signals, WireLine.signals, List.filterMap_append, List.self_eq_append_right]
  rfl

/-- A reader that has left while the writer was at work has read all notifications in front of
the first line that is no text. -/
theorem Account.signals_text
    (account : Account desk bus lines reached shown read dispatched)
    (stopped : reached.reading ≠ .going) (writing : reached.fault = none) :
    WireLine.signals read = WireLine.signals (textOf lines) := by
  rw [account.lines_eq]
  cases account.reader with
  | going going => exact absurd going stopped
  | ended finished none text => rw [none, List.append_nil, textOf_eq_self text]
  | unheard _ _ _ _ _ _ stopped =>
      rw [writing] at stopped
      cases stopped
  | broken earlier line failed split broken text =>
      rw [split, signals_concat, signal?_of_not_isText broken, List.append_assoc,
        List.singleton_append, textOf_append_broken text broken]
      exact List.append_nil _

theorem Account.dispatched_text
    (account : Account desk bus lines reached shown read dispatched) (settled : Settled reached)
    (writing : reached.fault = none) :
    dispatched.map Prod.snd = bus.waiting ++ WireLine.signals (textOf lines) := by
  rw [account.dispatched_of_settled settled, account.signals_text settled.stopped writing]

/-! ## Serving one part after the other is a run -/

theorem follow_cons (stage : Connection → List Move) (stages : List (Connection → List Move)) :
    reached.follow hosts (stage :: stages) =
      reached.run hosts (stage reached) >>= fun left => left.follow hosts stages :=
  List.foldlM_cons

/-- Moves that are planned in stages are taken in one run. -/
theorem exists_follow_eq_of (hosts : Hosts σ) {allowed : Move → Prop}
    {stages : List (Connection → List Move)}
    (planned : ∀ stage ∈ stages, ∀ connection, ∀ move ∈ stage connection, allowed move)
    (host : σ) :
    ∃ moves, (∀ move ∈ moves, allowed move) ∧
      reached.follow hosts stages host = reached.run hosts moves host := by
  induction stages generalizing reached host with
  | nil => exact ⟨[], fun _ member => absurd member List.not_mem_nil, rfl⟩
  | cons stage stages inductionHypothesis =>
      rw [List.forall_mem_cons] at planned
      rw [follow_cons, Act.bind_apply]
      obtain ⟨moves, later, same⟩ := @inductionHypothesis
        (reached.run hosts (stage reached) host).value.1 planned.2
        (reached.run hosts (stage reached) host).value.2
      refine ⟨stage reached ++ moves, ?_, ?_⟩
      · intro move member
        rcases List.mem_append.mp member with first | last
        · exact planned.1 reached move first
        · exact later move last
      · rw [run_append, Act.bind_apply, same]

theorem exists_follow_eq (hosts : Hosts σ) (stages : List (Connection → List Move)) (host : σ) :
    ∃ moves, reached.follow hosts stages host = reached.run hosts moves host := by
  have planned : ∀ stage ∈ stages, ∀ connection, ∀ move ∈ stage connection, True :=
    fun _ _ _ _ _ => trivial
  obtain ⟨moves, -, same⟩ := exists_follow_eq_of hosts planned host
  exact ⟨moves, same⟩

theorem Settled.follow (settled : Settled reached) {stages : List (Connection → List Move)}
    (other : ∀ stage ∈ stages, ∀ connection, ∀ move ∈ stage connection,
      ∀ place, move ≠ .ask place) (host : σ) :
    Settled (reached.follow hosts stages host).value.1 := by
  induction stages generalizing reached host with
  | nil => exact settled
  | cons stage stages inductionHypothesis =>
      rw [List.forall_mem_cons] at other
      rw [follow_cons, Act.bind_apply]
      exact inductionHypothesis (settled.run (other.1 reached) host) other.2 _

theorem settled_oneAfterTheOther (hosts : Hosts σ) (serving : bus.Serving) (now : Instant)
    (firstTicket : Ticket) (input : Text.Octets) (host : σ) :
    Settled ((start bus firstTicket input).follow hosts (oneAfterTheOther now) host).value.1 := by
  have account : Account hosts.desk bus (Text.lines input) (start bus firstTicket input) [] [] [] :=
    Account.start serving firstTicket input
  have stopped := account.stopped_readingMoves (Text.lines input).length
    (fun _ => Nat.le_refl _) host
  obtain ⟨_, _, afterReading⟩ := account.run (readingMoves (Text.lines input).length) host
  rw [oneAfterTheOther, follow_cons, Act.bind_apply, follow_cons, Act.bind_apply]
  apply Settled.follow
  · -- the loop's turns settle it, and the stages behind them ask for nothing
    exact afterReading.settled_turns now stopped _ rfl _
  · intro stage member connection move planned place same
    subst same
    rcases List.mem_cons.mp member with rfl | last
    · cases List.eq_of_mem_replicate planned
    · rw [List.mem_singleton.mp last] at planned
      cases List.eq_of_mem_replicate planned

/-! ## The law, and an input that shows its limit -/

/-- A replay dispatches the notifications before the first line that is no text.  After every
order of moves a connection has dispatched, or still holds in the queue of its loop, those of the
lines read so far; it can always be brought to its end, and has then dispatched all of its input
exactly if no notification is left unread.  If every request can be answered, nothing but a line
that is no text keeps it from that. -/
theorem signals_dispatched_in_line_order (hosts : Hosts σ) (host : σ) (input : Text.Octets) :
    (∀ clock dispatcher,
      let replayed := Replay.readAll hosts.desk clock dispatcher input host
      Replay.Dispatches hosts.desk clock dispatcher 0 host (Text.lines input) replayed.value
        replayed.events ∧
      ((Replay.run hosts.desk clock dispatcher input host).value.1.isSome ↔
        ∀ line ∈ Text.lines input, IsText line)) ∧
    (∀ bus : Bus, bus.Serving → ∀ firstTicket moves,
      let reached := (start bus firstTicket input).run hosts moves host
      (∃ read dispatched,
        Account hosts.desk bus (Text.lines input) reached.value.1
          (BusEvent.shownIn reached.events) read dispatched ∧
        (Settled reached.value.1 →
          (dispatched.map Prod.snd = bus.waiting ++ WireLine.signals (Text.lines input) ↔
            WireLine.signals reached.value.1.unread = []) ∧
          (bus.Alive firstTicket → hosts.Answer → (∀ reason, .write (some reason) ∉ moves) →
            dispatched.map Prod.snd =
              bus.waiting ++ WireLine.signals (textOf (Text.lines input))))) ∧
      ∃ more, Settled ((start bus firstTicket input).run hosts (moves ++ more) host).value.1) ∧
    (∀ bus : Bus, bus.Serving → ∀ firstTicket now, ∃ moves,
      (start bus firstTicket input).follow hosts (oneAfterTheOther now) host =
          (start bus firstTicket input).run hosts moves host ∧
        Settled ((start bus firstTicket input).run hosts moves host).value.1) := by
  refine ⟨fun clock dispatcher => ⟨?_, ?_⟩, fun bus serving firstTicket moves => ?_,
    fun bus serving firstTicket now => ?_⟩
  · exact Replay.dispatches_readAll hosts.desk clock dispatcher input host
  · exact Replay.isSome_run_iff hosts.desk clock dispatcher input host
  · have fresh : Account hosts.desk bus (Text.lines input) (start bus firstTicket input) [] [] [] :=
      Account.start serving firstTicket input
    obtain ⟨read, dispatched, account⟩ := fresh.run moves host
    refine ⟨⟨read, dispatched, account, fun settled => ⟨?_, ?_⟩⟩, ?_⟩
    · exact account.dispatched_all_iff settled
    · intro alive answer writable
      have unfailing := (unfailing_start serving alive input).run answer writable host
      exact account.dispatched_text settled unfailing.writing
    · obtain ⟨more, settled⟩ :=
        account.exists_settled ((start bus firstTicket input).run hosts moves host).value.2
      refine ⟨more, ?_⟩
      rw [run_append, Act.bind_apply]
      exact settled
  · obtain ⟨moves, same⟩ := exists_follow_eq hosts (oneAfterTheOther now) host
    have settled := settled_oneAfterTheOther hosts serving now firstTicket input host
    rw [same] at settled
    exact ⟨moves, same, settled⟩

def quietDesk : Desk Unit := ⟨fun _ => pure false, pure (.ok ())⟩

/-- Workers that answer each request with the same secret. -/
def answeringHosts : Hosts Unit := ⟨quietDesk, fun _ => pure (some ⟨true, false, "secret"⟩)⟩

def tickLine : Text.Octets :=
  Text.encode "\x7b\"signal\":\"EncryptProgress\",\"args\":[\"/dev/sda1\",\"sda1\",50.0]\x7d"

/-- An octet that is no text, and a tick on the next line. -/
def brokenInput : Text.Octets := 0xFF :: 0x0A :: tickLine ++ [0x0A]

theorem tick_behind_broken_line :
    let reached := (start (.start (.new 3)) 0 brokenInput).run answeringHosts [.read] ()
    WireLine.signals (Text.lines brokenInput) = [.encryptProgress "/dev/sda1" "sda1" 50] ∧
    (Replay.readAll quietDesk (fun _ => 0) (.new 3) brokenInput ()).value.1.signals = 0 ∧
    ∃ read, Settled reached.value.1 ∧
      Account quietDesk (.start (.new 3)) (Text.lines brokenInput) reached.value.1
        (BusEvent.shownIn reached.events) read [] := by
  obtain ⟨replays, serves, -⟩ := signals_dispatched_in_line_order answeringHosts () brokenInput
  have noText : WireLine.signals (textOf (Text.lines brokenInput)) = [] := by decide +kernel
  refine ⟨by decide +kernel, ?_, ?_⟩
  · obtain ⟨dispatches, -⟩ := replays (fun _ => 0) (.new 3)
    exact dispatches.signals_eq.trans (by rw [noText]; rfl)
  · obtain ⟨⟨read, dispatched, account, law⟩, -⟩ :=
      serves (.start (.new 3)) (Bus.serving_start _) 0 [.read]
    have settled : Settled
        ((start (.start (.new 3)) 0 brokenInput).run answeringHosts [.read] ()).value.1 :=
      ⟨by decide +kernel, by decide +kernel⟩
    have none := (law settled).2 (fun _ _ died => nomatch died) (fun _ _ died => nomatch died)
      (fun _ member => nomatch List.mem_singleton.mp member)
    rw [noText] at none
    have empty : dispatched = [] := List.map_eq_nil_iff.mp none
    exact ⟨read, settled, empty ▸ account⟩

def requestLine : Text.Octets :=
  Text.encode "\x7b\"request\":\"AcquireDevicePassword\",\"device\":\"/dev/sda1\"\x7d"

/-- Two requests, and a tick behind them. -/
def requestInput : Text.Octets :=
  requestLine ++ 0x0A :: requestLine ++ 0x0A :: tickLine ++ [0x0A]

/-- The first worker dies and the writer finds out; the second request then ends the reading. -/
example :
    let reached := (start (.start (.new 3)) 0 requestInput).run
      ⟨quietDesk, fun _ => pure none⟩ [.read, .ask 0, .turn 0, .work 0, .write none, .read] ()
    reached.value.1.reading = .finished ∧ reached.value.1.unread = [tickLine] := by
  decide +kernel

end DiskWarden.Connection
