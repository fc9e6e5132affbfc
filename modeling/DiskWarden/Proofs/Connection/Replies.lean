import DiskWarden.Proofs.Connection.Lines
import DiskWarden.Proofs.Connection.Requests

/-!
# The replies of a connection

The peer gets the replies in the order of its requests, whichever worker finishes first.  A
request that died ends them and is what the connection fails with; otherwise each request has got
its reply.
-/

namespace DiskWarden.Connection

open WireLine

variable {σ : Type} {hosts : Hosts σ} {bus : Bus} {firstTicket : Ticket}
  {lines read : List Text.Octets} {given : List ((Ticket × Device) × Option Reply)}
  {reached : Connection} {shown : List DeskEvent} {readBefore : List Text.Octets}
  {dispatched : List (Instant × Signal)}

/-! ## Every connection comes to its end -/

/-- The reader has left, and the writer is done or has stopped. -/
structure Over (reached : Connection) : Prop where
  stopped : reached.reading ≠ .going
  written : reached.fault.isSome ∨ reached.awaited = []

theorem value_run_append (earlier later : List Move) (host : σ) :
    (reached.run hosts (earlier ++ later) host).value =
      ((reached.run hosts earlier host).value.1.run hosts later
        (reached.run hosts earlier host).value.2).value := by
  rw [run_append, Act.bind_apply]

theorem value_follow_nil (host : σ) :
    (reached.follow hosts [] host).value = (reached, host) := rfl

theorem value_follow_cons (stage : Connection → List Move) (stages : List (Connection → List Move))
    (host : σ) :
    (reached.follow hosts (stage :: stages) host).value =
      ((reached.run hosts (stage reached) host).value.1.follow hosts stages
        (reached.run hosts (stage reached) host).value.2).value := by
  rw [follow_cons, Act.bind_apply]

/-- If each move of a kind takes one from what is left, enough of them leave nothing. -/
theorem run_replicate (holds : Connection → Prop) (left : Connection → Nat) (move : Move)
    (step : ∀ reached, holds reached → ∀ host : σ,
      holds (reached.move hosts move host).value.1 ∧
        left (reached.move hosts move host).value.1 ≤ left reached - 1)
    {count : Nat} (start : holds reached) (enough : left reached ≤ count) (host : σ) :
    holds (reached.run hosts (List.replicate count move) host).value.1 ∧
      left (reached.run hosts (List.replicate count move) host).value.1 = 0 := by
  induction count generalizing reached host with
  | zero => exact ⟨start, Nat.le_zero.mp enough⟩
  | succ count inductionHypothesis =>
      obtain ⟨stays, taken⟩ := step reached start host
      rw [List.replicate_succ, run_cons, Act.bind_apply]
      exact inductionHypothesis stays (by omega) _

/-- The tasks that are left bring the first request before the loop. -/
theorem ask_zero (serving : reached.bus.Serving) :
    (reached.ask 0).bus.Serving ∧ (reached.ask 0).unasked = reached.unasked.tail := by
  unfold ask
  cases waits : reached.unasked with
  | nil => exact ⟨serving, waits⟩
  | cons request unasked =>
      simp only [List.getElem?_cons_zero, serving.send_eq]
      exact ⟨serving.append Command.noConfusion, rfl⟩

/-- Only reading a line adds to the requests that are not yet before the loop, and by one. -/
theorem ReadStep.unasked {left : Connection} (step : ReadStep reached left) :
    left.unasked = reached.unasked ∨
      (reached.reading = .going ∧ reached.unread ≠ []) ∧
        ∃ request, left.unasked = reached.unasked ++ [request] := by
  cases step with
  | rest => exact .inl rfl
  | finish => exact .inl rfl
  | skip => exact .inl rfl
  | quit => exact .inl rfl
  | publish => exact .inl rfl
  | request line unread device going next =>
      exact .inr ⟨⟨going, next ▸ List.cons_ne_nil line unread⟩, _, rfl⟩
  | giveUp line unread device going next =>
      exact .inr ⟨⟨going, next ▸ List.cons_ne_nil line unread⟩, _, rfl⟩

/-- If each request is brought before the loop when it is read, none is left in the end. -/
theorem Docket.unasked_readingMoves (docket : Docket firstTicket lines read given reached)
    (hosts : Hosts σ) (none : reached.unasked = []) (count : Nat)
    (enough : reached.reading = .going → reached.unread.length ≤ count) (host : σ) :
    (reached.run hosts (readingMoves count) host).value.1.unasked = [] := by
  induction count generalizing reached read given host with
  | zero =>
      obtain ⟨step, -⟩ := Connection.readStep docket.serving host
      rcases step.unasked with same | ⟨⟨going, unread⟩, -⟩
      · exact same.trans none
      · exact absurd (List.eq_nil_of_length_eq_zero (Nat.le_zero.mp (enough going))) unread
  | succ count inductionHypothesis =>
      obtain ⟨step, -⟩ := Connection.readStep docket.serving host
      obtain ⟨_, moved⟩ := docket.advance host
      have asked := moved.ask 0
      rw [readingMoves, run_cons, Act.bind_apply, run_cons, Act.bind_apply]
      refine inductionHypothesis asked ?_ (fun going => ?_) _
      · refine (ask_zero moved.serving).2.trans ?_
        rcases step.unasked with same | ⟨-, request, same⟩
        · rw [same, none]
          rfl
        · rw [same, none]
          rfl
      · have frame := ask_frame (reached.read host).value.1 0
        obtain ⟨start, length⟩ := step.length_unread (frame.1.symm.trans going)
        have more := enough start
        change ((reached.read host).value.1.ask 0).unread.length ≤ count
        rw [frame.2]
        omega

/-- The reader has left, and every request has come before the loop. -/
structure Asked (firstTicket : Ticket) (lines : List Text.Octets) (reached : Connection) :
    Prop where
  docket : ∃ read given, Docket firstTicket lines read given reached
  stopped : reached.reading ≠ .going
  unasked_eq : reached.unasked = []

theorem Asked.turn (asked : Asked firstTicket lines reached) (hosts : Hosts σ) (now : Instant)
    (host : σ) :
    Asked firstTicket lines (reached.move hosts (.turn now) host).value.1 ∧
      (reached.move hosts (.turn now) host).value.1.bus.queue = reached.bus.queue.tail := by
  obtain ⟨⟨read, given, docket⟩, stopped, unasked_eq⟩ := asked
  have turned := docket.serving.turned hosts now host
  exact ⟨⟨⟨read, given, docket.turn hosts now host⟩, stopped, unasked_eq⟩, turned.queue_eq⟩

theorem Asked.work (asked : Asked firstTicket lines reached) (hosts : Hosts σ) (host : σ) :
    Asked firstTicket lines (reached.move hosts (.work 0) host).value.1 ∧
      (reached.move hosts (.work 0) host).value.1.bus.queue = reached.bus.queue ∧
      (reached.move hosts (.work 0) host).value.1.bus.errands = reached.bus.errands.tail := by
  obtain ⟨⟨read, given, docket⟩, stopped, unasked_eq⟩ := asked
  have framed := Bus.framed_work hosts reached.bus 0 host
  refine ⟨⟨⟨read, _, docket.work hosts 0 host⟩, stopped, unasked_eq⟩, framed.queue_eq, ?_⟩
  change (reached.bus.work hosts 0 host).value.1.errands = _
  unfold Bus.work
  cases waits : reached.bus.errands with
  | nil => exact waits
  | cons errand errands => cases errand <;> rfl

/-- How many requests the writer still has to come to. -/
def unwritten (reached : Connection) : Nat :=
  if reached.fault.isSome then 0 else reached.awaited.length

theorem unwritten_le (reached : Connection) : reached.unwritten ≤ reached.awaited.length := by
  unfold unwritten
  split
  · exact Nat.zero_le _
  · exact Nat.le_refl _

/-- Once nothing is to be answered any more, the writer finds an answer each time. -/
theorem Docket.exists_answer (docket : Docket firstTicket lines read given reached)
    (none : reached.pending = []) (writing : reached.fault = .none) {ticket : Nat}
    {awaited : List Ticket} (awaits : reached.awaited = ticket :: awaited) :
    ∃ answer, reached.answer? ticket = some (Bus.replyOf answer) := by
  obtain ⟨length_eq, awaited_eq⟩ := docket.working writing
  rw [awaits, List.length_cons, List.range'_succ, List.cons.injEq] at awaited_eq
  rw [awaits, List.length_cons] at length_eq
  obtain ⟨device, found⟩ : ∃ device,
      (WireLine.requests read)[reached.replies.length]? = some device :=
    ⟨_, List.getElem?_eq_getElem (by omega)⟩
  have placed : (ticket, device) ∈ numbered firstTicket (WireLine.requests read) :=
    mem_numbered_iff.mpr ⟨reached.replies.length, awaited_eq.1, found⟩
  have kept := docket.placed.symm.subset placed
  rw [none, List.nil_append, List.mem_filter, List.mem_map] at kept
  obtain ⟨⟨⟨request, answer⟩, member, rfl⟩, late⟩ := kept
  refine ⟨answer, ?_⟩
  rw [answer?, docket.refused_eq, if_neg List.not_mem_nil,
    (docket.replies_iff ticket (of_decide_eq_true late) answer).mpr ⟨device, member⟩]
  rfl

theorem Docket.unwritten_write (docket : Docket firstTicket lines read given reached)
    (none : reached.pending = []) :
    (reached.write .none).unwritten ≤ reached.unwritten - 1 := by
  unfold Connection.write
  split
  · next ticket awaited writing awaits =>
      obtain ⟨answer, answered⟩ := docket.exists_answer none writing awaits
      rw [answered]
      cases answer with
      | none => simp [Bus.replyOf, unwritten, writing, awaits]
      | some reply => simp [Bus.replyOf, unwritten, writing, awaits]
  · next other =>
      have nothing : reached.unwritten = 0 := by
        unfold unwritten
        split
        · rfl
        · next writing =>
            cases awaits : reached.awaited with
            | nil => rfl
            | cons ticket awaited =>
                have working := Option.not_isSome_iff_eq_none.mp writing
                exact absurd awaits (other ticket awaited working)
      omega

/-- Nothing but the writer is left to move. -/
structure Answered (firstTicket : Ticket) (lines : List Text.Octets) (reached : Connection) :
    Prop where
  docket : ∃ read given, Docket firstTicket lines read given reached
  stopped : reached.reading ≠ .going
  pending_eq : reached.pending = []

theorem Answered.write (answered : Answered firstTicket lines reached) :
    Answered firstTicket lines (reached.write none) ∧
      (reached.write none).unwritten ≤ reached.unwritten - 1 := by
  obtain ⟨⟨read, given, docket⟩, stopped, pending_eq⟩ := answered
  refine ⟨⟨⟨read, given, docket.write⟩, ?_, ?_⟩, docket.unwritten_write pending_eq⟩
  · obtain ⟨awaited, replies, fault, same, -⟩ := write_frame reached none
    rw [same]
    exact stopped
  · obtain ⟨awaited, replies, fault, same, -⟩ := write_frame reached none
    rw [same]
    exact pending_eq

theorem over_of_unwritten (stopped : reached.reading ≠ .going) (none : reached.unwritten = 0) :
    Over reached := by
  refine ⟨stopped, ?_⟩
  by_cases failed : reached.fault.isSome = true
  · exact .inl failed
  · rw [unwritten, if_neg failed] at none
    exact .inr (List.eq_nil_of_length_eq_zero none)

/-- Once all has come before the loop, its turns, the workers and the writer bring a connection to
its end. -/
theorem Asked.over_follow (asked : Asked firstTicket lines reached) (hosts : Hosts σ)
    (now : Instant) (host : σ) :
    Over (reached.follow hosts (oneAfterTheOther now).tail host).value.1 := by
  have turns : ∀ left, Asked firstTicket lines left → ∀ state : σ,
      Asked firstTicket lines (left.move hosts (.turn now) state).value.1 ∧
        (left.move hosts (.turn now) state).value.1.bus.queue.length ≤
          left.bus.queue.length - 1 := by
    intro left asked state
    obtain ⟨stays, queue_eq⟩ := asked.turn hosts now state
    exact ⟨stays, by rw [queue_eq, List.length_tail]⟩
  have works : ∀ left, Asked firstTicket lines left ∧ left.bus.queue = [] → ∀ state : σ,
      (Asked firstTicket lines (left.move hosts (.work 0) state).value.1 ∧
        (left.move hosts (.work 0) state).value.1.bus.queue = []) ∧
        (left.move hosts (.work 0) state).value.1.bus.errands.length ≤
          left.bus.errands.length - 1 := by
    intro left ⟨asked, empty⟩ state
    obtain ⟨stays, queue_eq, errands_eq⟩ := asked.work hosts state
    exact ⟨⟨stays, queue_eq.trans empty⟩, by rw [errands_eq, List.length_tail]⟩
  have writes : ∀ left, Answered firstTicket lines left → ∀ state : σ,
      Answered firstTicket lines (left.move hosts (.write none) state).value.1 ∧
        (left.move hosts (.write none) state).value.1.unwritten ≤ left.unwritten - 1 :=
    fun left answered _ => answered.write
  rw [oneAfterTheOther, List.tail_cons, value_follow_cons, value_follow_cons, value_follow_cons,
    value_follow_nil]
  obtain ⟨turned, empty⟩ := run_replicate (Asked firstTicket lines)
    (fun left => left.bus.queue.length) (.turn now) turns asked (Nat.le_refl _) host
  obtain ⟨⟨worked, unqueued⟩, finished⟩ := run_replicate
    (fun left => Asked firstTicket lines left ∧ left.bus.queue = [])
    (fun left => left.bus.errands.length) (.work 0) works
    ⟨turned, List.eq_nil_of_length_eq_zero empty⟩ (Nat.le_refl _) _
  have answered := Answered.mk worked.docket worked.stopped (by
    rw [pending, worked.unasked_eq, unqueued, List.eq_nil_of_length_eq_zero finished]
    rfl)
  obtain ⟨written, done⟩ := run_replicate (Answered firstTicket lines) unwritten (.write none)
    writes answered (unwritten_le _) _
  exact over_of_unwritten written.stopped done

theorem delivers_readingMoves (count : Nat) : ∀ move ∈ readingMoves count, move.Delivers := by
  induction count with
  | zero =>
      intro move member reason same
      rw [same] at member
      cases List.mem_singleton.mp member
  | succ count inductionHypothesis =>
      intro move member
      rcases List.mem_cons.mp member with rfl | member
      · exact fun _ same => nomatch same
      · rcases List.mem_cons.mp member with rfl | member
        · exact fun _ same => nomatch same
        · exact inductionHypothesis move member

theorem delivers_replicate {move : Move} (delivers : move.Delivers) (count : Nat) :
    ∀ other ∈ List.replicate count move, other.Delivers := by
  intro other member
  rw [List.eq_of_mem_replicate member]
  exact delivers

theorem delivers_oneAfterTheOther (now : Instant) : ∀ stage ∈ oneAfterTheOther now,
    ∀ connection, ∀ move ∈ stage connection, move.Delivers := by
  simp only [oneAfterTheOther, List.forall_mem_cons]
  refine ⟨fun left => delivers_readingMoves _, fun left => delivers_replicate ?_ _,
    fun left => delivers_replicate ?_ _, fun left => delivers_replicate ?_ _,
    fun _ member => absurd member List.not_mem_nil⟩
  all_goals
    intro reason same
    cases same

/-- What is planned for a connection brings it to its end, if every request that it has read has
come before the loop. -/
theorem Docket.over_follow (docket : Docket firstTicket lines read given reached)
    (account : Account hosts.desk bus lines reached shown readBefore dispatched)
    (none : reached.unasked = []) (now : Instant) (host : σ) :
    Over (reached.follow hosts (oneAfterTheOther now) host).value.1 := by
  have stopped := account.stopped_readingMoves reached.unread.length (fun _ => Nat.le_refl _) host
  have unasked := docket.unasked_readingMoves hosts none reached.unread.length
    (fun _ => Nat.le_refl _) host
  obtain ⟨read', left⟩ := docket.run hosts (delivers_readingMoves reached.unread.length) host
  have asked : Asked firstTicket lines
      (reached.run hosts (readingMoves reached.unread.length) host).value.1 :=
    ⟨⟨read', _, left⟩, stopped, unasked⟩
  have isOver := asked.over_follow hosts now
    (reached.run hosts (readingMoves reached.unread.length) host).value.2
  rw [oneAfterTheOther, List.tail_cons] at isOver
  rw [oneAfterTheOther, value_follow_cons]
  exact isOver

/-- From everywhere a connection can be brought to its end. -/
theorem Docket.exists_over (docket : Docket firstTicket lines read given reached)
    (account : Account hosts.desk bus lines reached shown readBefore dispatched) (host : σ) :
    ∃ more, (∀ move ∈ more, move.Delivers) ∧ Over (reached.run hosts more host).value.1 := by
  have asks : ∀ left, (∃ read given, Docket firstTicket lines read given left) → ∀ state : σ,
      (∃ read given, Docket firstTicket lines read given (left.move hosts (.ask 0) state).value.1) ∧
        (left.move hosts (.ask 0) state).value.1.unasked.length ≤ left.unasked.length - 1 := by
    rintro left ⟨read, given, docket⟩ state
    refine ⟨⟨read, given, docket.ask 0⟩, ?_⟩
    change (left.ask 0).unasked.length ≤ _
    rw [(ask_zero docket.serving).2, List.length_tail]
  have delivers : Move.Delivers (.ask 0) := fun _ same => nomatch same
  have first := delivers_replicate delivers reached.unasked.length
  obtain ⟨⟨read', given', asked⟩, none⟩ := run_replicate
    (fun left => ∃ read given, Docket firstTicket lines read given left)
    (fun left => left.unasked.length) (.ask 0) asks ⟨read, given, docket⟩ (Nat.le_refl _) host
  obtain ⟨_, _, account⟩ := account.run (List.replicate reached.unasked.length (.ask 0)) host
  generalize List.replicate reached.unasked.length (Move.ask 0) = before at *
  have isOver := asked.over_follow account (List.eq_nil_of_length_eq_zero none) 0
    (reached.run hosts before host).value.2
  obtain ⟨moves, later, same⟩ := exists_follow_eq_of hosts (delivers_oneAfterTheOther 0)
    (reached.run hosts before host).value.2
  rw [same] at isOver
  refine ⟨before ++ moves, ?_, ?_⟩
  · intro move member
    rcases List.mem_append.mp member with asks | last
    · exact first move asks
    · exact later move last
  · rw [value_run_append]
    exact isOver

/-! ## What the peer gets -/

/-- What a peer has got, held against its requests and the answers of the workers. -/
structure Replied (hosts : Hosts σ) (firstTicket : Ticket) (requests : List Device)
    (given : List ((Ticket × Device) × Option Reply)) (served : Served) : Prop where
  asked : ∀ (place : Nat) device answer, ((firstTicket + place, device), answer) ∈ given →
    requests[place]? = some device ∧ ∃ state, (hosts.hook device state).value.1 = answer
  once : ((given.map Prod.fst).filter (firstTicket ≤ ·.1)).Nodup
  lines : ∀ (place : Nat) line, served.lines[place]? = some line → ∃ device reply,
    ((firstTicket + place, device), some reply) ∈ given ∧ line = Wire.encodeReply reply

/-- How a connection has ended: with a reply to each request, or at the first one that died. -/
structure Ended (firstTicket : Ticket) (requests : List Device)
    (given : List ((Ticket × Device) × Option Reply)) (served : Served) : Prop where
  complete : served.fault = none → served.lines.length = requests.length
  died : ∀ reason, served.fault = some reason → reason = died.chain ∧
    ∃ device, ((firstTicket + served.lines.length, device), none) ∈ given
  fault_iff : served.fault = none ↔
    ∀ (place : Nat) device, ((firstTicket + place, device), none) ∉ given

theorem Docket.replied (docket : Docket firstTicket lines read given reached)
    (hooked : ∀ request answer, (request, answer) ∈ given →
      ∃ state, (hosts.hook request.2 state).value.1 = answer) :
    Replied hosts firstTicket (WireLine.requests lines) given reached.served where
  asked place device answer member := by
    have found := docket.asked member
    have bound := (List.getElem?_eq_some_iff.mp found).choose
    rw [docket.lines_eq, requests_append, List.getElem?_append_left bound]
    exact ⟨found, hooked _ answer member⟩
  once := by
    have all := docket.placed.nodup_iff.mpr (List.Nodup.of_map Prod.fst (by
      rw [map_fst_numbered]
      exact List.nodup_range'))
    rw [List.filter_append] at all
    exact all.of_append_right
  lines place line found := by
    rw [served, List.getElem?_map, Option.map_eq_some_iff] at found
    obtain ⟨reply, found, rfl⟩ := found
    obtain ⟨device, member⟩ := docket.written place reply found
    exact ⟨device, reply, member, rfl⟩

/-- The reader of an input that is text does not fail; it stops early only once the writer has. -/
theorem HasRead.of_text (hasRead : HasRead reached read)
    (prefix_of : lines = read ++ reached.unread)
    (text : ∀ line ∈ lines, IsText line) (stopped : reached.reading ≠ .going) :
    reached.reading = .finished ∧ (reached.fault = none → reached.unread = []) := by
  cases hasRead with
  | going going => exact absurd going stopped
  | ended finished none => exact ⟨finished, fun _ => none⟩
  | unheard earlier line device finished split holds failed =>
      refine ⟨finished, fun writing => ?_⟩
      rw [writing] at failed
      cases failed
  | broken earlier line failed split broken =>
      have member : line ∈ lines := by
        rw [prefix_of, split]
        exact List.mem_append_left _ (List.mem_append_right _ List.mem_cons_self)
      exact absurd (text line member) broken

theorem Docket.ended (docket : Docket firstTicket lines read given reached)
    (hasRead : HasRead reached read) (text : ∀ line ∈ lines, IsText line) (isOver : Over reached) :
    Ended firstTicket (WireLine.requests lines) given reached.served := by
  obtain ⟨finished, all⟩ := hasRead.of_text docket.lines_eq text isOver.stopped
  have fault_eq : reached.served.fault = reached.fault := by
    simp only [served, readingFault, finished, Option.none_or]
  have length_eq : reached.served.lines.length = reached.replies.length :=
    List.length_map Wire.encodeReply
  have complete : reached.fault = none →
      reached.replies.length = (WireLine.requests lines).length := by
    intro writing
    obtain ⟨length_eq, -⟩ := docket.working writing
    rcases isOver.written with failed | written
    · rw [writing] at failed
      cases failed
    · rw [docket.lines_eq, all writing, List.append_nil, ← length_eq, written]
      exact (Nat.zero_add _).symm
  refine ⟨?_, ?_, ?_⟩
  · rw [fault_eq, length_eq]
    exact complete
  · rw [fault_eq, length_eq]
    exact docket.failed
  · rw [fault_eq]
    constructor
    · -- each request has got a reply, so no request has died
      intro writing place device dead
      have found := docket.asked dead
      have bound : place < reached.replies.length := by
        rw [complete writing, docket.lines_eq, all writing, List.append_nil]
        exact (List.getElem?_eq_some_iff.mp found).choose
      obtain ⟨other, member⟩ := docket.written place _ (List.getElem?_eq_getElem bound)
      have late : firstTicket ≤ firstTicket + place := Nat.le_add_right firstTicket place
      have answered := (docket.replies_iff _ late _).mpr ⟨other, member⟩
      have died := (docket.replies_iff _ late _).mpr ⟨device, dead⟩
      rw [answered] at died
      cases died
    · intro alive
      by_contra failed
      obtain ⟨reason, failed⟩ := Option.ne_none_iff_exists'.mp failed
      obtain ⟨-, device, dead⟩ := docket.failed reason failed
      exact alive reached.replies.length device dead

theorem serve_value (hosts : Hosts σ) (now : Instant) (bus : Bus) (firstTicket : Ticket)
    (input : Text.Octets) (host : σ) :
    (serve hosts now bus firstTicket input host).value.1.1 =
      ((start bus firstTicket input).follow hosts (oneAfterTheOther now) host).value.1.served := by
  rw [serve, Act.bind_apply, Act.pure_apply]

/-- However reader, tasks, loop, workers and writer take their moves, the peer gets lines in the
order of its requests, and the line at a place holds the hook's answer for the device of the request
at that place; no request is answered twice.  A connection can always be brought to its end, and has
then ended without a fault exactly if no request died, with a line for each request; otherwise the
first request that died ends it, behind a line for each request before.  Serving one part after the
other ends in this way. -/
theorem replies_in_request_order (hosts : Hosts σ) (host : σ) (serving : bus.Serving)
    (fresh : bus.Fresh firstTicket) {input : Text.Octets}
    (text : ∀ line ∈ Text.lines input, IsText line) :
    let requests := WireLine.requests (Text.lines input)
    let fresh := start bus firstTicket input
    (∀ moves, (∀ move ∈ moves, move.Delivers) →
      let reached := (fresh.run hosts moves host).value.1
      let given := fresh.answers hosts moves host
      Replied hosts firstTicket requests given reached.served ∧
      (Over reached → Ended firstTicket requests given reached.served) ∧
      ∃ more, (∀ move ∈ more, move.Delivers) ∧
        Over (fresh.run hosts (moves ++ more) host).value.1) ∧
    ∀ now, ∃ moves, (∀ move ∈ moves, move.Delivers) ∧
      Over (fresh.run hosts moves host).value.1 ∧
      (serve hosts now bus firstTicket input host).value.1.1 =
        (fresh.run hosts moves host).value.1.served := by
  intro requests start
  have docket := docket_start serving fresh input
  have account : Account hosts.desk bus (Text.lines input) start [] [] [] :=
    Account.start serving firstTicket input
  refine ⟨fun moves delivers => ?_, fun now => ?_⟩
  · obtain ⟨read, docket⟩ := docket.run hosts delivers host
    obtain ⟨readBefore, dispatched, account⟩ := account.run moves host
    rw [List.nil_append] at docket
    refine ⟨?_, fun isOver => ?_, ?_⟩
    · exact docket.replied fun request answer member => exists_hook_of_mem_answers member
    · have same : readBefore = read :=
        List.append_cancel_right (account.lines_eq.symm.trans docket.lines_eq)
      exact docket.ended (same ▸ account.reader) text isOver
    · obtain ⟨more, later, isOver⟩ :=
        docket.exists_over account (start.run hosts moves host).value.2
      refine ⟨more, later, ?_⟩
      rw [value_run_append]
      exact isOver
  · have isOver := docket.over_follow account rfl now host
    obtain ⟨moves, delivers, same⟩ :=
      exists_follow_eq_of hosts (delivers_oneAfterTheOther now) host
    rw [same] at isOver
    refine ⟨moves, delivers, isOver, ?_⟩
    rw [serve_value, same]

/-- Workers of which one dies. The others answer with the name of the device they are asked for. -/
def namingHosts : Hosts Unit :=
  ⟨quietDesk, fun device =>
    pure (if device.path = "/dev/sda2" then none else some ⟨true, false, device.path⟩)⟩

def requestsInput : Text.Octets :=
  ["/dev/sda1", "/dev/sda2", "/dev/sda3"].flatMap fun path =>
    Text.encode (Wire.encodeRequest ⟨path⟩) ++ [0x0A]

/-- The last request comes before the loop first, and the second worker is the first to finish. -/
def disorderly : List Move :=
  [.read, .read, .read, .ask 2, .ask 0, .turn 0, .ask 0, .read, .turn 0, .turn 0,
    .work 2, .write none, .work 0, .write none, .work 0, .write none, .write none]

theorem first_reply_before_dead_request :
    let fresh := start (.start (.new 3)) 5 requestsInput
    let reached := (fresh.run namingHosts disorderly ()).value.1
    let given := fresh.answers namingHosts disorderly ()
    given.map (·.1.1) = [6, 7, 5] ∧
    reached.served =
      ⟨["\x7b\"handled\":true,\"cancelled\":false,\"secret\":\"/dev/sda1\"\x7d"],
        some "event loop unavailable: password hook dropped its reply"⟩ ∧
    Replied namingHosts 5 (WireLine.requests (Text.lines requestsInput)) given reached.served ∧
    Ended 5 (WireLine.requests (Text.lines requestsInput)) given reached.served := by
  have serving : (Bus.start (.new 3)).Serving := Bus.serving_start _
  have fresh : (Bus.start (.new 3)).Fresh 5 := Bus.fresh_start _ 5
  have text : ∀ line ∈ Text.lines requestsInput, IsText line := by decide +kernel
  obtain ⟨law, -⟩ := replies_in_request_order namingHosts () serving fresh text
  have delivers : ∀ move ∈ disorderly, move.Delivers := by simp [disorderly, Move.Delivers]
  obtain ⟨replied, ended, -⟩ := law disorderly delivers
  obtain ⟨order, same, finished, failed⟩ :
      ((start (.start (.new 3)) 5 requestsInput).answers namingHosts disorderly ()).map
          (·.1.1) = [6, 7, 5] ∧
        ((start (.start (.new 3)) 5 requestsInput).run namingHosts disorderly ()).value.1.served =
          ⟨["\x7b\"handled\":true,\"cancelled\":false,\"secret\":\"/dev/sda1\"\x7d"],
            some "event loop unavailable: password hook dropped its reply"⟩ ∧
        ((start (.start (.new 3)) 5 requestsInput).run namingHosts disorderly
          ()).value.1.reading = .finished ∧
        ((start (.start (.new 3)) 5 requestsInput).run namingHosts disorderly
          ()).value.1.fault.isSome = true := by
    decide +kernel
  exact ⟨order, same, replied, ended ⟨by rw [finished]; decide, .inl failed⟩⟩

end DiskWarden.Connection
