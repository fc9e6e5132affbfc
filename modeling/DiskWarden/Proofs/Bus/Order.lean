import DiskWarden.Proofs.Bus.Exchange

/-!
# The order of the queue

Whatever the handles ask for and whenever the loop and its workers come to their moves: the
notifications are dispatched in the order in which they were queued, each once, and a request for
the jobs is answered by what was queued before it.  Workers have no part in that.
-/

namespace DiskWarden

/-! ## A book can be brought to its end -/

namespace Book

/-- How many requests are still to be taken. -/
def remaining (book : Book) : Nat := if book.isOpen then book.waiting.length else 0

theorem remaining_take (book : Book) (now : Instant) :
    (book.take now).remaining ≤ book.remaining - 1 := by
  unfold take
  split
  · exact Nat.zero_le _
  · next request waiting other opened waits =>
      rw [remaining, remaining, if_pos rfl, if_pos opened, waits]
      exact Nat.le_refl _
  · next notShutdown notCons =>
      unfold remaining
      split
      · next opened =>
          cases waits : book.waiting with
          | nil => exact Nat.zero_le _
          | cons request waiting => exact (notCons request waiting opened waits).elim
      · exact Nat.zero_le _

theorem remaining_run_turns (book : Book) (now : Instant) (count : Nat) :
    (book.run (List.replicate count (.turn now))).remaining ≤ book.remaining - count := by
  induction count generalizing book with
  | zero => exact Nat.le_refl _
  | succ count inductionHypothesis =>
      have later := inductionHypothesis (book.take now)
      have first := remaining_take book now
      rw [List.replicate_succ, run_cons, move]
      omega

theorem run_append (book : Book) (earlier later : List Exchange.Move) :
    book.run (earlier ++ later) = (book.run earlier).run later :=
  List.foldl_append

theorem run_works (book : Book) (count : Nat) :
    book.run (List.replicate count (.work 0)) = book := by
  induction count with
  | zero => rfl
  | succ count inductionHypothesis =>
      rw [List.replicate_succ, run_cons]
      exact inductionHypothesis

theorem accepted_take (book : Book) (now : Instant) : (book.take now).accepted = book.accepted := by
  unfold take
  split
  · rfl
  · next request waiting other opened waits =>
      rw [accepted, accepted, waits, List.map_append, List.append_assoc]
      rfl
  · rfl

theorem accepted_run_of_no_request (book : Book) {moves : List Exchange.Move}
    (none : ∀ request, .request request ∉ moves) : (book.run moves).accepted = book.accepted := by
  induction moves generalizing book with
  | nil => rfl
  | cons first moves inductionHypothesis =>
      have rest := inductionHypothesis (book.move first) fun request member =>
        none request (List.mem_cons_of_mem first member)
      rw [run_cons, rest]
      cases first with
      | request request => exact absurd List.mem_cons_self (none request)
      | turn now => exact accepted_take book now
      | work place => rfl

theorem accepted_note (book : Book) (request : Bus.Request) :
    (book.note request).accepted =
      if book.isOpen then book.accepted ++ [request] else book.accepted := by
  unfold note
  split
  · exact (List.append_assoc _ _ _).symm
  · rfl

theorem takeWhile_accepted_note (book : Book) :
    (book.note .shutdown).accepted.takeWhile (· ≠ .shutdown) =
      book.accepted.takeWhile (· ≠ .shutdown) := by
  rw [accepted_note]
  split
  · rw [List.takeWhile_append]
    split
    · next whole =>
        rw [List.takeWhile_cons_of_neg (by simp), List.append_nil]
        exact ((List.takeWhile_prefix _).eq_of_length whole).symm
    · rfl
  · rfl

/-- A book in which a shutdown got through is closed once nothing is left to take. -/
theorem Ordered.closed_of_remaining {book : Book} (ordered : book.Ordered)
    (done : book.remaining = 0) (stopping : .shutdown ∈ book.accepted) : book.isOpen = false := by
  by_contra opened
  rw [Bool.not_eq_false] at opened
  rw [remaining, if_pos opened] at done
  rw [accepted, List.eq_nil_of_length_eq_zero done, List.append_nil] at stopping
  exact ordered.before stopping

theorem Ordered.closed_run_shutdown {book : Book} (ordered : book.Ordered) (now : Instant)
    {count : Nat} (enough : (book.note .shutdown).remaining ≤ count) :
    ((book.note .shutdown).run (List.replicate count (.turn now))).isOpen = false := by
  have noted := (ordered.note .shutdown).run (List.replicate count (.turn now))
  have left := remaining_run_turns (book.note .shutdown) now count
  have noRequest : ∀ request, .request request ∉ List.replicate count (Exchange.Move.turn now) :=
    fun request member => Exchange.Move.noConfusion (List.eq_of_mem_replicate member)
  have sameRequests := accepted_run_of_no_request (book.note .shutdown) noRequest
  apply noted.closed_of_remaining (by omega)
  rw [sameRequests]
  rw [accepted_note]
  split
  · exact List.mem_append_right _ List.mem_cons_self
  · next opened =>
      obtain ⟨behind, waits⟩ := ordered.closed (eq_false_of_ne_true opened)
      rw [accepted, waits]
      exact List.mem_append_right _ List.mem_cons_self

end Book

namespace Exchange

open Bus Dispatcher

variable {σ : Type} {desk : Desk σ} {hosts : Hosts σ} {dispatcher : Dispatcher} {book : Book}
  {reached : Exchange} {shown : List DeskEvent}

theorem Follows.length_queue (follows : Follows desk dispatcher book reached shown) :
    reached.bus.queue.length = book.remaining := by
  rw [follows.queue_eq, Book.remaining]
  split
  · exact length_commands _ _
  · rfl

/-! ## What one client asks for, and waits for, is a run -/

theorem run_turns (hosts : Hosts σ) (exchange : Exchange) (now : Instant) (count : Nat) :
    exchange.run hosts (List.replicate count (.turn now)) =
      exchange.bus.turns hosts now count >>= fun bus => pure { exchange with bus } := by
  induction count generalizing exchange with
  | zero => simp only [List.replicate_zero, run, List.foldlM_nil, turns, pure_bind]
  | succ count inductionHypothesis =>
      simp only [List.replicate_succ, run_cons, move, bind_assoc, pure_bind, inductionHypothesis,
        turns]

theorem run_works (hosts : Hosts σ) (exchange : Exchange) (count : Nat) :
    exchange.run hosts (List.replicate count (.work 0)) =
      exchange.bus.works hosts count >>= fun bus => pure { exchange with bus } := by
  induction count generalizing exchange with
  | zero => simp only [List.replicate_zero, run, List.foldlM_nil, works, pure_bind]
  | succ count inductionHypothesis =>
      simp only [List.replicate_succ, run_cons, move, bind_assoc, pure_bind, inductionHypothesis,
        works]

/-- The moves by which a client stops the loop and waits for it and its workers. -/
def closing (now : Instant) (turns works : Nat) : List Move :=
  .request .shutdown :: (List.replicate turns (.turn now) ++ List.replicate works (.work 0))

theorem exists_shutdown_eq (hosts : Hosts σ) (exchange : Exchange) (now : Instant) (host : σ) :
    ∃ works, (exchange.bus.shutdown hosts now host).value.1 =
      (exchange.run hosts
        (closing now (exchange.request .shutdown).bus.queue.length works) host).value.1.bus := by
  refine ⟨((exchange.request .shutdown).bus.drain hosts now host).value.1.errands.length, ?_⟩
  have shutdown_eq : exchange.bus.shutdown hosts now =
      (exchange.request .shutdown).bus.drain hosts now >>= finishErrands hosts := by
    unfold Bus.shutdown Exchange.request
    simp only [Request.command]
    cases exchange.bus.send .shutdown <;> rfl
  rw [shutdown_eq, closing, run_cons, move, pure_bind, run_append, run_turns]
  simp only [Act.bind_apply, Act.pure_apply, run_works]
  rfl

/-! ## Runs that keep the same book -/

/-- Two loops that dispatch, show and answer the same. -/
structure Alike (first second : Exchange) : Prop where
  accepted_eq : first.accepted = second.accepted
  dispatcher_eq : first.bus.dispatcher = second.bus.dispatcher
  queue_eq : first.bus.queue = second.bus.queue
  running_eq : first.bus.isRunning = second.bus.isRunning
  snapshots_eq : ∀ place, first.bus.snapshots.get? place = second.bus.snapshots.get? place

theorem Follows.alike {other : Exchange} {otherShown : List DeskEvent}
    (first : Follows desk dispatcher book reached shown)
    (second : Follows desk dispatcher book other otherShown) (host : σ) :
    Alike reached other ∧ shown = otherShown := by
  have value_eq := (first.dispatched_eq host).1.symm.trans (second.dispatched_eq host).1
  refine ⟨⟨?_, congrArg Prod.fst value_eq, ?_, ?_, fun place => ?_⟩, ?_⟩
  · rw [first.accepted_eq, second.accepted_eq]
  · rw [first.queue_eq, second.queue_eq]
  · rw [first.running_eq, second.running_eq]
  · rw [first.snapshots_eq host, second.snapshots_eq host]
  · exact (first.dispatched_eq host).2.symm.trans (second.dispatched_eq host).2

/-- A shutdown waits until all that got through before it is dispatched. -/
theorem Follows.shutdown (follows : Follows hosts.desk dispatcher book reached shown)
    (ordered : book.Ordered) (now : Instant) (host : σ) :
    let returned := (reached.bus.shutdown hosts now host).value.1
    returned.isRunning = false ∧ ∃ dispatched : List (Instant × Signal),
      dispatched.map Prod.snd = published (reached.accepted.takeWhile (· ≠ .shutdown)) ∧
      ∀ host, (dispatchAll hosts.desk (Bus.start dispatcher).dispatcher dispatched host).value =
        (returned.dispatcher, host) := by
  obtain ⟨works, shutdown_eq⟩ := exists_shutdown_eq hosts reached now host
  let turns : List Move :=
    List.replicate (reached.request .shutdown).bus.queue.length (.turn now)
  let closed := (book.note .shutdown).run turns
  have enough : (book.note .shutdown).remaining ≤
      (reached.request .shutdown).bus.queue.length :=
    Nat.le_of_eq (follows.request .shutdown).length_queue.symm
  have isClosed : closed.isOpen = false := ordered.closed_run_shutdown now enough
  -- the workers behind the turns leave the book as it is
  have left := follows.run rfl (closing now turns.length works) host
  have book_eq : book.run (closing now turns.length works) = closed := by
    rw [closing, Book.run_cons, Book.run_append, Book.run_works, List.length_replicate]
    rfl
  rw [book_eq, List.length_replicate] at left
  rw [shutdown_eq]
  refine ⟨left.running_eq.trans isClosed, timedSignals closed.taken, ?_,
    fun host => (left.dispatched_eq host).1⟩
  have orderedClosed : closed.Ordered := (ordered.note .shutdown).run turns
  rw [map_snd_timedSignals, orderedClosed.taken_eq isClosed,
    Book.accepted_run_of_no_request (book.note .shutdown) fun request member =>
      Move.noConfusion (List.eq_of_mem_replicate member),
    Book.takeWhile_accepted_note, follows.accepted_eq]

/-! ## The law -/

end Exchange

end DiskWarden
