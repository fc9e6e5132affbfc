import DiskWarden.Proofs.Bus.Exchange

/-!
# What a shutdown leaves behind

A loop accepts requests as long as it runs, also behind a shutdown that it has not yet taken.
Once it has stopped, the notifications that got through before the shutdown are dispatched, each
once, and those that got through behind it are lost.
-/

namespace DiskWarden.Exchange

open Bus Dispatcher

variable {σ : Type}

theorem publish_of_stopped {bus : Bus} (stopped : bus.isRunning = false) (signal : Signal) :
    bus.publish signal = .error Bus.stopped := by
  unfold publish send
  rw [stopped]
  rfl

theorem published_append (earlier later : List Request) :
    published (earlier ++ later) = published earlier ++ published later :=
  List.filterMap_append

/-- In whatever order handles, loop and workers move: once the loop has stopped, it has dispatched
the notifications that got through before the first shutdown, each once and in their order, and
it takes no more.  So all that got through are dispatched exactly if none of them got through
behind the shutdown. -/
theorem dispatched_all_iff_none_behind_shutdown (hosts : Hosts σ) (dispatcher : Dispatcher)
    (moves : List Move) (host : σ)
    (stopped : ((start dispatcher).run hosts moves host).value.1.bus.isRunning = false) :
    let run := (start dispatcher).run hosts moves host
    let reached := run.value.1
    let behind := reached.accepted.dropWhile (· ≠ .shutdown)
    ∃ dispatched : List (Instant × Signal),
      (∀ other,
        (dispatchAll hosts.desk (Bus.start dispatcher).dispatcher dispatched other).value =
            (reached.bus.dispatcher, other) ∧
          (dispatchAll hosts.desk (Bus.start dispatcher).dispatcher dispatched other).events =
            BusEvent.shownIn run.events) ∧
      published reached.accepted = dispatched.map Prod.snd ++ published behind ∧
      (dispatched.map Prod.snd = published reached.accepted ↔ published behind = []) ∧
      ∀ signal, reached.bus.publish signal = .error Bus.stopped := by
  intro run reached behind
  have follows : Follows hosts.desk dispatcher (Book.start.run moves) reached
      (BusEvent.shownIn run.events) :=
    (follows_start hosts.desk dispatcher).run rfl moves host
  have ordered : (Book.start.run moves).Ordered := Book.ordered_start.run moves
  have taken_eq := ordered.taken_eq (follows.running_eq.symm.trans stopped)
  have split : published reached.accepted =
      (timedSignals (Book.start.run moves).taken).map Prod.snd ++ published behind := by
    rw [map_snd_timedSignals, taken_eq, ← follows.accepted_eq, ← published_append,
      List.takeWhile_append_dropWhile]
  refine ⟨timedSignals (Book.start.run moves).taken, follows.dispatched_eq, split, ?_,
    publish_of_stopped stopped⟩
  rw [split]
  exact List.self_eq_append_right

/-- Between the shutdown and the loop's next turn a tick gets through, and it is lost. -/
theorem tick_lost_behind_shutdown :
    let tick : Signal := .encryptProgress "/dev/sda1" "sda1" 50
    let hosts : Hosts Unit := ⟨⟨fun _ => pure false, pure (.ok ())⟩, fun _ => pure none⟩
    let moves : List Move := [.request .shutdown, .request (.publish tick), .turn 0]
    let run := (start (.new 3000)).run hosts moves ()
    let reached := run.value.1
    reached.bus.isRunning = false ∧ published reached.accepted = [tick] ∧
      BusEvent.shownIn run.events = [] ∧ reached.bus.dispatcher.registry.hasJobs = false ∧
      ∃ dispatched : List (Instant × Signal),
        (∀ other,
          (dispatchAll hosts.desk (Bus.start (.new 3000)).dispatcher dispatched other).value =
            (reached.bus.dispatcher, other)) ∧
        dispatched.map Prod.snd ≠ published reached.accepted := by
  intro tick hosts moves run reached
  have stopped : reached.bus.isRunning = false := rfl
  refine ⟨stopped, rfl, rfl, rfl, ?_⟩
  obtain ⟨dispatched, dispatched_eq, -, all_iff, -⟩ :=
    dispatched_all_iff_none_behind_shutdown hosts (.new 3000) moves () stopped
  refine ⟨dispatched, fun other => (dispatched_eq other).1, fun all => ?_⟩
  cases all_iff.mp all

end DiskWarden.Exchange
