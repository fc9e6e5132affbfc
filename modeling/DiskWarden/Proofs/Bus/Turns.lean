import DiskWarden.Proofs.Connection.Moves
import Mathlib.Data.List.Perm.Basic

/-!
# What the loop and its workers do

A turn takes the first command of the queue.  What it does to the loop depends on the command
alone, since a dispatcher that defers its questions asks nobody.  A worker settles an errand and
leaves everything else as it is.
-/

namespace DiskWarden.Bus

open Dispatcher

variable {σ : Type} {bus : Bus}

/-- What a turn makes of a loop, and what the dispatcher shows by it. -/
inductive TurnStep (desk : Desk σ) (now : Instant) (bus : Bus) : Bus → List DeskEvent → Prop
  | rest (idle : bus.isRunning = true → bus.queue = []) : TurnStep desk now bus bus []
  | signal (sent : Signal) (queue : List Command) (dispatched : Dispatched) (left : Dispatcher)
      (shown : List DeskEvent) (running : bus.isRunning = true)
      (waits : bus.queue = .signal sent :: queue) (defers : left.defersReboots = true)
      (dispatch_eq : ∀ host,
        (dispatch desk bus.dispatcher now sent host).value = ((dispatched, left), host) ∧
          (dispatch desk bus.dispatcher now sent host).events = shown) :
      TurnStep desk now bus
        { bus with queue, dispatcher := left, errands := bus.errands ++ errandOf dispatched } shown
  | password (ticket : Ticket) (device : Device) (queue : List Command)
      (running : bus.isRunning = true) (waits : bus.queue = .password ticket device :: queue) :
      TurnStep desk now bus
        { bus with queue, errands := bus.errands ++ [.password ticket device] } []
  | jobs (ticket : Ticket) (queue : List Command) (running : bus.isRunning = true)
      (waits : bus.queue = .jobs ticket :: queue) :
      TurnStep desk now bus
        { bus with
          queue, snapshots := bus.snapshots.put ticket bus.dispatcher.registry.sortedJobs } []
  | shutdown (queue : List Command) (running : bus.isRunning = true)
      (waits : bus.queue = .shutdown :: queue) :
      TurnStep desk now bus
        { bus with isRunning := false, queue := [], replies := abandon bus.replies queue } []

theorem turn_of_stopped (hosts : Hosts σ) (now : Instant) (stopped : bus.isRunning = false) :
    bus.turn hosts now = pure bus := by
  unfold turn
  rw [stopped]

theorem execute_shutdown (hosts : Hosts σ) (now : Instant) (bus : Bus) (host : σ) :
    (execute hosts now bus .shutdown host).value =
        ({ bus with isRunning := false, queue := [], replies := abandon bus.replies bus.queue },
          host) ∧
      (execute hosts now bus .shutdown host).events = [] := by
  unfold execute
  by_cases inFlight : bus.dispatcher.registry.hasJobs = true <;> simp [inFlight]

/-- A turn is the same on every host. -/
theorem exists_turnStep (hosts : Hosts σ) (now : Instant)
    (defers : bus.dispatcher.defersReboots = true) :
    ∃ left shown, TurnStep hosts.desk now bus left shown ∧ ∀ host,
      (bus.turn hosts now host).value = (left, host) ∧
        BusEvent.shownIn (bus.turn hosts now host).events = shown := by
  by_cases running : bus.isRunning = true
  · cases waits : bus.queue with
    | nil =>
        rw [turn_of_nil hosts now waits]
        exact ⟨bus, [], .rest fun _ => waits, fun host => ⟨rfl, rfl⟩⟩
    | cons command queue =>
        rw [turn_of_cons hosts now running waits]
        cases command with
        | signal sent =>
            obtain ⟨dispatched, left, shown, defers, dispatch_eq⟩ :=
              dispatch_of_defers hosts.desk bus.dispatcher defers now sent
            refine ⟨_, shown, .signal sent queue dispatched left shown running waits defers
              dispatch_eq, fun host => ?_⟩
            have executed :
                (execute hosts now { bus with queue } (.signal sent) host).events =
                  shown.map .shown := by
              simp [execute, dispatch_eq]
            refine ⟨by simp [execute, dispatch_eq], ?_⟩
            rw [executed, shownIn_map_shown]
        | password ticket device =>
            exact ⟨_, [], .password ticket device queue running waits, fun host => ⟨rfl, rfl⟩⟩
        | jobs ticket => exact ⟨_, [], .jobs ticket queue running waits, fun host => ⟨rfl, rfl⟩⟩
        | shutdown =>
            refine ⟨_, [], .shutdown queue running waits, fun host => ?_⟩
            obtain ⟨value_eq, quiet⟩ := execute_shutdown hosts now { bus with queue } host
            rw [value_eq, quiet]
            exact ⟨rfl, rfl⟩
  · have stopped : bus.isRunning = false := eq_false_of_ne_true running
    rw [turn_of_stopped hosts now stopped]
    exact ⟨bus, [], .rest fun goesOn => absurd goesOn running, fun host => ⟨rfl, rfl⟩⟩

theorem cons_eraseIdx_perm {α : Type} {list : List α} {place : Nat} {item : α}
    (found : list[place]? = some item) : (item :: list.eraseIdx place).Perm list := by
  obtain ⟨bound, same⟩ := List.getElem?_eq_some_iff.mp found
  rw [← same]
  exact List.getElem_cons_eraseIdx_perm bound

/-- A worker changes nothing but the errands and the replies. -/
theorem work_frame (hosts : Hosts σ) (bus : Bus) (place : Nat) (host : σ) :
    (∃ errands replies,
      (bus.work hosts place host).value.1 = { bus with errands, replies }) ∧
      BusEvent.shownIn (bus.work hosts place host).events = [] := by
  refine ⟨?_, (framed_work hosts bus place host).quiet⟩
  unfold work
  cases bus.errands[place]? with
  | none => exact ⟨bus.errands, bus.replies, rfl⟩
  | some errand =>
      cases errand with
      | reboot device decision => exact ⟨_, _, rfl⟩
      | password ticket device => exact ⟨_, _, rfl⟩

end DiskWarden.Bus
