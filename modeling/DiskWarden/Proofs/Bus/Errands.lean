import DiskWarden.Proofs.Bus.Turns
import DiskWarden.Proofs.Dispatch.Offers

/-!
# What a loop has still to do

What waits in front of a shutdown will be dispatched, and what waits behind it will not.  Each
dispatched notification that calls for a reboot leaves an errand, and each such errand leads to
one question.
-/

namespace DiskWarden

open Dispatcher

/-- The offer that an errand is about. -/
def Errand.offer? : Errand → Option (Device × Decision)
  | .reboot device decision => some (device, decision)
  | .password .. => none

/-- The question that a worker puts. -/
def BusEvent.question? : BusEvent → Option (String × String)
  | .shown _ => none
  | .asked event => event.question?
  | .called _ => none

/-- The offers that some errands are about. -/
def Errand.offers (errands : List Errand) : List (Device × Decision) :=
  errands.filterMap offer?

theorem Errand.offers_append (earlier later : List Errand) :
    offers (earlier ++ later) = offers earlier ++ offers later :=
  List.filterMap_append

namespace Bus

variable {σ : Type} {bus : Bus}

theorem send_eq_ok {bus left : Bus} {command : Command} (sent : bus.send command = .ok left) :
    left = { bus with queue := bus.queue ++ [command] } := by
  unfold send at sent
  split at sent
  · exact (Except.ok.inj sent).symm
  · cases sent

/-! ## Notifications -/

/-- The notifications that the loop will dispatch. -/
def due (bus : Bus) : List Signal :=
  if bus.isRunning then (bus.queue.takeWhile (· ≠ .shutdown)).filterMap Command.signal? else []

theorem Serving.due_eq (serving : bus.Serving) : bus.due = bus.waiting := by
  have all : ∀ command ∈ bus.queue, decide (command ≠ .shutdown) = true := by
    intro command member
    refine decide_eq_true fun same => serving.staying ?_
    rw [← same]
    exact member
  rw [due, if_pos serving.running, List.takeWhile_eq_self_iff.mpr all, waiting]

theorem due_of_stopped (stopped : bus.isRunning = false) : bus.due = [] := by
  rw [due, stopped]
  rfl

/-- A command that is no notification adds nothing to what will be dispatched. -/
theorem due_append (bus : Bus) {command : Command} (other : command.signal? = none) :
    due { bus with queue := bus.queue ++ [command] } = bus.due := by
  have none : ([command].takeWhile (· ≠ .shutdown)).filterMap Command.signal? = [] := by
    rw [List.filterMap_eq_nil_iff]
    intro last member
    have same := List.mem_singleton.mp ((List.takeWhile_subset _) member)
    rw [same]
    exact other
  unfold due
  rw [List.takeWhile_append]
  split
  · split
    · next whole =>
        rw [List.filterMap_append, none, List.append_nil,
          (List.takeWhile_prefix _).eq_of_length whole]
    · rfl
  · rfl

variable {desk : Desk σ} {now : Instant} {left : Bus} {shown : List DeskEvent}

/-- A turn dispatches the next notification that is due. -/
structure Dispatching (desk : Desk σ) (now : Instant) (bus left : Bus)
    (shown : List DeskEvent) : Prop where
  defers : left.dispatcher.defersReboots = true
  due_eq : bus.due = (bus.upcoming now).map Prod.snd ++ left.due
  dispatched_eq : ∀ host,
    (dispatchAll desk bus.dispatcher (bus.upcoming now) host).value = (left.dispatcher, host) ∧
      (dispatchAll desk bus.dispatcher (bus.upcoming now) host).events = shown

theorem due_of_cons {command : Command} {queue : List Command} (running : bus.isRunning = true)
    (waits : bus.queue = command :: queue) (other : command ≠ .shutdown) :
    bus.due = command.signal?.toList ++ due { bus with queue } := by
  have front : (command :: queue).takeWhile (· ≠ .shutdown) =
      command :: queue.takeWhile (· ≠ .shutdown) :=
    List.takeWhile_cons_of_pos (decide_eq_true other)
  rw [due, due, if_pos running, if_pos running, waits, front, List.filterMap_cons]
  cases command.signal? <;> rfl

theorem upcoming_of_idle (now : Instant) (idle : bus.isRunning = true → bus.queue = []) :
    bus.upcoming now = [] := by
  by_cases running : bus.isRunning = true
  · exact upcoming_of_nil now (idle running)
  · unfold upcoming
    rw [eq_false_of_ne_true running]

theorem TurnStep.dispatching (step : TurnStep desk now bus left shown)
    (defers : bus.dispatcher.defersReboots = true) : Dispatching desk now bus left shown := by
  cases step with
  | rest idle =>
      have none := upcoming_of_idle now idle
      refine ⟨defers, ?_, fun host => ?_⟩
      · rw [none]
        rfl
      · rw [none]
        exact ⟨rfl, rfl⟩
  | signal sent queue dispatched left shown running waits defers dispatch_eq =>
      have next := upcoming_of_cons now running waits
      refine ⟨defers, ?_, fun host => ?_⟩
      · rw [due_of_cons running waits Command.noConfusion, next]
        rfl
      · rw [next]
        change (dispatchAll desk bus.dispatcher [(now, sent)] host).value = _ ∧
          (dispatchAll desk bus.dispatcher [(now, sent)] host).events = _
        rw [dispatchAll_cons, Act.bind_apply, (dispatch_eq host).1, (dispatch_eq host).2]
        exact ⟨rfl, List.append_nil shown⟩
  | password ticket device queue running waits =>
      have next := upcoming_of_cons now running waits
      refine ⟨defers, ?_, fun host => ?_⟩
      · rw [due_of_cons running waits Command.noConfusion, next]
        rfl
      · rw [next]
        exact ⟨rfl, rfl⟩
  | jobs ticket queue running waits =>
      have next := upcoming_of_cons now running waits
      refine ⟨defers, ?_, fun host => ?_⟩
      · rw [due_of_cons running waits Command.noConfusion, next]
        rfl
      · rw [next]
        exact ⟨rfl, rfl⟩
  | shutdown queue running waits =>
      have next := upcoming_of_cons now running waits
      refine ⟨defers, ?_, fun host => ?_⟩
      · rw [due, if_pos running, waits, next]
        rfl
      · rw [next]
        exact ⟨rfl, rfl⟩

/-! ## Offers -/

/-- A turn leaves the offer of the notification that it dispatches behind those that wait. -/
theorem TurnStep.offers_eq (step : TurnStep desk now bus left shown)
    (defers : bus.dispatcher.defersReboots = true) (host : σ) :
    Errand.offers left.errands =
      Errand.offers bus.errands ++ offersOf (bus.upcoming now) := by
  cases step with
  | rest idle =>
      rw [upcoming_of_idle now idle]
      exact (List.append_nil _).symm
  | signal sent queue dispatched left shown running waits _ dispatch_eq =>
      have next := upcoming_of_cons now running waits
      have errands := errandOf_dispatch desk bus.dispatcher host defers now sent
      rw [(dispatch_eq host).1] at errands
      rw [Errand.offers_append, errands, next]
      change _ = _ ++ offersOf [(now, sent)]
      rw [offersOf_cons]
      cases sent.offer? <;> rfl
  | password ticket device queue running waits =>
      have next := upcoming_of_cons now running waits
      rw [Errand.offers_append, next]
      rfl
  | jobs ticket queue running waits =>
      rw [upcoming_of_cons now running waits]
      exact (List.append_nil _).symm
  | shutdown queue running waits =>
      rw [upcoming_of_cons now running waits]
      exact (List.append_nil _).symm

/-- What becomes visible of a turn is what the dispatcher shows. -/
theorem exists_shown_of_mem_turn {hosts : Hosts σ} {host : σ} {event : BusEvent}
    (member : event ∈ (bus.turn hosts now host).events) : ∃ shown, event = .shown shown := by
  by_cases running : bus.isRunning = true
  · cases waits : bus.queue with
    | nil =>
        rw [turn_of_nil hosts now waits] at member
        cases member
    | cons command queue =>
        rw [turn_of_cons hosts now running waits] at member
        cases command with
        | signal sent =>
            simp only [execute, Act.bind_apply, Act.record_apply, Act.mapEvents_apply,
              Act.pure_apply, List.nil_append, List.append_nil] at member
            obtain ⟨shown, -, same⟩ := List.mem_map.mp member
            exact ⟨shown, same.symm⟩
        | password ticket device => cases member
        | jobs ticket => cases member
        | shutdown =>
            rw [(execute_shutdown hosts now { bus with queue } host).2] at member
            cases member
  · rw [turn_of_stopped hosts now (eq_false_of_ne_true running)] at member
    cases member

theorem question?_turn (hosts : Hosts σ) (now : Instant) (bus : Bus) (host : σ) :
    (bus.turn hosts now host).events.filterMap BusEvent.question? = [] := by
  rw [List.filterMap_eq_nil_iff]
  intro event member
  obtain ⟨shown, rfl⟩ := exists_shown_of_mem_turn member
  rfl

theorem question?_perform (hosts : Hosts σ) (bus : Bus) (errand : Errand) (host : σ) :
    (bus.perform hosts errand host).events.filterMap BusEvent.question? =
      errand.offer?.toList.map fun offer => offer.2.question := by
  cases errand with
  | reboot device decision =>
      simp only [perform, Act.bind_apply, Act.mapEvents_apply, Act.record_apply, Act.pure_apply,
        List.append_nil, List.filterMap_map, events_offerReboot]
      split <;> rfl
  | password ticket device =>
      simp only [perform, Act.bind_apply, Act.mapEvents_apply, Act.pure_apply, List.append_nil,
        List.filterMap_map]
      exact List.filterMap_eq_nil_iff.mpr fun call _ => rfl

theorem errands_perform (hosts : Hosts σ) (bus : Bus) (errand : Errand) (host : σ) :
    (bus.perform hosts errand host).value.1.errands = bus.errands := by
  cases errand <;> rfl

theorem errands_work (hosts : Hosts σ) {place : Nat} {errand : Errand}
    (found : bus.errands[place]? = some errand) (host : σ) :
    (bus.work hosts place host).value.1.errands = bus.errands.eraseIdx place := by
  unfold work
  rw [found]
  exact errands_perform hosts _ errand host

theorem errands_works (hosts : Hosts σ) (count : Nat) (bus : Bus) (host : σ) :
    (bus.works hosts count host).value.1.errands = bus.errands.drop count := by
  induction count generalizing bus host with
  | zero => rfl
  | succ count inductionHypothesis =>
      rw [works, Act.bind_apply, inductionHypothesis]
      cases waits : bus.errands with
      | nil =>
          have idle : bus.work hosts 0 = pure bus := by
            unfold work
            rw [waits]
            rfl
          rw [idle, Act.pure_apply, waits, List.drop_nil, List.drop_nil]
      | cons errand errands =>
          have found : bus.errands[0]? = some errand := by
            rw [waits]
            rfl
          rw [errands_work hosts found, waits]
          rfl

/-- A worker puts one question for each offer that it takes from those that wait. -/
theorem questions_work (hosts : Hosts σ) (bus : Bus) (place : Nat) (host : σ) :
    let worked := bus.work hosts place host
    (worked.events.filterMap BusEvent.question? ++
        (Errand.offers worked.value.1.errands).map fun offer => offer.2.question).Perm
      ((Errand.offers bus.errands).map fun offer => offer.2.question) := by
  intro worked
  cases found : bus.errands[place]? with
  | none =>
      have idle : bus.work hosts place = pure bus := by
        unfold work
        rw [found]
      simp only [worked, idle]
      exact .refl _
  | some errand =>
      have works : bus.work hosts place =
          perform hosts { bus with errands := bus.errands.eraseIdx place } errand := by
        unfold work
        rw [found]
      simp only [worked, works, question?_perform, errands_perform, ← List.map_append]
      have taken := (cons_eraseIdx_perm found).filterMap Errand.offer?
      apply List.Perm.map
      rw [List.filterMap_cons] at taken
      cases offered : errand.offer? with
      | none =>
          rw [offered] at taken
          exact taken
      | some offer =>
          rw [offered] at taken
          exact taken

/-- A worker with a password request leaves the offers as they are. -/
theorem work_of_other (hosts : Hosts σ) (bus : Bus) (place : Nat) (host : σ)
    (other : ∀ device decision, bus.errands[place]? ≠ some (.reboot device decision)) :
    let worked := bus.work hosts place host
    (Errand.offers worked.value.1.errands).Perm (Errand.offers bus.errands) ∧
      ∀ event ∈ worked.events, ∃ call, event = .called call := by
  intro worked
  have worked_eq : worked = bus.work hosts place host := rfl
  unfold work at worked_eq
  cases found : bus.errands[place]? with
  | none =>
      rw [found] at worked_eq
      rw [worked_eq]
      exact ⟨.refl _, fun event member => absurd member List.not_mem_nil⟩
  | some errand =>
      rw [found] at worked_eq
      rw [worked_eq]
      cases errand with
      | reboot device decision => exact absurd found (other device decision)
      | password ticket device =>
          refine ⟨(cons_eraseIdx_perm found).filterMap Errand.offer?, fun event member => ?_⟩
          simp only [perform, Act.bind_apply, Act.mapEvents_apply, Act.pure_apply,
            List.append_nil] at member
          obtain ⟨call, -, same⟩ := List.mem_map.mp member
          exact ⟨call, same.symm⟩

end Bus

end DiskWarden
