import DiskWarden.Proofs.Bus.Order
import DiskWarden.Proofs.Bus.Orchestration
import Mathlib.Algebra.GroupWithZero.Nat

/-!
# A reboot is requested where the user has agreed to it, and nowhere else

Each dispatched notification that calls for a reboot leads to one offer, and no other does.  What
happens to an offer is fixed by how far its worker has come: one question, then one answer, and
one request behind a yes.  The loop puts no question and requests no reboot, and it does not
notice what the workers of the offers do.
-/

namespace DiskWarden

open Dispatcher Bus

namespace Exchange

variable {σ τ : Type} {desk : Desk σ} {dispatcher : Dispatcher} {book : Book}
  {reached : Exchange} {shown : List DeskEvent}

/-- Whoever would have been asked: a loop asks nobody. -/
theorem Follows.with_desk (follows : Follows desk dispatcher book reached shown) (host : σ)
    (other : Desk τ) : Follows other dispatcher book reached shown := by
  have same (taken : List (Instant × Request)) (otherHost : τ) :=
    dispatchAll_of_defers other (Bus.start dispatcher).dispatcher otherHost rfl (timedSignals taken)
  have known (taken : List (Instant × Request)) :=
    dispatchAll_of_defers desk (Bus.start dispatcher).dispatcher host rfl (timedSignals taken)
  obtain ⟨accepted_eq, running_eq, queue_eq, defers, dispatched_eq, snapshots_eq⟩ := follows
  refine ⟨accepted_eq, running_eq, queue_eq, defers, fun otherHost => ?_,
    fun otherHost place => ?_⟩
  · obtain ⟨value_eq, events_eq⟩ := dispatched_eq host
    rw [(known _).1] at value_eq
    rw [(same _ otherHost).1, (same _ otherHost).2, ← events_eq, (known _).2,
      (Prod.mk.inj value_eq).1]
    exact ⟨rfl, rfl⟩
  · rw [snapshots_eq host place]
    unfold snapshot?
    split
    · rw [(same _ otherHost).1, (known _).1]
    · rfl

/-- What a turn is about to dispatch is what the book takes next. -/
theorem Follows.timedSignals_take (follows : Follows desk dispatcher book reached shown)
    (now : Instant) :
    timedSignals (book.take now).taken =
      timedSignals book.taken ++ reached.bus.upcoming now := by
  have queue_eq := follows.queue_eq
  have running_eq := follows.running_eq
  by_cases opened : book.isOpen = true
  · rw [if_pos opened] at queue_eq
    rw [opened] at running_eq
    cases waits : book.waiting with
    | nil =>
        rw [waits] at queue_eq
        rw [Book.take_of_empty (fun _ => waits), upcoming_of_nil now queue_eq, List.append_nil]
    | cons request waiting =>
        rw [waits] at queue_eq
        rw [upcoming_of_cons now running_eq queue_eq]
        by_cases stopping : request = .shutdown
        · subst stopping
          rw [Book.take_of_shutdown opened waits]
          exact (List.append_nil _).symm
        · rw [Book.take_of_cons opened waits stopping, timedSignals_append]
          cases request <;> rfl
  · have closed := eq_false_of_ne_true opened
    rw [closed] at running_eq
    rw [Book.take_of_empty (fun opens => absurd opens opened),
      upcoming_of_idle now fun runs => absurd (running_eq.symm.trans runs) Bool.noConfusion,
      List.append_nil]

/-- A loop shows nothing that has to do with a reboot. -/
theorem Follows.isPlain (follows : Follows desk dispatcher book reached shown) (host : σ) :
    ∀ event ∈ shown, event.isPlain = true := by
  have filtered := (dispatchAll_left desk (Bus.start dispatcher).dispatcher host
    (timedSignals book.taken)).2
  rw [← (dispatchAll_of_defers desk (Bus.start dispatcher).dispatcher host rfl
    (timedSignals book.taken)).2, (follows.dispatched_eq host).2] at filtered
  exact List.filter_eq_self.mp filtered

end Exchange

/-- The steps that the worker of an offer still has to take. -/
def OfferStage.remaining : OfferStage → Nat
  | due => 4
  | asked => 3
  | agreed => 2
  | requested => 1
  | ended _ => 0

namespace Offer

variable {σ : Type} {desk : Desk σ} {device : Device} {decision : Decision} {host left : σ}
  {stage next : OfferStage} {events : List OfferEvent}

/-- What an offer is about. -/
def terms (offer : Offer) : Device × Decision := (offer.device, offer.decision)

def isOver (offer : Offer) : Bool :=
  match offer.stage with
  | .ended _ => true
  | _ => false

theorem Step.story_eq (step : Step desk device decision host stage next left events) :
    story ⟨device, decision, next⟩ = story ⟨device, decision, stage⟩ ++ events := by
  cases step with
  | rest ending => exact (List.append_nil _).symm
  | grant => rfl
  | refuse => rfl
  | _ => rfl

theorem Step.remaining_lt (step : Step desk device decision host stage next left events)
    (more : 0 < stage.remaining) : next.remaining < stage.remaining := by
  cases step with
  | rest => cases more
  | _ => decide

theorem isOver_iff (offer : Offer) : offer.isOver = true ↔ offer.stage.remaining = 0 := by
  unfold isOver
  cases offer.stage <;> simp [OfferStage.remaining]

end Offer

namespace Orchestration

variable {σ τ : Type} {desk : Desk σ} {hosts : Hosts σ} {dispatcher : Dispatcher} {book : Book}
  {reached : Orchestration} {happened : List Happening}

/-- The loop has done what its book says and nothing else, the offers taken up and those that
wait are those of the dispatched notifications, and each offer has the story of its stage. -/
structure Orderly (desk : Desk σ) (dispatcher : Dispatcher) (book : Book)
    (reached : Orchestration) (happened : List Happening) : Prop where
  follows : Exchange.Follows desk dispatcher book reached.exchange (Happening.shownIn happened)
  offers_perm : (reached.offers.map Offer.terms ++
    Errand.offers reached.exchange.bus.errands).Perm (offersOf (timedSignals book.taken))
  stories : ∀ number, happened.filterMap (Happening.about? number) =
    (reached.offers[number]?).elim [] Offer.story
  quiet : ∀ event, .loop event ∈ happened →
    (∃ shown, event = .shown shown) ∨ ∃ call, event = .called call

theorem orderly_start (desk : Desk σ) (dispatcher : Dispatcher) :
    Orderly desk dispatcher .start (start dispatcher) [] where
  follows := Exchange.follows_start desk dispatcher
  offers_perm := .nil
  stories _ := rfl
  quiet _ member := absurd member List.not_mem_nil

theorem about?_map_loop (number : Nat) (events : List BusEvent) :
    (events.map Happening.loop).filterMap (Happening.about? number) = [] := by
  rw [List.filterMap_map, List.filterMap_eq_nil_iff]
  exact fun event _ => rfl

theorem shownIn_map_loop (events : List BusEvent) :
    Happening.shownIn (events.map .loop) = BusEvent.shownIn events := by
  rw [Happening.shownIn, List.filterMap_map]
  exact congrArg _ List.filterMap_some

/-- The loop, or a worker with a password request, has moved. -/
theorem Orderly.lift (orderly : Orderly desk dispatcher book reached happened) {book' : Book}
    {left : Exchange} {events : List BusEvent} (new : List (Device × Decision))
    (follows : Exchange.Follows desk dispatcher book' left
      (Happening.shownIn happened ++ BusEvent.shownIn events))
    (offers_perm : (Errand.offers left.bus.errands).Perm
      (Errand.offers reached.exchange.bus.errands ++ new))
    (taken_eq : offersOf (timedSignals book'.taken) = offersOf (timedSignals book.taken) ++ new)
    (quiet : ∀ event ∈ events, (∃ shown, event = .shown shown) ∨ ∃ call, event = .called call) :
    Orderly desk dispatcher book' { reached with exchange := left }
      (happened ++ events.map .loop) where
  follows := by
    rw [Happening.shownIn_append, shownIn_map_loop]
    exact follows
  offers_perm := by
    have moved := offers_perm.append_left (reached.offers.map Offer.terms)
    rw [← List.append_assoc] at moved
    rw [taken_eq]
    exact moved.trans (orderly.offers_perm.append_right new)
  stories number := by
    rw [List.filterMap_append, about?_map_loop, List.append_nil]
    exact orderly.stories number
  quiet event member := by
    rcases List.mem_append.mp member with earlier | later
    · exact orderly.quiet event earlier
    · obtain ⟨same, found, same_eq⟩ := List.mem_map.mp later
      cases same_eq
      exact quiet event found

theorem errands_request (exchange : Exchange) (request : Request) :
    (exchange.request request).bus.errands = exchange.bus.errands := by
  unfold Exchange.request
  cases sent : exchange.bus.send (request.command exchange.accepted.length) with
  | ok left => rw [send_eq_ok sent]
  | error fault => rfl

theorem Orderly.request (orderly : Orderly hosts.desk dispatcher book reached happened)
    (request : Request) (host : σ) :
    Orderly hosts.desk dispatcher (book.note request)
      (reached.lift hosts (.request request) host).value.1
      (happened ++ (reached.lift hosts (.request request) host).events) := by
  have follows := orderly.follows.move rfl (.request request) host
  rw [lift_apply]
  refine orderly.lift [] follows ?_ ?_ (fun _ member => absurd member List.not_mem_nil)
  · simp only [Exchange.move, Act.pure_apply, List.append_nil, errands_request]
    exact .refl _
  · unfold Book.note
    split <;> exact (List.append_nil _).symm

theorem Orderly.turn (orderly : Orderly hosts.desk dispatcher book reached happened)
    (now : Instant) (host : σ) :
    Orderly hosts.desk dispatcher (book.take now)
      (reached.lift hosts (.turn now) host).value.1
      (happened ++ (reached.lift hosts (.turn now) host).events) := by
  have follows := orderly.follows.move rfl (.turn now) host
  obtain ⟨left, shown, step, turn_eq⟩ := exists_turnStep hosts now orderly.follows.defers
  rw [lift_apply]
  refine orderly.lift (offersOf (reached.exchange.bus.upcoming now)) follows ?_ ?_ ?_
  · simp only [Exchange.move, Act.bind_apply, Act.pure_apply, turn_eq host]
    rw [step.offers_eq orderly.follows.defers host]
  · rw [orderly.follows.timedSignals_take, offersOf_append]
  · intro event member
    simp only [Exchange.move, Act.bind_apply, Act.pure_apply, List.append_nil] at member
    exact .inl (exists_shown_of_mem_turn member)

/-- A worker takes up an offer: it goes over from the errands to the offers. -/
theorem Orderly.takeUp (orderly : Orderly desk dispatcher book reached happened) {place : Nat}
    {device : Device} {decision : Decision}
    (found : reached.exchange.bus.errands[place]? = some (.reboot device decision)) :
    Orderly desk dispatcher book (reached.takeUp place ⟨device, decision, .due⟩) happened where
  follows := by
    obtain ⟨accepted_eq, running_eq, queue_eq, defers, dispatched_eq, snapshots_eq⟩ :=
      orderly.follows
    exact ⟨accepted_eq, running_eq, queue_eq, defers, dispatched_eq, snapshots_eq⟩
  offers_perm := by
    have taken := (cons_eraseIdx_perm found).filterMap Errand.offer?
    have moved := (taken.append_left (reached.offers.map Offer.terms)).trans orderly.offers_perm
    simp only [Orchestration.takeUp, List.map_append, List.append_assoc]
    exact moved
  stories number := by
    rw [orderly.stories number]
    simp only [Orchestration.takeUp]
    rcases Nat.lt_trichotomy number reached.offers.length with earlier | last | later
    · rw [List.getElem?_append_left earlier]
    · rw [last, List.getElem?_concat_length, List.getElem?_eq_none (Nat.le_refl _)]
      rfl
    · rw [List.getElem?_eq_none (Nat.le_of_lt later), List.getElem?_eq_none]
      rw [List.length_append]
      exact later
  quiet := orderly.quiet

theorem Orderly.work (orderly : Orderly hosts.desk dispatcher book reached happened)
    (place : Nat) (host : σ) :
    Orderly hosts.desk dispatcher book (reached.work hosts place host).value.1
      (happened ++ (reached.work hosts place host).events) := by
  by_cases offers : ∃ device decision,
      reached.exchange.bus.errands[place]? = some (.reboot device decision)
  · obtain ⟨device, decision, found⟩ := offers
    have works : reached.work hosts place =
        pure (reached.takeUp place ⟨device, decision, .due⟩) := by
      unfold Orchestration.work
      rw [found]
    rw [works, Act.pure_apply, List.append_nil]
    exact orderly.takeUp found
  · have other : ∀ device decision,
        reached.exchange.bus.errands[place]? ≠ some (.reboot device decision) :=
      fun device decision found => offers ⟨device, decision, found⟩
    obtain ⟨offers_perm, called⟩ :=
      Bus.work_of_other hosts reached.exchange.bus place host other
    have follows := orderly.follows.move rfl (.work place) host
    rw [work_of_other hosts reached place other, lift_apply]
    refine orderly.lift [] follows ?_ (List.append_nil _).symm fun event member => ?_
    · rw [List.append_nil]
      exact offers_perm
    · simp only [Exchange.move, Act.bind_apply, Act.pure_apply, List.append_nil] at member
      exact .inr (called event member)

theorem about?_map_offer (number other : Nat) (events : List OfferEvent) :
    (events.map (.offer number)).filterMap (Happening.about? other) =
      if number = other then events else [] := by
  rw [List.filterMap_map]
  by_cases same : number = other
  · rw [if_pos same]
    have all : Happening.about? other ∘ Happening.offer number = some := by
      funext event
      exact if_pos same
    rw [all, List.filterMap_some]
  · rw [if_neg same, List.filterMap_eq_nil_iff]
    exact fun event _ => if_neg same

theorem shownIn_map_offer (number : Nat) (events : List OfferEvent) :
    Happening.shownIn (events.map (.offer number)) = [] := by
  have none : (events.map (Happening.offer number)).filterMap Happening.loop? = [] := by
    rw [List.filterMap_map, List.filterMap_eq_nil_iff]
    exact fun event _ => rfl
  rw [Happening.shownIn, none]
  rfl

theorem Orderly.advance (orderly : Orderly hosts.desk dispatcher book reached happened)
    (number : Nat) (host : σ) :
    Orderly hosts.desk dispatcher book (reached.advance hosts number host).value.1
      (happened ++ (reached.advance hosts number host).events) := by
  cases found : reached.offers[number]? with
  | none =>
      have rests : reached.advance hosts number = pure reached := by
        unfold Orchestration.advance
        rw [found]
      rw [rests, Act.pure_apply, List.append_nil]
      exact orderly
  | some offer =>
      obtain ⟨next, value_eq, step⟩ := Offer.step_advance hosts.desk offer host
      have bound := (List.getElem?_eq_some_iff.mp found).1
      rw [advance_apply hosts reached found, value_eq]
      refine ⟨?_, ?_, fun other => ?_, fun event member => ?_⟩
      · rw [Happening.shownIn_append, shownIn_map_offer, List.append_nil]
        exact orderly.follows
      · have same : (reached.offers.set number { offer with stage := next }).map Offer.terms =
            reached.offers.map Offer.terms := by
          rw [List.map_set]
          apply set_of_getElem?
          rw [List.getElem?_map, found]
          rfl
        rw [same]
        exact orderly.offers_perm
      · rw [List.filterMap_append, orderly.stories other, about?_map_offer]
        by_cases same : number = other
        · subst same
          rw [if_pos rfl, List.getElem?_set_self bound, found]
          exact step.story_eq.symm
        · rw [if_neg same, List.getElem?_set_ne same, List.append_nil]
      · rcases List.mem_append.mp member with earlier | later
        · exact orderly.quiet event earlier
        · obtain ⟨_, _, same⟩ := List.mem_map.mp later
          cases same

/-- The book of a run knows of its requests and turns only. -/
def bookOf (moves : List Move) : Book := Book.start.run (moves.filterMap Move.exchange?)

theorem Orderly.run (orderly : Orderly hosts.desk dispatcher book reached happened)
    (moves : List Move) (host : σ) :
    Orderly hosts.desk dispatcher (book.run (moves.filterMap Move.exchange?))
      (reached.run hosts moves host).value.1
      (happened ++ (reached.run hosts moves host).events) := by
  induction moves generalizing book reached happened host with
  | nil => exact (List.append_nil happened).symm ▸ orderly
  | cons move moves inductionHypothesis =>
      rw [run_cons, Act.bind_apply, ← List.append_assoc]
      cases move with
      | request request => exact inductionHypothesis (orderly.request request host) _
      | turn now => exact inductionHypothesis (orderly.turn now host) _
      | work place => exact inductionHypothesis (orderly.work place host) _
      | advance number => exact inductionHypothesis (orderly.advance number host) _

/-! ## Every worker can be brought to its end -/

/-- The steps that workers still have to take, of which the first takes up an errand. -/
def remaining (orchestration : Orchestration) : Nat :=
  orchestration.exchange.bus.errands.length * 5 +
    (orchestration.offers.map fun offer => offer.stage.remaining).sum

theorem length_eraseIdx_add_one {errands : List Errand} {place : Nat} {errand : Errand}
    (found : errands[place]? = some errand) :
    (errands.eraseIdx place).length + 1 = errands.length :=
  (cons_eraseIdx_perm found).length_eq

theorem remaining_work (hosts : Hosts σ) (reached : Orchestration) (host : σ) {place : Nat}
    {errand : Errand} (found : reached.exchange.bus.errands[place]? = some errand) :
    (reached.work hosts place host).value.1.remaining < reached.remaining := by
  have shorter := length_eraseIdx_add_one found
  cases errand with
  | reboot device decision =>
      have works : reached.work hosts place =
          pure (reached.takeUp place ⟨device, decision, .due⟩) := by
        unfold Orchestration.work
        rw [found]
      simp only [works, Act.pure_apply, remaining, takeUp, List.map_append, List.map_cons,
        List.map_nil, List.sum_append, List.sum_cons, List.sum_nil, OfferStage.remaining]
      omega
  | password ticket device =>
      have works : reached.work hosts place = reached.lift hosts (.work place) := by
        unfold Orchestration.work
        rw [found]
      rw [works, lift_apply]
      simp only [remaining, Exchange.move, Act.bind_apply, Act.pure_apply,
        errands_work hosts found host]
      omega

theorem sum_set_lt {offers : List Offer} {number : Nat} {offer next : Offer}
    (found : offers[number]? = some offer)
    (lower : next.stage.remaining < offer.stage.remaining) :
    ((offers.set number next).map fun offer => offer.stage.remaining).sum <
      (offers.map fun offer => offer.stage.remaining).sum := by
  have bound := (List.getElem?_eq_some_iff.mp found).1
  have left := ((List.set_perm_cons_eraseIdx bound next).map
    fun offer => offer.stage.remaining).sum_nat
  have before := ((cons_eraseIdx_perm found).map fun offer => offer.stage.remaining).sum_nat
  rw [List.map_cons, List.sum_cons] at left before
  omega

/-- While a worker has something to do, a step of it lowers what remains. -/
theorem exists_move_remaining (hosts : Hosts σ) (reached : Orchestration) (host : σ)
    (more : 0 < reached.remaining) :
    ∃ move : Move, move.exchange? = none ∧
      (reached.move hosts move host).value.1.remaining < reached.remaining := by
  cases waits : reached.exchange.bus.errands with
  | cons errand errands =>
      have found : reached.exchange.bus.errands[0]? = some errand := by
        rw [waits]
        rfl
      exact ⟨.work 0, rfl, remaining_work hosts reached host found⟩
  | nil =>
      rw [remaining, waits, List.length_nil, Nat.zero_mul, Nat.zero_add,
        List.sum_pos_iff_exists_pos_nat] at more
      obtain ⟨_, unfinished, steps⟩ := more
      obtain ⟨offer, member, rfl⟩ := List.mem_map.mp unfinished
      obtain ⟨number, found⟩ := List.mem_iff_getElem?.mp member
      obtain ⟨next, value_eq, step⟩ := Offer.step_advance hosts.desk offer host
      refine ⟨.advance number, rfl, ?_⟩
      rw [move, advance_apply hosts reached found, value_eq]
      exact Nat.add_lt_add_left (sum_set_lt found (step.remaining_lt steps)) _

/-- From any point on the workers alone can come to an end. -/
theorem exists_finished (hosts : Hosts σ) (reached : Orchestration) (host : σ) :
    ∃ more : List Move, (∀ move ∈ more, move.exchange? = none) ∧
      (reached.run hosts more host).value.1.remaining = 0 := by
  induction steps : reached.remaining using Nat.strongRecOn generalizing reached host with
  | ind count inductionHypothesis =>
      by_cases done : count = 0
      · exact ⟨[], fun move member => absurd member List.not_mem_nil, steps.trans done⟩
      · obtain ⟨first, silent, lower⟩ := exists_move_remaining hosts reached host (by omega)
        obtain ⟨later, rest, finished⟩ := inductionHypothesis _ (steps ▸ lower) _
          (reached.move hosts first host).value.2 rfl
        refine ⟨first :: later, List.forall_mem_cons.mpr ⟨silent, rest⟩, ?_⟩
        rw [run_cons, Act.bind_apply]
        exact finished

theorem finished_of_remaining (done : reached.remaining = 0) :
    reached.exchange.bus.errands = [] ∧ ∀ offer ∈ reached.offers, offer.isOver = true := by
  rw [remaining, Nat.add_eq_zero_iff, List.sum_eq_zero_iff_forall_eq_nat] at done
  obtain ⟨none, allOver⟩ := done
  refine ⟨List.eq_nil_of_length_eq_zero (by omega), fun offer member => ?_⟩
  exact offer.isOver_iff.mpr (allOver _ (List.mem_map_of_mem member))

/-- Behind the moves of any run the workers can come to an end, and then the offers over are those
of the notifications that were dispatched. -/
theorem exists_ended (hosts : Hosts σ) (dispatcher : Dispatcher) (moves : List Move) (host : σ) :
    ∃ more : List Move, (∀ move ∈ more, move.exchange? = none) ∧
      let ended := ((start dispatcher).run hosts (moves ++ more) host).value.1
      ended.exchange.bus.errands = [] ∧ (∀ offer ∈ ended.offers, offer.isOver = true) ∧
        (ended.offers.map Offer.terms).Perm (offersOf (timedSignals (bookOf moves).taken)) := by
  let run := (start dispatcher).run hosts moves host
  obtain ⟨more, silent, done⟩ := exists_finished hosts run.value.1 run.value.2
  -- The workers add nothing to the book, so it is still that of the first moves.
  have same : (moves ++ more).filterMap Move.exchange? = moves.filterMap Move.exchange? := by
    rw [List.filterMap_append, List.filterMap_eq_nil_iff.mpr silent, List.append_nil]
  have orderly : Orderly hosts.desk dispatcher (bookOf (moves ++ more)) _ _ :=
    (orderly_start hosts.desk dispatcher).run (moves ++ more) host
  have value_eq : ((start dispatcher).run hosts (moves ++ more) host).value =
      (run.value.1.run hosts more run.value.2).value := by
    rw [run_append, Act.bind_apply]
  rw [bookOf, same, value_eq] at orderly
  obtain ⟨none, allOver⟩ := finished_of_remaining done
  have offers_perm := orderly.offers_perm
  have nothing : Errand.offers [] = [] := rfl
  rw [none, nothing, List.append_nil] at offers_perm
  refine ⟨more, silent, ?_⟩
  rw [value_eq]
  exact ⟨none, allOver, offers_perm⟩

/-! ## Workers that act at once -/

/-- What comes of the moves of a loop whose workers go through with an offer at once: they show
the story of each offer that they settle, nothing else that becomes visible has to do with a
reboot, and the offers settled and those that wait are those of the dispatched notifications.
Workers that go step by step could have come to the same, with the same offers over.  And the
workers can always finish. -/
structure SettlesOffers (hosts : Hosts σ) (dispatcher : Dispatcher) (moves : List Exchange.Move)
    (host : σ) : Prop where
  asked_eq :
    ((Exchange.start dispatcher).run hosts moves host).events.filterMap BusEvent.asked? =
      (((Exchange.start dispatcher).settled hosts moves host).flatMap Offer.story).filterMap
        OfferEvent.shown?
  plain : ∀ event ∈ BusEvent.shownIn ((Exchange.start dispatcher).run hosts moves host).events,
    event.isPlain = true
  finished : ∀ offer ∈ (Exchange.start dispatcher).settled hosts moves host, offer.isOver = true
  offers_perm :
    let left := ((Exchange.start dispatcher).run hosts moves host).value.1
    (((Exchange.start dispatcher).settled hosts moves host).map Offer.terms ++
      Errand.offers left.bus.errands).Perm
        (offersOf (timedSignals (Book.start.run moves).taken))
  stepwise : ∃ steps : List Move,
    steps.filterMap Move.exchange? = moves.filter (fun move => !move.isWork) ∧
      ActsAs ((Exchange.start dispatcher).settled hosts moves host)
        ((start dispatcher).run hosts steps host)
        ((Exchange.start dispatcher).run hosts moves host)
  finishing : ∃ count,
    let finished :=
      (Exchange.start dispatcher).run hosts (moves ++ List.replicate count (.work 0)) host
    finished.value.1.bus.errands = []

theorem isOver_of_mem_settled (hosts : Hosts σ) {exchange : Exchange}
    {moves : List Exchange.Move} {host : σ} {offer : Offer}
    (member : offer ∈ exchange.settled hosts moves host) : offer.isOver = true := by
  induction moves generalizing exchange host with
  | nil => cases member
  | cons move moves inductionHypothesis =>
      rcases List.mem_append.mp member with here | later
      · cases move with
        | request request => cases here
        | turn now => cases here
        | work place =>
            obtain ⟨errand, -, settles⟩ := Option.bind_eq_some_iff.mp (Option.mem_toList.mp here)
            cases errand with
            | reboot device decision =>
                cases settles
                rfl
            | password ticket device => cases settles
      · exact inductionHypothesis later

theorem settlesOffers (hosts : Hosts σ) (dispatcher : Dispatcher) (moves : List Exchange.Move)
    (host : σ) : SettlesOffers hosts dispatcher moves host := by
  obtain ⟨steps, same, acts⟩ := exists_steps_of_run hosts (start dispatcher) moves host
  have orderly : Orderly hosts.desk dispatcher (bookOf steps) _ _ :=
    (orderly_start hosts.desk dispatcher).run steps host
  have follows : Exchange.Follows hosts.desk dispatcher (Book.start.run moves) _ _ :=
    (Exchange.follows_start hosts.desk dispatcher).run rfl moves host
  refine ⟨Exchange.asked_run hosts _ moves host, follows.isPlain host,
    fun offer member => isOver_of_mem_settled hosts member, ?_, ⟨steps, same, acts⟩, ?_⟩
  · have offers_perm := orderly.offers_perm
    have exchange_eq : ((start dispatcher).run hosts steps host).value.1.exchange =
        ((Exchange.start dispatcher).run hosts moves host).value.1 :=
      congrArg Prod.fst acts.value_eq
    rw [acts.offers_eq, exchange_eq, bookOf, same, Book.run_filter] at offers_perm
    exact offers_perm
  · let left := (Exchange.start dispatcher).run hosts moves host
    refine ⟨left.value.1.bus.errands.length, ?_⟩
    simp only [Exchange.run_append, Exchange.run_works, Act.bind_apply, Act.pure_apply]
    rw [errands_works, List.drop_length]

/-! ## The law -/

/-- In whatever order handles, loop and workers move, and whatever the user and the session
answer: the offers are those of the dispatched notifications that call for a reboot, which are
the results of a pre-encryption with code 0 and those of a decryption with code -1.  Each of them
has the story of its stage: its question is put once its worker comes to it, and a reboot is
requested once behind a yes and not otherwise.  The loop puts no question and requests no reboot.
Any other run with the same requests and turns, whoever answers and whenever the workers move,
dispatches and shows the same and leaves the same loop.  And the workers can always come to their
end, with one offer over for each notification that calls for one.  All this holds of workers that
go step by step, and of those that go through with an offer at once. -/
theorem reboots_follow_answers (hosts : Hosts σ) (dispatcher : Dispatcher) (moves : List Move)
    (host : σ) :
    let run := (start dispatcher).run hosts moves host
    let reached := run.value.1
    let dispatched := timedSignals (bookOf moves).taken
    Orderly hosts.desk dispatcher (bookOf moves) reached run.events ∧
    (∀ event ∈ Happening.shownIn run.events, event.isPlain = true) ∧
    (∀ (sent : Signal) device decision, sent.offer? = some (device, decision) ↔
      device = sent.device ∧ sent.CallsForReboot decision) ∧
    (∀ (others : Hosts τ) (otherMoves : List Move) (other : τ),
      otherMoves.filterMap Move.exchange? = moves.filterMap Move.exchange? →
      let otherRun := (start dispatcher).run others otherMoves other
      Exchange.Alike reached.exchange otherRun.value.1.exchange ∧
        Happening.shownIn run.events = Happening.shownIn otherRun.events) ∧
    (∃ more : List Move, (∀ move ∈ more, move.exchange? = none) ∧
      let finished := ((start dispatcher).run hosts (moves ++ more) host).value.1
      finished.exchange.bus.errands = [] ∧ (∀ offer ∈ finished.offers, offer.isOver = true) ∧
        (finished.offers.map Offer.terms).Perm (offersOf dispatched)) ∧
    ∀ atOnce : List Exchange.Move,
      SettlesOffers hosts dispatcher atOnce host ∧
      ∀ (others : Hosts τ) (otherMoves : List Exchange.Move) (other : τ),
        (otherMoves.filter fun move => !move.isWork) = (atOnce.filter fun move => !move.isWork) →
        let settling := (Exchange.start dispatcher).run hosts atOnce host
        let otherRun := (Exchange.start dispatcher).run others otherMoves other
        Exchange.Alike settling.value.1 otherRun.value.1 ∧
          BusEvent.shownIn settling.events = BusEvent.shownIn otherRun.events := by
  intro run reached dispatched
  have orderly : Orderly hosts.desk dispatcher (bookOf moves) reached run.events :=
    (orderly_start hosts.desk dispatcher).run moves host
  refine ⟨orderly, orderly.follows.isPlain host, Signal.offer?_eq_some_iff,
    fun others otherMoves other same => ?_, exists_ended hosts dispatcher moves host,
    fun atOnce => ⟨settlesOffers hosts dispatcher atOnce host,
      fun others otherMoves other same => ?_⟩⟩
  · have otherOrderly : Orderly others.desk dispatcher (bookOf otherMoves) _ _ :=
      (orderly_start others.desk dispatcher).run otherMoves other
    rw [bookOf, same] at otherOrderly
    exact orderly.follows.alike (otherOrderly.follows.with_desk other hosts.desk) host
  · have settling : Exchange.Follows hosts.desk dispatcher (Book.start.run atOnce) _ _ :=
      (Exchange.follows_start hosts.desk dispatcher).run rfl atOnce host
    have otherFollows : Exchange.Follows others.desk dispatcher (Book.start.run otherMoves) _ _ :=
      (Exchange.follows_start others.desk dispatcher).run rfl otherMoves other
    rw [← Book.run_filter, same, Book.run_filter] at otherFollows
    exact settling.alike (otherFollows.with_desk other hosts.desk) host

/-- A user who agrees or not, and a session that refuses the reboot. -/
def refusingHosts (agrees : Bool) : Hosts Unit :=
  ⟨⟨fun _ => pure agrees, pure (.error (.io "refused"))⟩, fun _ => pure none⟩

def preparedMoves : List Move :=
  [.request (.publish (.prepareEncryptDiskResult "/dev/sda1" "sda1" "" (.ofSmall 0))), .turn 6]

def agreedMoves : List Move := preparedMoves ++ [.work 0, .advance 0, .advance 0, .advance 0]

/-- A user who agrees to a reboot for a decryption only, and a session that refuses it. -/
def choosyHosts : Hosts Unit :=
  ⟨⟨fun decision => pure (decision.title == "Decrypt device"), pure (.error (.io "refused"))⟩,
    fun _ => pure none⟩

/-- Two results that call for a reboot and a password request, of which the workers take the
second offer first. -/
def settlingMoves : List Exchange.Move :=
  [.request (.publish (.prepareEncryptDiskResult "/dev/sda1" "sda1" "" (.ofSmall 0))),
    .request (.acquirePassword ⟨"/dev/sda2"⟩),
    .request (.publish
      (.decryptDiskResult "/dev/sdb1" "sdb1" "" ((Code.ofInt? (-1)).getD default))),
    .turn 6, .turn 7, .turn 8, .work 2, .work 1, .work 0]

/-- Whether a worker has requested the reboot or not even come to its question, the loop is the
same.  Workers that act at once put two questions, and request the one reboot that was agreed
to. -/
theorem agreed_reboot_unnoticed :
    let asked := (start (.new 3)).run (refusingHosts true) agreedMoves ()
    let unasked := (start (.new 3)).run (refusingHosts false) preparedMoves ()
    let settling := (Exchange.start (.new 3)).run choosyHosts settlingMoves ()
    let idle := (Exchange.start (.new 3)).run (refusingHosts true)
      (settlingMoves.filter fun move => !move.isWork) ()
    asked.value.1.offers.map (fun offer => offer.stage) = [.requested] ∧
      Exchange.Alike asked.value.1.exchange unasked.value.1.exchange ∧
      Happening.shownIn asked.events = Happening.shownIn unasked.events ∧
      settling.events.filterMap BusEvent.asked? =
        [.rebootAsked "Decrypt device" "Please reboot to decrypt device sdb1(sdb1).",
          .rebootRequested,
          .rebootAsked "Preencrypt done"
            "Device sda1(sda1) has been preencrypt, please reboot to finish encryption."] ∧
      Exchange.Alike settling.value.1 idle.value.1 ∧
      BusEvent.shownIn settling.events = BusEvent.shownIn idle.events := by
  have same : preparedMoves.filterMap Move.exchange? = agreedMoves.filterMap Move.exchange? := rfl
  obtain ⟨alike, shown_eq⟩ :=
    (reboots_follow_answers (refusingHosts true) (.new 3) agreedMoves ()).2.2.2.1
      (refusingHosts false) preparedMoves () same
  obtain ⟨settles, unnoticed⟩ :=
    (reboots_follow_answers choosyHosts (.new 3) [] ()).2.2.2.2.2 settlingMoves
  refine ⟨by decide +kernel, alike, shown_eq, ?_, unnoticed (refusingHosts true) _ () ?_⟩
  · rw [settles.asked_eq]
    decide +kernel
  · rw [List.filter_filter]
    simp only [Bool.and_self]

end Orchestration

end DiskWarden
