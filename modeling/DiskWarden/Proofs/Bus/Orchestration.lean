import DiskWarden.Proofs.Bus.Errands
import DiskWarden.Proofs.Bus.Exchange

/-!
# The workers of reboot offers, step by step

A question may stay open for as long as the user likes, and meanwhile the loop and the other
workers go on.  So the worker of an offer is taken apart here: it puts the question, takes the
answer, requests the reboot if the answer is yes, and takes the session's reply.  Between two of
these steps anything else may move.  One step behind the other they are what a worker of the loop
does at once.
-/

namespace DiskWarden

open Dispatcher

/-- What may become of an offer. -/
inductive OfferEnding
  | declined
  | granted
  | refused
deriving DecidableEq, Repr

def OfferEnding.presentation : OfferEnding → Presentation
  | declined => .rebootDeclined
  | granted => .rebootRequested
  | refused => .rebootFailed

/-- The log entry about the end of an offer. -/
def OfferEnding.entry (ending : OfferEnding) (device : Device) : LogEntry :=
  ⟨.info, "reboot offer for " ++ device.path ++ ": " ++ ending.presentation.logName⟩

/-- How far the worker of an offer has come. -/
inductive OfferStage
  | due
  | asked
  | agreed
  | requested
  | ended (ending : OfferEnding)
deriving DecidableEq, Repr

/-- A reboot offer that a worker has taken up. -/
structure Offer where
  device : Device
  decision : Decision
  stage : OfferStage
deriving DecidableEq, Repr

/-- How an offer ends that is put to a desk without a pause. -/
def Desk.offerEnding {σ : Type} (desk : Desk σ) (decision : Decision) (host : σ) : OfferEnding :=
  let asked := desk.confirm decision host
  if asked.value.1 then
    match (desk.reboot asked.value.2).value.1 with
    | .ok () => .granted
    | .error _ => .refused
  else .declined

/-- What happens to an offer. -/
inductive OfferEvent
  | asked (title message : String)
  | answered (agrees : Bool)
  | requested
deriving DecidableEq, Repr

/-- What becomes visible of it at the user's desk. -/
def OfferEvent.shown? : OfferEvent → Option DeskEvent
  | asked title message => some (.rebootAsked title message)
  | answered _ => none
  | requested => some .rebootRequested

namespace Offer

variable {σ : Type}

def close (offer : Offer) (ending : OfferEnding) : Act OfferEvent σ Offer := do
  Act.record (ending.entry offer.device).level (ending.entry offer.device).text
  pure { offer with stage := .ended ending }

/-- The next step of the worker of an offer. -/
def advance (desk : Desk σ) (offer : Offer) : Act OfferEvent σ Offer :=
  match offer.stage with
  | .due => do
      Act.emit (.asked offer.decision.title offer.decision.message)
      pure { offer with stage := .asked }
  | .asked => do
      let agrees ← Act.consult (desk.confirm offer.decision)
      Act.emit (.answered agrees)
      if agrees then
        Act.record .info "reboot is confirmed..."
        pure { offer with stage := .agreed }
      else offer.close .declined
  | .agreed => do
      Act.emit .requested
      pure { offer with stage := .requested }
  | .requested => do
      match ← Act.consult desk.reboot with
      | .ok () => offer.close .granted
      | .error fault =>
          Act.record .warn ("reboot request failed: " ++ fault.message)
          offer.close .refused
  | .ended _ => pure offer

def advances (desk : Desk σ) : Nat → Offer → Act OfferEvent σ Offer
  | 0, offer => pure offer
  | count + 1, offer => do advances desk count (← offer.advance desk)

/-- What has happened to an offer by the time it has come to its stage. -/
def story (offer : Offer) : List OfferEvent :=
  let question := OfferEvent.asked offer.decision.title offer.decision.message
  match offer.stage with
  | .due => []
  | .asked => [question]
  | .agreed => [question, .answered true]
  | .requested => [question, .answered true, .requested]
  | .ended .declined => [question, .answered false]
  | .ended .granted | .ended .refused => [question, .answered true, .requested]

/-- What one step of its worker does to an offer. -/
inductive Step (desk : Desk σ) (device : Device) (decision : Decision) (host : σ) :
    OfferStage → OfferStage → σ → List OfferEvent → Prop
  | ask : Step desk device decision host .due .asked host
      [.asked decision.title decision.message]
  | agree (agrees : (desk.confirm decision host).value.1 = true) :
      Step desk device decision host .asked .agreed (desk.confirm decision host).value.2
        [.answered true]
  | decline (declines : (desk.confirm decision host).value.1 = false) :
      Step desk device decision host .asked (.ended .declined)
        (desk.confirm decision host).value.2 [.answered false]
  | request : Step desk device decision host .agreed .requested host [.requested]
  | grant (grants : (desk.reboot host).value.1 = .ok ()) :
      Step desk device decision host .requested (.ended .granted) (desk.reboot host).value.2 []
  | refuse (fault : Fault) (refuses : (desk.reboot host).value.1 = .error fault) :
      Step desk device decision host .requested (.ended .refused) (desk.reboot host).value.2 []
  | rest (ending : OfferEnding) :
      Step desk device decision host (.ended ending) (.ended ending) host []

theorem advance_asked (desk : Desk σ) (device : Device) (decision : Decision) (host : σ) :
    advance desk ⟨device, decision, .asked⟩ host =
      let asked := desk.confirm decision host
      if asked.value.1 then
        ⟨(⟨device, decision, .agreed⟩, asked.value.2), [.answered true],
          asked.log ++ [⟨.info, "reboot is confirmed..."⟩]⟩
      else
        ⟨(⟨device, decision, .ended .declined⟩, asked.value.2), [.answered false],
          asked.log ++ [OfferEnding.declined.entry device]⟩ := by
  cases agrees : (desk.confirm decision host).value.1 with
  | true => simp [advance, agrees]
  | false => simp [advance, agrees, close]

theorem advance_requested (desk : Desk σ) (device : Device) (decision : Decision) (host : σ) :
    advance desk ⟨device, decision, .requested⟩ host =
      let replied := desk.reboot host
      match replied.value.1 with
      | .ok () =>
          ⟨(⟨device, decision, .ended .granted⟩, replied.value.2), [],
            replied.log ++ [OfferEnding.granted.entry device]⟩
      | .error fault =>
          ⟨(⟨device, decision, .ended .refused⟩, replied.value.2), [],
            replied.log ++ [⟨.warn, "reboot request failed: " ++ fault.message⟩,
              OfferEnding.refused.entry device]⟩ := by
  cases replies : (desk.reboot host).value.1 with
  | ok =>
      simp [advance, replies, close]
  | error fault =>
      simp [advance, replies, close]

theorem step_advance (desk : Desk σ) (offer : Offer) (host : σ) :
    let advanced := offer.advance desk host
    ∃ stage, advanced.value.1 = { offer with stage } ∧
      Step desk offer.device offer.decision host offer.stage stage advanced.value.2
        advanced.events := by
  obtain ⟨device, decision, stage⟩ := offer
  cases stage with
  | due => exact ⟨_, rfl, .ask⟩
  | asked =>
      simp only [advance_asked]
      cases agrees : (desk.confirm decision host).value.1 with
      | true => exact ⟨_, rfl, .agree agrees⟩
      | false => exact ⟨_, rfl, .decline agrees⟩
  | agreed => exact ⟨_, rfl, .request⟩
  | requested =>
      simp only [advance_requested]
      cases replies : (desk.reboot host).value.1 with
      | ok => exact ⟨_, rfl, .grant replies⟩
      | error fault => exact ⟨_, rfl, .refuse fault replies⟩
  | ended ending => exact ⟨_, rfl, .rest ending⟩

/-- Four steps of its worker bring an offer to its end, and come to one call of the desk. -/
theorem advances_eq_offerReboot (desk : Desk σ) (device : Device) (decision : Decision)
    (host : σ) :
    let atOnce := desk.offerReboot decision host
    let stepwise := advances desk 4 ⟨device, decision, .due⟩ host
    stepwise.value =
        (⟨device, decision, .ended (desk.offerEnding decision host)⟩, atOnce.value.2) ∧
      stepwise.events.filterMap OfferEvent.shown? = atOnce.events ∧
      stepwise.log = atOnce.log ++
        [⟨.info, "reboot offer for " ++ device.path ++ ": " ++ atOnce.value.1.logName⟩] := by
  have begun : advance desk ⟨device, decision, .due⟩ host =
      ⟨(⟨device, decision, .asked⟩, host), [.asked decision.title decision.message], []⟩ := rfl
  have requested (left : σ) : advance desk ⟨device, decision, .agreed⟩ left =
      ⟨(⟨device, decision, .requested⟩, left), [.requested], []⟩ := rfl
  have rests (ending : OfferEnding) (left : σ) :
      advance desk ⟨device, decision, .ended ending⟩ left =
        ⟨(⟨device, decision, .ended ending⟩, left), [], []⟩ := rfl
  simp only [advances, Act.bind_apply, Act.pure_apply, begun, advance_asked, Desk.offerEnding,
    Dispatcher.offerReboot_apply]
  cases agrees : (desk.confirm decision host).value.1 with
  | false =>
      simp only [Bool.false_eq_true, if_false, rests]
      refine ⟨trivial, rfl, ?_⟩
      simp [OfferEnding.entry, OfferEnding.presentation]
  | true =>
      simp only [if_true, requested, advance_requested]
      cases replies : (desk.reboot (desk.confirm decision host).value.2).value.1 with
      | ok =>
          refine ⟨rfl, rfl, ?_⟩
          simp [OfferEnding.entry, OfferEnding.presentation]
      | error fault =>
          refine ⟨rfl, rfl, ?_⟩
          simp [OfferEnding.entry, OfferEnding.presentation]

/-- What the desk shows of an offer that is put to it without a pause is the story of its end. -/
theorem shown_story_ended (desk : Desk σ) (device : Device) (decision : Decision) (host : σ) :
    (story ⟨device, decision, .ended (desk.offerEnding decision host)⟩).filterMap
        OfferEvent.shown? =
      (desk.offerReboot decision host).events := by
  rw [Dispatcher.events_offerReboot]
  simp only [Desk.offerEnding]
  cases agrees : (desk.confirm decision host).value.1 with
  | false =>
      simp only [Bool.false_eq_true, if_false]
      rfl
  | true =>
      simp only [if_true]
      cases (desk.reboot (desk.confirm decision host).value.2).value.1 <;> rfl

end Offer

/-! ## Workers that act at once -/

/-- What a worker shows at the user's desk. -/
def BusEvent.asked? : BusEvent → Option DeskEvent
  | .shown _ => none
  | .asked event => some event
  | .called _ => none

/-- The offer that an errand is about, with the end that it comes to without a pause. -/
def Errand.settled {σ : Type} (desk : Desk σ) (host : σ) : Errand → Option Offer
  | .reboot device decision => some ⟨device, decision, .ended (desk.offerEnding decision host)⟩
  | .password .. => none

/-- A worker shows the story of the offer that it goes through with, and nothing else. -/
theorem Bus.asked_perform {σ : Type} (hosts : Hosts σ) (bus : Bus) (errand : Errand) (host : σ) :
    (bus.perform hosts errand host).events.filterMap BusEvent.asked? =
      ((errand.settled hosts.desk host).toList.flatMap Offer.story).filterMap
        OfferEvent.shown? := by
  cases errand with
  | reboot device decision =>
      rw [Errand.settled, Option.toList_some, List.flatMap_singleton, Offer.shown_story_ended]
      simp only [perform, Act.bind_apply, Act.mapEvents_apply, Act.record_apply, Act.pure_apply,
        List.append_nil, List.filterMap_map]
      exact List.filterMap_some
  | password ticket device =>
      simp only [perform, Act.bind_apply, Act.mapEvents_apply, Act.pure_apply, List.append_nil,
        List.filterMap_map]
      exact List.filterMap_eq_nil_iff.mpr fun call _ => rfl

namespace Exchange

open Bus

variable {σ : Type}

/-- The offer that a move makes a worker go through with. -/
def settledBy (hosts : Hosts σ) (exchange : Exchange) (host : σ) : Move → Option Offer
  | .request _ => none
  | .turn _ => none
  | .work place => exchange.bus.errands[place]?.bind (·.settled hosts.desk host)

/-- The offers that the workers go through with in a run, each with its end. -/
def settled (hosts : Hosts σ) : Exchange → List Move → σ → List Offer
  | _, [], _ => []
  | exchange, move :: moves, host =>
      let moved := exchange.move hosts move host
      (exchange.settledBy hosts host move).toList ++
        settled hosts moved.value.1 moves moved.value.2

theorem asked_move (hosts : Hosts σ) (exchange : Exchange) (move : Move) (host : σ) :
    (exchange.move hosts move host).events.filterMap BusEvent.asked? =
      ((exchange.settledBy hosts host move).toList.flatMap Offer.story).filterMap
        OfferEvent.shown? := by
  cases move with
  | request request => rfl
  | turn now =>
      simp only [Exchange.move, Act.bind_apply, Act.pure_apply, List.append_nil]
      rw [settledBy, List.filterMap_eq_nil_iff.mpr]
      · rfl
      · intro event member
        obtain ⟨shown, rfl⟩ := exists_shown_of_mem_turn member
        rfl
  | work place =>
      simp only [Exchange.move, Act.bind_apply, Act.pure_apply, List.append_nil, settledBy,
        Bus.work]
      cases exchange.bus.errands[place]? with
      | none => rfl
      | some errand => exact asked_perform hosts _ errand host

theorem asked_run (hosts : Hosts σ) (exchange : Exchange) (moves : List Move) (host : σ) :
    (exchange.run hosts moves host).events.filterMap BusEvent.asked? =
      ((exchange.settled hosts moves host).flatMap Offer.story).filterMap OfferEvent.shown? := by
  induction moves generalizing exchange host with
  | nil => rfl
  | cons move moves inductionHypothesis =>
      rw [run_cons, Act.bind_apply, settled, List.filterMap_append, List.flatMap_append,
        List.filterMap_append, asked_move, inductionHypothesis]

end Exchange

/-! ## Workers that go step by step -/

/-- A loop, the requests that it has accepted, and the offers that its workers have taken up, in
the order in which they did. -/
structure Orchestration where
  exchange : Exchange
  offers : List Offer

/-- What happens in the loop, with password requests, or to the offer with a number. -/
inductive Happening
  | loop (event : BusEvent)
  | offer (number : Nat) (event : OfferEvent)
deriving DecidableEq, Repr

namespace Happening

def loop? : Happening → Option BusEvent
  | loop event => some event
  | offer .. => none

/-- What happens to the offer with a given number. -/
def about? (number : Nat) : Happening → Option OfferEvent
  | loop _ => none
  | offer other event => if other = number then some event else none

/-- What becomes visible, as a loop shows it whose workers act at once. -/
def visible? : Happening → Option BusEvent
  | loop event => some event
  | offer _ event => event.shown?.map .asked

/-- What the dispatcher shows. -/
def shownIn (happenings : List Happening) : List DeskEvent :=
  BusEvent.shownIn (happenings.filterMap loop?)

theorem shownIn_append (earlier later : List Happening) :
    shownIn (earlier ++ later) = shownIn earlier ++ shownIn later := by
  rw [shownIn, List.filterMap_append, BusEvent.shownIn, List.filterMap_append]
  rfl

end Happening

namespace Orchestration

open Bus

variable {σ : Type}

def start (dispatcher : Dispatcher) : Orchestration := ⟨Exchange.start dispatcher, []⟩

/-- A handle makes a request, the loop takes a turn, a worker takes up the errand at a place, or
the worker of an offer takes its next step. -/
inductive Move
  | request (request : Request)
  | turn (now : Instant)
  | work (place : Nat)
  | advance (number : Nat)
deriving DecidableEq, Repr

/-- What a move is to the loop, if it is anything to it. -/
def Move.exchange? : Move → Option Exchange.Move
  | .request asked => some (.request asked)
  | .turn now => some (.turn now)
  | .work _ => none
  | .advance _ => none

/-- Lets the loop and the password requests move. -/
def lift (hosts : Hosts σ) (orchestration : Orchestration) (move : Exchange.Move) :
    Act Happening σ Orchestration := do
  let exchange ← Act.mapEvents .loop (orchestration.exchange.move hosts move)
  pure { orchestration with exchange }

/-- A worker takes up an offer, which is the errand at a place. -/
def takeUp (orchestration : Orchestration) (place : Nat) (offer : Offer) : Orchestration where
  exchange := { orchestration.exchange with
    bus := { orchestration.exchange.bus with
      errands := orchestration.exchange.bus.errands.eraseIdx place } }
  offers := orchestration.offers ++ [offer]

/-- A worker takes up an errand. A password request is carried out at once. -/
def work (hosts : Hosts σ) (orchestration : Orchestration) (place : Nat) :
    Act Happening σ Orchestration :=
  match orchestration.exchange.bus.errands[place]? with
  | some (.reboot device decision) =>
      pure (orchestration.takeUp place ⟨device, decision, .due⟩)
  | _ => orchestration.lift hosts (.work place)

def advance (hosts : Hosts σ) (orchestration : Orchestration) (number : Nat) :
    Act Happening σ Orchestration :=
  match orchestration.offers[number]? with
  | some offer => do
      let offer ← Act.mapEvents (.offer number) (offer.advance hosts.desk)
      pure { orchestration with offers := orchestration.offers.set number offer }
  | none => pure orchestration

def move (hosts : Hosts σ) (orchestration : Orchestration) : Move → Act Happening σ Orchestration
  | .request request => orchestration.lift hosts (.request request)
  | .turn now => orchestration.lift hosts (.turn now)
  | .work place => orchestration.work hosts place
  | .advance number => orchestration.advance hosts number

def run (hosts : Hosts σ) (orchestration : Orchestration) (moves : List Move) :
    Act Happening σ Orchestration :=
  moves.foldlM (move hosts) orchestration

theorem run_cons (hosts : Hosts σ) (orchestration : Orchestration) (move : Move)
    (moves : List Move) :
    orchestration.run hosts (move :: moves) =
      orchestration.move hosts move >>= fun left => left.run hosts moves :=
  List.foldlM_cons

theorem run_append (hosts : Hosts σ) (orchestration : Orchestration)
    (earlier later : List Move) :
    orchestration.run hosts (earlier ++ later) =
      orchestration.run hosts earlier >>= fun left => left.run hosts later :=
  List.foldlM_append

/-! ## Workers that act at once are a case of this -/

/-- Some steps come to what a loop does whose workers act at once, and bring the offers to where
those have brought them. -/
structure ActsAs (offers : List Offer) (stepwise : Traced Happening (Orchestration × σ))
    (atOnce : Traced BusEvent (Exchange × σ)) : Prop where
  value_eq : (stepwise.value.1.exchange, stepwise.value.2) = atOnce.value
  offers_eq : stepwise.value.1.offers = offers
  events_eq : stepwise.events.filterMap Happening.visible? = atOnce.events
  log_eq : stepwise.log = atOnce.log

theorem set_of_getElem? {α : Type} {list : List α} {place : Nat} {item : α}
    (found : list[place]? = some item) : list.set place item = list := by
  obtain ⟨bound, same⟩ := List.getElem?_eq_some_iff.mp found
  rw [← same]
  exact List.set_getElem_self bound

theorem advance_apply (hosts : Hosts σ) (orchestration : Orchestration) {number : Nat}
    {offer : Offer} (found : orchestration.offers[number]? = some offer) (host : σ) :
    let advanced := offer.advance hosts.desk host
    orchestration.advance hosts number host =
      ⟨({ orchestration with offers := orchestration.offers.set number advanced.value.1 },
          advanced.value.2),
        advanced.events.map (.offer number), advanced.log⟩ := by
  unfold advance
  rw [found]
  simp

theorem run_advances (hosts : Hosts σ) (orchestration : Orchestration) (count number : Nat)
    {offer : Offer} (found : orchestration.offers[number]? = some offer) (host : σ) :
    let advanced := offer.advances hosts.desk count host
    orchestration.run hosts (List.replicate count (.advance number)) host =
      ⟨({ orchestration with offers := orchestration.offers.set number advanced.value.1 },
          advanced.value.2),
        advanced.events.map (.offer number), advanced.log⟩ := by
  induction count generalizing orchestration offer host with
  | zero =>
      simp only [Offer.advances, Act.pure_apply, set_of_getElem? found]
      rfl
  | succ count inductionHypothesis =>
      have bound := (List.getElem?_eq_some_iff.mp found).1
      have rest := inductionHypothesis
        { orchestration with
          offers := orchestration.offers.set number (offer.advance hosts.desk host).value.1 }
        (List.getElem?_set_self bound) (offer.advance hosts.desk host).value.2
      rw [List.replicate_succ, run_cons, Act.bind_apply, move, advance_apply _ _ found, rest]
      simp [Offer.advances]

/-- A worker that takes up an offer and goes through with it does what the worker of a loop does
at once. -/
theorem run_work_advances (hosts : Hosts σ) (orchestration : Orchestration) (place : Nat)
    {device : Device} {decision : Decision}
    (found : orchestration.exchange.bus.errands[place]? = some (.reboot device decision))
    (host : σ) :
    ActsAs
      (orchestration.offers ++
        (orchestration.exchange.settledBy hosts host (.work place)).toList)
      (orchestration.run hosts
        (.work place :: List.replicate 4 (.advance orchestration.offers.length)) host)
      (orchestration.exchange.move hosts (.work place) host) := by
  have works : orchestration.work hosts place =
      pure (orchestration.takeUp place ⟨device, decision, .due⟩) := by
    unfold work
    rw [found]
  have last : (orchestration.takeUp place ⟨device, decision, .due⟩).offers[
      orchestration.offers.length]? = some ⟨device, decision, .due⟩ :=
    List.getElem?_concat_length
  have atOnce_eq : orchestration.exchange.move hosts (.work place) =
      orchestration.exchange.bus.work hosts place >>= fun bus =>
        pure { orchestration.exchange with bus } := rfl
  obtain ⟨value_eq, events_eq, log_eq⟩ :=
    Offer.advances_eq_offerReboot hosts.desk device decision host
  rw [run_cons, move, works, pure_bind, run_advances hosts _ 4 _ last, atOnce_eq,
    Exchange.settledBy, found]
  unfold Bus.work
  rw [found]
  simp only [Bus.perform, Act.bind_apply, Act.mapEvents_apply, Act.record_apply, Act.pure_apply,
    List.append_nil, value_eq, log_eq]
  refine ⟨rfl, ?_, ?_, rfl⟩
  · simp only [takeUp, List.set_append_right _ _ (Nat.le_refl _), Nat.sub_self, List.set_cons_zero]
    rfl
  · rw [← events_eq, List.filterMap_map, List.map_filterMap]
    rfl

theorem lift_apply (hosts : Hosts σ) (orchestration : Orchestration) (move : Exchange.Move)
    (host : σ) :
    let moved := orchestration.exchange.move hosts move host
    orchestration.lift hosts move host =
      ⟨({ orchestration with exchange := moved.value.1 }, moved.value.2),
        moved.events.map .loop, moved.log⟩ := by
  unfold lift
  simp

theorem filterMap_visible?_map_loop (events : List BusEvent) :
    (events.map Happening.loop).filterMap Happening.visible? = events := by
  rw [List.filterMap_map]
  exact List.filterMap_some

theorem work_of_other (hosts : Hosts σ) (orchestration : Orchestration) (place : Nat)
    (other : ∀ device decision,
      orchestration.exchange.bus.errands[place]? ≠ some (.reboot device decision)) :
    orchestration.work hosts place = orchestration.lift hosts (.work place) := by
  unfold work
  split
  · next device decision found => exact absurd found (other device decision)
  · rfl

theorem exists_steps_of_move (hosts : Hosts σ) (orchestration : Orchestration)
    (move : Exchange.Move) (host : σ) :
    ∃ steps : List Move,
      steps.filterMap Move.exchange? = [move].filter (fun move => !move.isWork) ∧
      ActsAs (orchestration.offers ++ (orchestration.exchange.settledBy hosts host move).toList)
        (orchestration.run hosts steps host) (orchestration.exchange.move hosts move host) := by
  have lifted (step : Move) (same : orchestration.move hosts step = orchestration.lift hosts move)
      (none : orchestration.exchange.settledBy hosts host move = none) :
      ActsAs (orchestration.offers ++ (orchestration.exchange.settledBy hosts host move).toList)
        (orchestration.run hosts [step] host) (orchestration.exchange.move hosts move host) := by
    have single : orchestration.run hosts [step] = orchestration.lift hosts move := by
      simp only [run, List.foldlM_cons, List.foldlM_nil, bind_pure, same]
    rw [single, lift_apply, none, Option.toList_none, List.append_nil]
    exact ⟨rfl, rfl, filterMap_visible?_map_loop _, rfl⟩
  cases move with
  | request request => exact ⟨[.request request], rfl, lifted (.request request) rfl rfl⟩
  | turn now => exact ⟨[.turn now], rfl, lifted (.turn now) rfl rfl⟩
  | work place =>
      by_cases offers : ∃ device decision,
          orchestration.exchange.bus.errands[place]? = some (.reboot device decision)
      · obtain ⟨device, decision, found⟩ := offers
        exact ⟨_, rfl, run_work_advances hosts orchestration place found host⟩
      · have other : ∀ device decision,
            orchestration.exchange.bus.errands[place]? ≠ some (.reboot device decision) :=
          fun device decision found => offers ⟨device, decision, found⟩
        have none : orchestration.exchange.settledBy hosts host (.work place) = none := by
          rw [Exchange.settledBy, Option.bind_eq_none_iff]
          intro errand found
          cases errand with
          | reboot device decision => exact absurd found (other device decision)
          | password ticket device => rfl
        exact ⟨[.work place], rfl,
          lifted (.work place) (work_of_other hosts orchestration place other) none⟩

/-- Every run of a loop whose workers act at once is a run of it step by step, with the same
requests and turns, in which each offer that a worker has taken up is over. -/
theorem exists_steps_of_run (hosts : Hosts σ) (orchestration : Orchestration)
    (moves : List Exchange.Move) (host : σ) :
    ∃ steps : List Move,
      steps.filterMap Move.exchange? = moves.filter (fun move => !move.isWork) ∧
      ActsAs (orchestration.offers ++ orchestration.exchange.settled hosts moves host)
        (orchestration.run hosts steps host) (orchestration.exchange.run hosts moves host) := by
  induction moves generalizing orchestration host with
  | nil => exact ⟨[], rfl, rfl, (List.append_nil _).symm, rfl, rfl⟩
  | cons move moves inductionHypothesis =>
      obtain ⟨first, same, value_eq, offers_eq, events_eq, log_eq⟩ :=
        exists_steps_of_move hosts orchestration move host
      obtain ⟨later, laterSame, rest⟩ := inductionHypothesis
        (orchestration.run hosts first host).value.1 (orchestration.run hosts first host).value.2
      obtain ⟨exchange_eq, host_eq⟩ := Prod.mk.inj value_eq
      rw [exchange_eq, offers_eq, host_eq] at rest
      refine ⟨first ++ later, ?_, ?_⟩
      · rw [List.filterMap_append, same, laterSame, ← List.filter_append]
        rfl
      · rw [run_append, Exchange.run_cons, Act.bind_apply, Act.bind_apply, host_eq,
          Exchange.settled, ← List.append_assoc]
        refine ⟨rest.value_eq, rest.offers_eq, ?_, ?_⟩
        · rw [List.filterMap_append, events_eq, rest.events_eq]
        · rw [log_eq, rest.log_eq]

end Orchestration

end DiskWarden
