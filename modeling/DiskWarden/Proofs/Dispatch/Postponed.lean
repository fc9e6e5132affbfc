import DiskWarden.Proofs.Dispatch.Offers
import DiskWarden.Proofs.Dispatch.Separation

/-!
# Questions that are put later

A dispatcher asks about a reboot while it handles a result, or it reports that the question is
pending and leaves it to others.  To ask at once is to defer the question and to put it right
away.  When pending questions are put one by one, in their order and at any later times, nothing
else is therefore changed: the jobs, the reports, the other events and the end of each question
are those of a dispatcher that asks at once.
-/

namespace DiskWarden

open DeskEvent

namespace StepAnswer

/-- The decision whose question an answer reports as pending. -/
def pending? : StepAnswer → Option Decision
  | dispatched (.result report) =>
      if report.presentation = .rebootPending then some report.decision else none
  | _ => none

/-- A report with another presentation. -/
def presentedAs (presentation : Presentation) : StepAnswer → StepAnswer
  | dispatched (.result report) => dispatched (.result { report with presentation })
  | answer => answer

end StepAnswer

/-- What happens at a desk: a notification arrives, an indicator is closed, or the question that
has waited longest is put. -/
inductive DeskMove
  | signal (now : Instant) (sent : Signal)
  | close (key : JobKey)
  | ask

/-- The step that a move makes the dispatcher take. -/
def DeskMove.step? : DeskMove → Option DispatcherStep
  | signal now sent => some (.signal now sent)
  | close key => some (.close key)
  | ask => none

/-- The answer to a step, and the registry that the step leaves. -/
structure Handled where
  answer : StepAnswer
  registry : Registry

namespace Handled

def pending? (handled : Handled) : Option Decision := handled.answer.pending?

/-- What was handled, with the end of each question in the place of its pending report. -/
def settle : List Handled → List Presentation → List Handled
  | [], _ => []
  | handled :: later, ends =>
      match handled.pending?, ends with
      | some _, presentation :: ends =>
          ⟨handled.answer.presentedAs presentation, handled.registry⟩ :: settle later ends
      | _, ends => handled :: settle later ends

theorem settle_cons_of_none {handled : Handled} (told : handled.pending? = none)
    (later : List Handled) (ends : List Presentation) :
    settle (handled :: later) ends = handled :: settle later ends := by
  simp only [settle, told]

theorem settle_cons_of_some {handled : Handled} {decision : Decision}
    (waits : handled.pending? = some decision) (later : List Handled)
    (presentation : Presentation) (ends : List Presentation) :
    settle (handled :: later) (presentation :: ends) =
      ⟨handled.answer.presentedAs presentation, handled.registry⟩ :: settle later ends := by
  simp only [settle, waits]

theorem length_filterMap_pending?_cons (handled : Handled) (later : List Handled) :
    ((handled :: later).filterMap pending?).length =
      handled.pending?.toList.length + (later.filterMap pending?).length := by
  cases waits : handled.pending? with
  | none => rw [List.filterMap_cons_none waits, Option.toList_none, List.length_nil, Nat.zero_add]
  | some decision =>
      rw [List.filterMap_cons_some waits, Option.toList_some, List.length_cons, Nat.add_comm]
      rfl

/-- The ends of questions matter to no registry. -/
theorem registry_settle (later : List Handled) (ends : List Presentation) :
    (settle later ends).map registry = later.map registry := by
  induction later generalizing ends with
  | nil => rfl
  | cons handled later inductionHypothesis =>
      unfold settle
      split
      · exact congrArg (handled.registry :: ·) (inductionHypothesis _)
      · exact congrArg (handled.registry :: ·) (inductionHypothesis _)

end Handled

/-- What a run at a desk comes to: what the dispatcher handled, how the questions ended that were
put by others, and the pending questions and the dispatcher that are left. -/
structure DeskRun where
  handled : List Handled
  ends : List Presentation
  waiting : List Decision
  dispatcher : Dispatcher

namespace Dispatcher

variable {σ : Type} (desk : Desk σ) (registry : Registry) (host : σ)

/-- Takes steps in order. -/
def handleAll (desk : Desk σ) : Dispatcher → List DispatcherStep → Act DeskEvent σ (List Handled)
  | _, [] => pure []
  | dispatcher, step :: steps => do
      let (answer, left) ← answerTo desk dispatcher step
      let later ← handleAll desk left steps
      pure (⟨answer, left.registry⟩ :: later)

/-- Makes moves in order. Where no question waits, none is put. -/
def follow (desk : Desk σ) : Dispatcher → List Decision → List DeskMove → Act DeskEvent σ DeskRun
  | dispatcher, waiting, [] => pure ⟨[], [], waiting, dispatcher⟩
  | dispatcher, waiting, move :: moves =>
      match move.step?, waiting with
      | some step, waiting => do
          let (answer, left) ← answerTo desk dispatcher step
          let run ← follow desk left (waiting ++ answer.pending?.toList) moves
          pure { run with handled := ⟨answer, left.registry⟩ :: run.handled }
      | none, [] => follow desk dispatcher [] moves
      | none, decision :: waiting => do
          let presentation ← desk.offerReboot decision
          let run ← follow desk dispatcher waiting moves
          pure { run with ends := presentation :: run.ends }

/-! ## One step -/

/-- Puts the question of an answer that reports it as pending. -/
def askNow (answer : StepAnswer) : Act DeskEvent σ StepAnswer :=
  match answer.pending? with
  | some decision => (answer.presentedAs ·) <$> desk.offerReboot decision
  | none => pure answer

/-- What a step comes to for a dispatcher that defers its questions, and for one that asks the
user at once, who may be found in another state by then. -/
structure AsksAtOnce (desk : Desk σ) (registry : Registry) (step : DispatcherStep)
    (host host' : σ) : Prop where
  host_eq : (answerTo desk ⟨registry, true⟩ step host).value.2 = host
  defers : (answerTo desk ⟨registry, true⟩ step host).value.1.2.defersReboots = true
  plain : ∀ event ∈ (answerTo desk ⟨registry, true⟩ step host).events, event.isPlain = true
  value_eq : (answerTo desk ⟨registry, false⟩ step host').value =
    let answered := (answerTo desk ⟨registry, true⟩ step host).value.1
    let asked := (askNow desk answered.1 host').value
    ((asked.1, ⟨answered.2.registry, false⟩), asked.2)
  events_eq : (answerTo desk ⟨registry, false⟩ step host').events =
    (answerTo desk ⟨registry, true⟩ step host).events ++
      (askNow desk (answerTo desk ⟨registry, true⟩ step host).value.1.1 host').events

theorem askNow_of_none {answer : StepAnswer} (told : answer.pending? = none) :
    askNow desk answer = pure answer := by
  unfold askNow
  rw [told]

theorem askNow_of_some {answer : StepAnswer} {decision : Decision}
    (waits : answer.pending? = some decision) :
    askNow desk answer = (answer.presentedAs ·) <$> desk.offerReboot decision := by
  unfold askNow
  rw [waits]

theorem asksAtOnce_close (key : JobKey) (host host' : σ) :
    AsksAtOnce desk registry (.close key) host host' where
  host_eq := by simp only [answerTo, Act.map_apply, close_value]
  defers := by simp only [answerTo, Act.map_apply, close_value]
  plain event member := by
    simp only [answerTo, Act.map_apply, close_events] at member
    split at member
    · rw [List.mem_singleton.mp member]
      rfl
    · cases member
  value_eq := by
    simp only [answerTo, Act.map_apply, close_value]
    rfl
  events_eq := by
    simp only [answerTo, Act.map_apply, close_events]
    exact (List.append_nil _).symm

theorem pending?_dispatch (now : Instant) (sent : Signal) :
    (StepAnswer.dispatched (dispatch desk ⟨registry, true⟩ now sent host).value.1.1).pending? =
      sent.offer?.map Prod.snd := by
  unfold dispatch Signal.offer?
  cases sent.notification with
  | progress kind value =>
      rw [onTick_value]
      rfl
  | result operation code =>
      have label_eq : sent.device.label sent.displayName = sent.label := rfl
      simp only [(onResult_eq desk ⟨registry, true⟩ host now sent.device sent.displayName operation
        code).1, StepAnswer.pending?, tell, Bool.and_true, label_eq]
      cases offers : ((judge operation code).decision sent.label).offersReboot with
      | true => simp
      | false => simp [Desk.present, offers]

theorem asked_dispatch (now : Instant) (sent : Signal) (host host' : σ) :
    let report := (dispatch desk ⟨registry, true⟩ now sent host).value.1.1
    let asking := (dispatch desk ⟨registry, false⟩ now sent host').value
    (askNow desk (.dispatched report) host').value = (.dispatched asking.1.1, asking.2) := by
  have waits := pending?_dispatch desk registry host now sent
  unfold dispatch at waits ⊢
  unfold Signal.offer? at waits
  cases about : sent.notification with
  | progress kind value =>
      simp only [about, onTick_value] at waits ⊢
      rw [askNow_of_none desk waits]
      rfl
  | result operation code =>
      have label_eq : sent.device.label sent.displayName = sent.label := rfl
      obtain ⟨evicted, events, evict_eq⟩ :=
        exists_evict_eq (σ := σ) registry now sent.device operation
      simp only [about, (onResult_eq desk _ _ now sent.device sent.displayName operation
        code).1, evict_eq, label_eq] at waits ⊢
      cases offers : ((judge operation code).decision sent.label).offersReboot with
      | true =>
          simp only [offers, if_true, Option.map_some] at waits
          rw [askNow_of_some desk waits]
          simp [tell, offers, StepAnswer.presentedAs, Desk.present]
      | false =>
          simp only [offers, Bool.false_eq_true, if_false, Option.map_none] at waits
          rw [askNow_of_none desk waits]
          simp [tell, offers, Desk.present]

theorem asksAtOnce_signal (now : Instant) (sent : Signal) (host host' : σ) :
    AsksAtOnce desk registry (.signal now sent) host host' := by
  obtain ⟨dispatched, left, events, defers, dispatch_eq⟩ :=
    dispatch_of_defers desk ⟨registry, true⟩ rfl now sent
  have plain_eq := events_dispatch_of_defers desk ⟨registry, true⟩ host rfl now sent
  have waits := pending?_dispatch desk registry host now sent
  constructor
  · simp only [answerTo, Act.map_apply, (dispatch_eq host).1]
  · simp only [answerTo, Act.map_apply, (dispatch_eq host).1, defers]
  · intro event member
    simp only [answerTo, Act.map_apply, plain_eq] at member
    rw [← filter_isPlain_dispatch desk ⟨registry, true⟩ host, List.mem_filter] at member
    exact member.2
  · simp only [answerTo, Act.map_apply, asked_dispatch, dispatch_left]
  · simp only [answerTo, Act.map_apply, plain_eq, events_dispatch]
    cases offers : sent.offer? with
    | none =>
        rw [offers] at waits
        rw [askNow_of_none desk waits]
        rfl
    | some offer =>
        rw [offers] at waits
        simp [askNow_of_some desk waits]

theorem asksAtOnce_of_step {move : DeskMove} {step : DispatcherStep}
    (takes : move.step? = some step) (host host' : σ) :
    AsksAtOnce desk registry step host host' := by
  cases move with
  | signal now sent =>
      cases takes
      exact asksAtOnce_signal desk registry now sent host host'
  | close key =>
      cases takes
      exact asksAtOnce_close desk registry key host host'
  | ask => cases takes

/-! ## Runs -/

theorem filter_isPlain_offerReboot (decision : Decision) :
    (desk.offerReboot decision host).events.filter isPlain = [] ∧
      (desk.offerReboot decision host).events.filter (!·.isPlain) =
        (desk.offerReboot decision host).events := by
  rw [events_offerReboot]
  split <;> exact ⟨rfl, rfl⟩

theorem filter_isPlain_of_plain {events : List DeskEvent}
    (plain : ∀ event ∈ events, event.isPlain = true) :
    events.filter isPlain = events ∧ events.filter (!·.isPlain) = [] := by
  refine ⟨List.filter_eq_self.mpr plain, List.filter_eq_nil_iff.mpr fun event member => ?_⟩
  rw [plain event member]
  exact Bool.false_ne_true

/-- The question of an answer, put behind those that wait against put at once: its end is what the
pending report is settled with. -/
theorem exists_ends_askNow (waiting : List Decision) (answer : StepAnswer) :
    let before := waiting.mapM desk.offerReboot host
    let asked := askNow desk answer before.value.2
    let both := (waiting ++ answer.pending?.toList).mapM desk.offerReboot host
    ∃ own, own.length = answer.pending?.toList.length ∧
      both.value = (before.value.1 ++ own, asked.value.2) ∧
      both.events = before.events ++ asked.events ∧
      asked.events.filter isPlain = [] ∧
      asked.events.filter (!·.isPlain) = asked.events ∧
      ∀ (registry : Registry) (later : List Handled) (ends : List Presentation),
        Handled.settle (⟨answer, registry⟩ :: later) (own ++ ends) =
          ⟨asked.value.1, registry⟩ :: Handled.settle later ends := by
  intro before asked both
  cases waits : answer.pending? with
  | none =>
      have asked_eq : asked = ⟨(answer, before.value.2), [], []⟩ := by
        simp only [asked, askNow_of_none desk waits, Act.pure_apply]
      have both_eq : both = before := by
        simp only [both, before, waits, Option.toList_none, List.append_nil]
      rw [asked_eq, both_eq]
      refine ⟨[], rfl, by rw [List.append_nil], (List.append_nil _).symm, rfl, rfl, ?_⟩
      intro registry later ends
      have told : Handled.pending? ⟨answer, registry⟩ = none := waits
      exact Handled.settle_cons_of_none told later ends
  | some decision =>
      have asked_eq : asked = ((answer.presentedAs ·) <$> desk.offerReboot decision)
          before.value.2 := by
        simp only [asked, askNow_of_some desk waits]
      have both_eq : both = (waiting ++ [decision]).mapM desk.offerReboot host := by
        simp only [both, waits, Option.toList_some]
      obtain ⟨plain, others⟩ := filter_isPlain_offerReboot desk before.value.2 decision
      rw [asked_eq, both_eq]
      simp only [List.mapM_append, List.mapM_cons, List.mapM_nil, Act.bind_apply, Act.pure_apply,
        Act.map_apply, List.append_nil]
      refine ⟨[_], rfl, rfl, rfl, plain, others, ?_⟩
      intro registry later ends
      have left : Handled.pending? ⟨answer, registry⟩ = some decision := waits
      exact Handled.settle_cons_of_some left later _ ends

/-- A run that defers its questions, with those put behind it that are left, against one that
asks at once and comes after the questions that waited before. -/
def SettlesAlike (desk : Desk σ) (registry : Registry) (host : σ) (waiting : List Decision)
    (moves : List DeskMove) : Prop :=
  let deferring := follow desk ⟨registry, true⟩ waiting moves host
  let rest := deferring.value.1.waiting.mapM desk.offerReboot deferring.value.2
  let before := waiting.mapM desk.offerReboot host
  let asking := handleAll desk ⟨registry, false⟩ (moves.filterMap DeskMove.step?) before.value.2
  ∃ ends, deferring.value.1.ends ++ rest.value.1 = before.value.1 ++ ends ∧
    ends.length = (deferring.value.1.handled.filterMap Handled.pending?).length ∧
    asking.value = (Handled.settle deferring.value.1.handled ends, rest.value.2) ∧
    asking.events.filter isPlain = deferring.events.filter isPlain ∧
    before.events ++ asking.events.filter (!·.isPlain) =
      deferring.events.filter (!·.isPlain) ++ rest.events

theorem settlesAlike_cons_of_step {move : DeskMove} {step : DispatcherStep}
    (takes : move.step? = some step) (waiting : List Decision) (moves : List DeskMove)
    (later : ∀ reached waiting, SettlesAlike desk reached host waiting moves) :
    SettlesAlike desk registry host waiting (move :: moves) := by
  obtain ⟨host_eq, defers, plain, value_eq, events_eq⟩ :=
    asksAtOnce_of_step desk registry takes host (waiting.mapM desk.offerReboot host).value.2
  obtain ⟨plain_eq, others_eq⟩ := filter_isPlain_of_plain plain
  unfold SettlesAlike
  rw [List.filterMap_cons_some takes]
  simp only [follow, takes, handleAll, Act.bind_apply, Act.pure_apply, value_eq, events_eq,
    host_eq, List.filter_append, plain_eq, others_eq, List.append_nil, List.nil_append]
  revert defers
  rcases (answerTo desk ⟨registry, true⟩ step host).value.1 with ⟨answer, ⟨reached, _⟩⟩
  rintro rfl
  obtain ⟨own, own_length, both_value, both_events, asked_plain, asked_others, settled⟩ :=
    exists_ends_askNow desk host waiting answer
  obtain ⟨ends, ends_eq, count, value_eq, plain_eq, events_eq⟩ :=
    later reached (waiting ++ answer.pending?.toList)
  rw [both_value] at ends_eq value_eq plain_eq events_eq
  rw [both_events] at events_eq
  simp only [asked_plain, asked_others, List.append_nil]
  rw [value_eq, plain_eq]
  refine ⟨own ++ ends, ?_, ?_, ?_, rfl, ?_⟩
  · rw [ends_eq, List.append_assoc]
  · rw [List.length_append, own_length, count, Handled.length_filterMap_pending?_cons]
    rfl
  · rw [settled]
  · rw [← events_eq, List.append_assoc]

theorem settlesAlike_cons_of_ask {move : DeskMove} (asks : move.step? = none)
    (waiting : List Decision) (moves : List DeskMove)
    (later : ∀ host waiting, SettlesAlike desk registry host waiting moves) :
    SettlesAlike desk registry host waiting (move :: moves) := by
  unfold SettlesAlike
  rw [List.filterMap_cons_none asks]
  cases waiting with
  | nil =>
      simp only [follow, asks]
      exact later host []
  | cons decision waiting =>
      obtain ⟨plain, others⟩ := filter_isPlain_offerReboot desk host decision
      obtain ⟨ends, ends_eq, count, value_eq, plain_eq, events_eq⟩ :=
        later (desk.offerReboot decision host).value.2 waiting
      simp only [follow, asks, List.mapM_cons, Act.bind_apply, Act.pure_apply, List.append_nil,
        List.filter_append, plain, others, List.nil_append, List.append_assoc]
      exact ⟨ends, congrArg (_ :: ·) ends_eq, count, value_eq, plain_eq,
        congrArg (_ ++ ·) events_eq⟩

theorem settlesAlike (waiting : List Decision) (moves : List DeskMove) :
    SettlesAlike desk registry host waiting moves := by
  induction moves generalizing registry waiting host with
  | nil => exact ⟨[], (List.append_nil _).symm, rfl, rfl, rfl, List.append_nil _⟩
  | cons move moves inductionHypothesis =>
      cases takes : move.step? with
      | some step =>
          exact settlesAlike_cons_of_step desk registry host takes waiting moves
            fun reached waiting => inductionHypothesis reached host waiting
      | none =>
          exact settlesAlike_cons_of_ask desk registry host takes waiting moves
            fun host waiting => inductionHypothesis registry host waiting

/-- Whether pending questions are put later, one by one and in their order, or at once makes no
difference to the registries that a run goes through, to the reports, of which each pending one
ends as the other run says, to the two sequences of events, and to those who answer. -/
theorem asking_later_is_asking (desk : Desk σ) (registry : Registry) (host : σ)
    (moves : List DeskMove)
    (asked : (follow desk ⟨registry, true⟩ [] moves host).value.1.waiting = []) :
    let deferring := follow desk ⟨registry, true⟩ [] moves host
    let run := deferring.value.1
    let asking := handleAll desk ⟨registry, false⟩ (moves.filterMap DeskMove.step?) host
    asking.value.1.map Handled.registry = run.handled.map Handled.registry ∧
      run.ends.length = (run.handled.filterMap Handled.pending?).length ∧
      asking.value.1 = Handled.settle run.handled run.ends ∧
      asking.events.filter isPlain = deferring.events.filter isPlain ∧
      asking.events.filter (!·.isPlain) = deferring.events.filter (!·.isPlain) ∧
      asking.value.2 = deferring.value.2 := by
  intro deferring run asking
  obtain ⟨ends, ends_eq, count, value_eq, plain_eq, events_eq⟩ :=
    settlesAlike desk registry host [] moves
  rw [asked] at ends_eq value_eq events_eq
  have same : ends = run.ends := ends_eq.symm.trans (List.append_nil _)
  rw [same] at count value_eq
  have handled_eq : asking.value.1 = Handled.settle run.handled run.ends :=
    congrArg Prod.fst value_eq
  refine ⟨?_, count, handled_eq, plain_eq, ?_, congrArg Prod.snd value_eq⟩
  · rw [handled_eq, Handled.registry_settle]
  · exact events_eq.trans (List.append_nil _)

/-- Two results that call for a reboot and a tick between them, with the first question put behind
the tick and the second at the end. -/
def postponedMoves : List DeskMove :=
  [.signal 0 (.prepareEncryptDiskResult "/dev/sda1" "sda1" "" (.ofSmall 0)),
    .signal 1 (.encryptProgress "/dev/sda1" "sda1" 40), .ask,
    .signal 2 (.decryptDiskResult "/dev/sdb1" "sdb1" "" ((Code.ofInt? (-1)).getD default)),
    .signal 3 (.encryptDiskResult "/dev/sda1" "sda1" (.ofSmall 0)), .ask]

theorem postponed_questions_answered :
    let desk : Desk (List Bool) :=
      ⟨fun _ answers => ⟨(answers.headD false, answers.tail), [], []⟩, pure (.ok ())⟩
    (follow desk ⟨.empty 9, true⟩ [] postponedMoves [false, true]).value.1.waiting = [] ∧
      (handleAll desk ⟨.empty 9, false⟩ (postponedMoves.filterMap DeskMove.step?)
          [false, true]).events.filter (!·.isPlain) =
        [.rebootAsked "Preencrypt done"
            "Device sda1(sda1) has been preencrypt, please reboot to finish encryption.",
          .rebootAsked "Decrypt device" "Please reboot to decrypt device sdb1(sdb1).",
          .rebootRequested] ∧
      (follow desk ⟨.empty 9, true⟩ [] postponedMoves [false, true]).value.1.ends =
        [.rebootDeclined, .rebootRequested] := by
  intro desk
  have asked :
      (follow desk ⟨.empty 9, true⟩ [] postponedMoves [false, true]).value.1.waiting = [] := by
    decide
  obtain ⟨-, -, -, -, events_eq, -⟩ :=
    asking_later_is_asking desk (.empty 9) [false, true] postponedMoves asked
  exact ⟨asked, events_eq.trans (by decide), by decide⟩

end Dispatcher

end DiskWarden
