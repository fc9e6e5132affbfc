import DiskWarden.Proofs.Dispatch.Offers
import DiskWarden.Proofs.Text.Cuts
import DiskWarden.Terminal
import Mathlib.Logic.Function.Iterate

/-!
# Questions take their lines in order

A question about a reboot takes one line, whatever that holds, and the line decides alone whether
the answer is yes.  A line that is no text, or that is missing, is a no.  Through a run of a
dispatcher the questions go on taking lines in the same way, so that no reboot is requested but for
a line that agrees to one.
-/

namespace DiskWarden

namespace Terminal

/-- The lines that agree to a reboot. -/
def Agrees (line : Text.Octets) : Prop :=
  ∃ text word, Text.decode? line = some text ∧ Text.Trims text word ∧
    word ∈ ["y", "Y", "yes", "YES"]

/-- Questions one after the other, each with the input that the one before has left. -/
def confirmAll {ε : Type} (answers : Answers) : Nat → Act ε Text.Octets (List Bool)
  | 0 => pure []
  | count + 1 => do
      let answer ← confirm answers
      let later ← confirmAll answers count
      pure (answer :: later)

/-! ## One question -/

theorem isYes_iff (text : String) :
    isYes text = true ↔ ∃ word, Text.Trims text word ∧ word ∈ ["y", "Y", "yes", "YES"] := by
  simp only [isYes, yesWords, List.contains_iff_mem, Text.trims_iff, exists_eq_left']

theorem isYes_trimLineEnd (text : String) : isYes (Text.trimLineEnd text) = isYes text := by
  rw [isYes, Text.trim_trimLineEnd, isYes]

theorem agrees_iff (line : Text.Octets) :
    Agrees line ↔ ∃ text, Text.decode? line = some text ∧ isYes text = true := by
  simp only [Agrees, isYes_iff, exists_and_left]

instance : DecidablePred Agrees := fun line =>
  decidable_of_iff ((Text.decode? line).any isYes = true) <| by
    rw [agrees_iff, Option.any_eq_true]

section Question

variable {ε : Type} {answers : Answers} {input : Text.Octets} {lines : List Text.Octets}

/-- The answer that a reading gives: what is no line agrees to nothing. -/
def LineRead.isYes : LineRead → Bool
  | line text => Terminal.isYes text
  | endOfInput => false
  | broken => false

theorem confirm_value (asks : answers ≠ .never) (input : Text.Octets) :
    (confirm answers input : Traced ε _).value =
      ((readLine input).1.isYes, (readLine input).2) := by
  have got : (get : Act ε Text.Octets Text.Octets) input = ⟨(input, input), [], []⟩ := rfl
  have left (later : Text.Octets) :
      (set later : Act ε Text.Octets PUnit) input = ⟨((), later), [], []⟩ := rfl
  cases answers with
  | never => exact absurd rfl asks
  | console => cases read : (readLine input).1 <;> simp [confirm, got, left, read, LineRead.isYes]
  | reader => cases read : (readLine input).1 <;> simp [confirm, got, left, read, LineRead.isYes]

theorem confirm_never (input : Text.Octets) :
    (confirm .never input : Traced ε _).value = (false, input) := rfl

theorem isYes_readLine {line later : Text.Octets}
    (taken : Text.takeLine input = some (line, later)) :
    ((readLine input).1.isYes = true ↔ Agrees line) ∧ (readLine input).2 = later := by
  rw [agrees_iff]
  cases decoded : Text.decode? line with
  | none => simp [readLine, taken, decoded, LineRead.isYes]
  | some text => simp [readLine, taken, decoded, LineRead.isYes, isYes_trimLineEnd]

/-- A question takes the first line, if there is one, and that is the answer. -/
theorem confirm_of_cuts (asks : answers ≠ .never) (cuts : Text.Cuts input lines) :
    let asked : Traced ε _ := confirm answers input
    (asked.value.1 = true ↔ ∃ line, lines[0]? = some line ∧ Agrees line) ∧
      Text.Cuts asked.value.2 (lines.drop 1) := by
  intro asked
  simp only [asked, confirm_value asks]
  cases lines with
  | nil =>
      have read_eq : readLine input = (.endOfInput, input) := by
        rw [readLine, cuts.takeLine_nil]
      rw [read_eq]
      exact ⟨by simp [LineRead.isYes], cuts⟩
  | cons line lines =>
      obtain ⟨later, taken, cutsLater⟩ := cuts.takeLine_cons
      obtain ⟨agrees, left⟩ := isYes_readLine taken
      rw [agrees, left]
      exact ⟨by simp, cutsLater⟩

/-- The answers to some questions are those of the lines, one for each, and a missing line is a
no. -/
theorem confirmAll_of_cuts (asks : answers ≠ .never) (count : Nat) (cuts : Text.Cuts input lines) :
    let asked : Traced ε _ := confirmAll answers count input
    asked.value.1.length = count ∧
      (∀ k < count, asked.value.1[k]? = some true ↔ ∃ line, lines[k]? = some line ∧ Agrees line) ∧
      Text.Cuts asked.value.2 (lines.drop count) := by
  induction count generalizing input lines with
  | zero => exact ⟨rfl, fun k impossible => absurd impossible k.not_lt_zero, cuts⟩
  | succ count inductionHypothesis =>
      obtain ⟨first_iff, cutsLater⟩ := confirm_of_cuts (ε := ε) asks cuts
      obtain ⟨length_eq, later_iff, cutsLeft⟩ := inductionHypothesis cutsLater
      intro asked
      simp only [asked, confirmAll, Act.bind_apply, Act.pure_apply]
      rw [List.drop_drop, Nat.add_comm 1 count] at cutsLeft
      refine ⟨by rw [List.length_cons, length_eq], fun k bound => ?_, cutsLeft⟩
      cases k with
      | zero => rw [List.getElem?_cons_zero, Option.some_inj, first_iff]
      | succ k =>
          rw [List.getElem?_cons_succ, later_iff k (Nat.lt_of_succ_lt_succ bound),
            List.getElem?_drop, Nat.add_comm 1 k]

-- A yes, a line that is no text, a yes without a line feed, and no line.
example :
    (confirmAll .reader 4 (Text.encode "y\n" ++ [0xFF, 0x0A] ++ Text.encode " YES") :
      Traced Empty _).value = ([true, false, true, false], []) := by
  decide +kernel

theorem confirmAll_never (count : Nat) (input : Text.Octets) :
    (confirmAll .never count input : Traced ε _).value = (List.replicate count false, input) := by
  induction count with
  | zero => rfl
  | succ count inductionHypothesis =>
      simp only [confirmAll, Act.bind_apply, Act.pure_apply, confirm_never, inductionHypothesis]
      rfl

end Question

end Terminal

/-! ## Runs over any desk -/

/-- What happens while a session lasts: the dispatcher takes a step, or a question is put that was
left for later. -/
inductive SessionTurn
  | step (step : DispatcherStep)
  | offer (decision : Decision)

namespace Dispatcher

variable {σ : Type} (desk : Desk σ) (dispatcher : Dispatcher) (host : σ)

def takeTurn (dispatcher : Dispatcher) : SessionTurn → Act DeskEvent σ Dispatcher
  | .step step => perform desk dispatcher step
  | .offer decision => (fun _ => dispatcher) <$> desk.offerReboot decision

def takeTurns (turns : List SessionTurn) : Act DeskEvent σ Dispatcher :=
  turns.foldlM (takeTurn desk) dispatcher

/-- A dispatch leaves its host to the question that it puts, if it puts one. -/
theorem dispatch_host (now : Instant) (sent : Signal) :
    (dispatch desk dispatcher now sent host).value.2 =
      match sent.offer? with
      | none => host
      | some offer =>
          if dispatcher.defersReboots then host else (desk.offerReboot offer.2 host).value.2 := by
  unfold dispatch Signal.offer?
  cases sent.notification with
  | progress kind value => rw [onTick_value]
  | result operation code =>
      have label_eq : sent.device.label sent.displayName = sent.label := rfl
      simp only [(onResult_eq desk dispatcher host now sent.device sent.displayName operation
        code).1, tell, Desk.present, label_eq]
      cases ((judge operation code).decision sent.label).offersReboot with
      | true => cases dispatcher.defersReboots <;> rfl
      | false => rfl

/-- What an action shows and leaves is made of events that have nothing to do with a reboot, and of
questions. -/
inductive Unfolds : σ → List DeskEvent → σ → Prop
  | plain {host : σ} {events : List DeskEvent} (plain : ∀ event ∈ events, event.isPlain = true) :
      Unfolds host events host
  | offer (host : σ) (decision : Decision) :
      Unfolds host (desk.offerReboot decision host).events
        (desk.offerReboot decision host).value.2
  | append {host middle after : σ} {events later : List DeskEvent}
      (first : Unfolds host events middle) (second : Unfolds middle later after) :
      Unfolds host (events ++ later) after

theorem unfolds_perform (step : DispatcherStep) :
    let performed := perform desk dispatcher step host
    Unfolds desk host performed.events performed.value.2 := by
  cases step with
  | signal now sent =>
      have plain : ∀ event ∈ sent.plainEvents now dispatcher.registry, event.isPlain = true := by
        intro event member
        rw [← filter_isPlain_dispatch desk dispatcher host, List.mem_filter] at member
        exact member.2
      simp only [perform, Act.map_apply, events_dispatch, dispatch_host]
      refine .append (.plain plain) ?_
      cases sent.offer? with
      | none => exact .plain (List.forall_mem_nil _)
      | some offer =>
          cases dispatcher.defersReboots with
          | true => exact .plain (List.forall_mem_nil _)
          | false => exact .offer host offer.2
  | close key =>
      simp only [perform, Act.map_apply, close_value, close_events]
      refine .plain fun event member => ?_
      split at member
      · rw [List.mem_singleton.mp member]
        rfl
      · cases member
  | defer defers => exact .plain (List.forall_mem_nil _)

theorem unfolds_takeTurns (turns : List SessionTurn) :
    let taken := takeTurns desk dispatcher turns host
    Unfolds desk host taken.events taken.value.2 := by
  induction turns generalizing dispatcher host with
  | nil => exact .plain (List.forall_mem_nil _)
  | cons turn turns inductionHypothesis =>
      have first : Unfolds desk host (takeTurn desk dispatcher turn host).events
          (takeTurn desk dispatcher turn host).value.2 := by
        cases turn with
        | step step => exact unfolds_perform desk dispatcher host step
        | offer decision =>
            simp only [takeTurn, Act.map_apply]
            exact .offer host decision
      exact .append first (inductionHypothesis _ _)

end Dispatcher

/-! ## Runs over a terminal -/

/-- A desk whose questions take their answers from an input that nobody else reads. -/
def Desk.atTerminal {τ : Type} (answers : Terminal.Answers)
    (reboot : Consult τ (Except Fault Unit)) : Desk (Text.Octets × τ) where
  confirm _ := Act.onPart Prod.fst (fun state left => (left, state.2)) (Terminal.confirm answers)
  reboot := Act.onPart Prod.snd (fun state left => (state.1, left)) reboot

namespace DeskEvent

/-- How many questions about a reboot some events put. -/
def questions (events : List DeskEvent) : Nat := (events.filterMap question?).length

/-- How many reboots some events request. -/
def requests (events : List DeskEvent) : Nat := events.count rebootRequested

theorem questions_append (events later : List DeskEvent) :
    questions (events ++ later) = questions events + questions later := by
  rw [questions, List.filterMap_append, List.length_append, questions, questions]

theorem requests_append (events later : List DeskEvent) :
    requests (events ++ later) = requests events + requests later :=
  List.count_append

theorem questions_of_plain {events : List DeskEvent}
    (plain : ∀ event ∈ events, event.isPlain = true) : questions events = 0 := by
  rw [questions, List.length_eq_zero_iff, List.filterMap_eq_nil_iff]
  exact fun event member => question?_of_isPlain (plain event member)

theorem requests_of_plain {events : List DeskEvent}
    (plain : ∀ event ∈ events, event.isPlain = true) : requests events = 0 :=
  List.count_eq_zero.mpr fun member => nomatch plain _ member

end DeskEvent

namespace Terminal

variable {τ : Type} (answers : Answers) (reboot : Consult τ (Except Fault Unit))

section Offer

variable (decision : Decision) (state : Text.Octets × τ)

/-- A question requests a reboot if the answer is yes, and only then. -/
theorem offerReboot_atTerminal :
    let asked : Traced Empty _ := confirm answers state.1
    let offered := (Desk.atTerminal answers reboot).offerReboot decision state
    offered.events = .rebootAsked decision.title decision.message ::
        (if asked.value.1 then [.rebootRequested] else []) ∧
      offered.value.2 = (asked.value.2,
        if asked.value.1 then (reboot state.2).value.2 else state.2) := by
  intro asked offered
  refine ⟨Dispatcher.events_offerReboot _ _ _, ?_⟩
  simp only [offered, Dispatcher.host_offerReboot]
  change (if asked.value.1 then _ else _) = _
  split <;> rfl

end Offer

/-- What a run over a terminal has used of the lines: one for each question.  The session manager
was called once for each of them that agrees. -/
structure Uses (lines : List Text.Octets) (host : τ) (events : List DeskEvent)
    (after : Text.Octets × τ) : Prop where
  requests_eq : DeskEvent.requests events =
    (lines.take (DeskEvent.questions events)).countP fun line => Agrees line
  cuts : Text.Cuts after.1 (lines.drop (DeskEvent.questions events))
  host_eq : after.2 = (fun left => (reboot left).value.2)^[DeskEvent.requests events] host

variable {answers reboot}

theorem Uses.append {lines : List Text.Octets} {host : τ} {events later : List DeskEvent}
    {middle after : Text.Octets × τ} (first : Uses reboot lines host events middle)
    (second : Uses reboot (lines.drop (DeskEvent.questions events)) middle.2 later after) :
    Uses reboot lines host (events ++ later) after where
  requests_eq := by
    rw [DeskEvent.requests_append, DeskEvent.questions_append, List.take_add, List.countP_append,
      first.requests_eq, second.requests_eq]
  cuts := by
    rw [DeskEvent.questions_append, ← List.drop_drop]
    exact second.cuts
  host_eq := by
    rw [DeskEvent.requests_append, Nat.add_comm, Function.iterate_add_apply, ← first.host_eq]
    exact second.host_eq

theorem uses_of_plain {state : Text.Octets × τ} {events : List DeskEvent}
    (plain : ∀ event ∈ events, event.isPlain = true) {lines : List Text.Octets}
    (cuts : Text.Cuts state.1 lines) : Uses reboot lines state.2 events state where
  requests_eq := by
    rw [DeskEvent.requests_of_plain plain, DeskEvent.questions_of_plain plain]
    rfl
  cuts := by
    rw [DeskEvent.questions_of_plain plain]
    exact cuts
  host_eq := by
    rw [DeskEvent.requests_of_plain plain]
    rfl

theorem countP_take_one {agreed : Bool} {lines : List Text.Octets}
    (agreed_iff : agreed = true ↔ ∃ line, lines[0]? = some line ∧ Agrees line) :
    (lines.take 1).countP (fun line => Agrees line) = agreed.toNat := by
  cases lines with
  | nil => simp_all
  | cons line lines => by_cases agrees : Agrees line <;> simp_all

theorem uses_offerReboot (asks : answers ≠ .never) (decision : Decision)
    {state : Text.Octets × τ} {lines : List Text.Octets} (cuts : Text.Cuts state.1 lines) :
    let offered := (Desk.atTerminal answers reboot).offerReboot decision state
    Uses reboot lines state.2 offered.events offered.value.2 := by
  intro offered
  obtain ⟨agreed_iff, cutsLater⟩ := confirm_of_cuts (ε := Empty) asks cuts
  obtain ⟨events_eq, host_eq⟩ := offerReboot_atTerminal answers reboot decision state
  have counted := countP_take_one agreed_iff
  simp only [offered, events_eq, host_eq]
  cases agreed : (confirm answers state.1 : Traced Empty _).value.1 with
  | true =>
      rw [agreed] at counted
      exact ⟨counted.symm, cutsLater, rfl⟩
  | false =>
      rw [agreed] at counted
      exact ⟨counted.symm, cutsLater, rfl⟩

/-- Whatever is shown, each question has used one line. -/
theorem uses_of_unfolds (asks : answers ≠ .never) {state after : Text.Octets × τ}
    {events : List DeskEvent}
    (unfolds : Dispatcher.Unfolds (Desk.atTerminal answers reboot) state events after)
    {lines : List Text.Octets} (cuts : Text.Cuts state.1 lines) :
    Uses reboot lines state.2 events after := by
  induction unfolds generalizing lines with
  | plain plain => exact uses_of_plain plain cuts
  | offer state decision => exact uses_offerReboot asks decision cuts
  | append _ _ firstUses secondUses =>
      have first := firstUses cuts
      exact first.append (secondUses first.cuts)

theorem quiet_of_unfolds {state after : Text.Octets × τ} {events : List DeskEvent}
    (unfolds : Dispatcher.Unfolds (Desk.atTerminal .never reboot) state events after) :
    DeskEvent.requests events = 0 ∧ after = state := by
  induction unfolds with
  | plain plain => exact ⟨DeskEvent.requests_of_plain plain, rfl⟩
  | offer state decision =>
      obtain ⟨events_eq, host_eq⟩ := offerReboot_atTerminal .never reboot decision state
      rw [events_eq, host_eq]
      exact ⟨rfl, rfl⟩
  | append _ _ first second =>
      rw [DeskEvent.requests_append, first.1, second.1, second.2, first.2]
      exact ⟨rfl, rfl⟩

/-- The answers are those of the lines, and no reboot is requested without one.  Whatever a line
holds, the question that takes it takes no more, so the next line is for the next question; where
nobody is asked, nobody agrees. -/
theorem reboots_within_agreeing_lines (input : Text.Octets) :
    ∃ lines, Text.Cuts input lines ∧
      (∀ count : Nat,
        let asked : Traced Empty _ := confirmAll .reader count input
        asked.value.1.length = count ∧
          (∀ k < count,
            asked.value.1[k]? = some true ↔ ∃ line, lines[k]? = some line ∧ Agrees line) ∧
          Text.Cuts asked.value.2 (lines.drop count)) ∧
      (∀ count : Nat,
        (confirmAll .never count input : Traced Empty _).value =
          (List.replicate count false, input)) ∧
      ∀ (τ : Type) (reboot : Consult τ (Except Fault Unit)) (host : τ) (dispatcher : Dispatcher)
        (turns : List SessionTurn),
        let overReader :=
          Dispatcher.takeTurns (Desk.atTerminal .reader reboot) dispatcher turns (input, host)
        let overNobody :=
          Dispatcher.takeTurns (Desk.atTerminal .never reboot) dispatcher turns (input, host)
        Uses reboot lines host overReader.events overReader.value.2 ∧
          DeskEvent.requests overReader.events ≤ lines.countP (fun line => Agrees line) ∧
          DeskEvent.requests overNobody.events = 0 ∧ overNobody.value.2 = (input, host) := by
  obtain ⟨lines, cuts⟩ := Text.exists_cuts input
  have asks : Answers.reader ≠ .never := fun impossible => nomatch impossible
  refine ⟨lines, cuts, fun count => confirmAll_of_cuts asks count cuts,
    fun count => confirmAll_never count input, ?_⟩
  intro τ reboot host dispatcher turns overReader overNobody
  have uses : Uses reboot lines host overReader.events overReader.value.2 :=
    uses_of_unfolds asks (Dispatcher.unfolds_takeTurns _ dispatcher (input, host) turns) cuts
  have quiet := quiet_of_unfolds
    (Dispatcher.unfolds_takeTurns (Desk.atTerminal .never reboot) dispatcher (input, host) turns)
  refine ⟨uses, ?_, quiet⟩
  rw [uses.requests_eq]
  exact (List.take_sublist _ _).countP_le

end Terminal

end DiskWarden
