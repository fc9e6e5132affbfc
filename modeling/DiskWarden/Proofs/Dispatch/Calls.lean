import DiskWarden.Proofs.Dispatch.Steps

/-!
# What a step of a dispatcher asks of the registry

A step makes at most one call on the registry.  What it returns about a key, and what it shows of
the indicator of a key, follow from the answer to that call.  Whether questions about a reboot are
asked at once or left for later makes no difference to the registry or to any other event.
-/

namespace DiskWarden

/-- What a registry answers to a call. -/
inductive CallAnswer
  | ticked (tick : Tick)
  | ended (job : Option Job)
  | closed (job : Option Job)
deriving DecidableEq, Repr

namespace RegistryCall

def key : RegistryCall → JobKey
  | tick _ key _ _ => key
  | finish _ key => key
  | close key => key

def answer (registry : Registry) : RegistryCall → CallAnswer
  | tick now key displayName progress => .ticked (registry.tick now key displayName progress).1
  | finish now key => .ended (registry.finish now key).1
  | close key => .closed (registry.close key).1

/-- How the indicator of its key changes on the answer to a call. -/
def indications : RegistryCall → CallAnswer → List DeskEvent
  | tick _ key displayName _, .ticked ⟨.started, progress⟩ =>
      [.opened key (key.kind.activity ++ key.device.label displayName), .updated key progress]
  | tick _ key _ _, .ticked ⟨.advanced, progress⟩ => [.updated key progress]
  | finish _ key, .ended (some _) => [.closed key]
  | close key, .closed (some _) => [.closed key]
  | _, _ => []

end RegistryCall

open RegistryCall

namespace DeskEvent

/-- Whether an event is about the indicator of a key. -/
def isAbout (key : JobKey) : DeskEvent → Bool
  | opened shown _ => shown = key
  | updated shown _ => shown = key
  | closed shown => shown = key
  | noticed .. => false
  | cursorRestored => false
  | rebootAsked .. => false
  | rebootRequested => false

/-- Whether an event has nothing to do with a reboot. -/
def isPlain : DeskEvent → Bool
  | rebootAsked .. => false
  | rebootRequested => false
  | _ => true

theorem isAbout_of_mem_indications (key : JobKey) {call : RegistryCall} {answer : CallAnswer}
    {event : DeskEvent} (member : event ∈ call.indications answer) :
    event.isAbout key = decide (call.key = key) := by
  unfold indications at member
  split at member
  · rcases List.mem_pair.mp member with rfl | rfl <;> rfl
  · rw [List.mem_singleton.mp member]
    rfl
  · rw [List.mem_singleton.mp member]
    rfl
  · rw [List.mem_singleton.mp member]
    rfl
  · cases member

theorem filter_isAbout_indications (key : JobKey) (call : RegistryCall) (answer : CallAnswer) :
    (call.indications answer).filter (isAbout key) =
      if call.key = key then call.indications answer else [] := by
  by_cases same : call.key = key
  · rw [if_pos same, List.filter_eq_self]
    intro event member
    rw [isAbout_of_mem_indications key member]
    exact decide_eq_true same
  · rw [if_neg same, List.filter_eq_nil_iff]
    intro event member
    rw [isAbout_of_mem_indications key member]
    exact fun about => same (of_decide_eq_true about)

theorem isPlain_of_mem_indications {call : RegistryCall} {answer : CallAnswer}
    {event : DeskEvent} (member : event ∈ call.indications answer) : event.isPlain = true := by
  have about := isAbout_of_mem_indications call.key member
  rw [decide_eq_true rfl] at about
  cases event with
  | rebootAsked => cases about
  | rebootRequested => cases about
  | _ => rfl

theorem filter_isAbout_filter_isPlain (key : JobKey) (events : List DeskEvent) :
    (events.filter isPlain).filter (isAbout key) = events.filter (isAbout key) := by
  rw [List.filter_filter]
  apply List.filter_congr
  intro event _
  cases event with
  | rebootAsked => rfl
  | rebootRequested => rfl
  | _ => exact Bool.and_true _

end DeskEvent

open DeskEvent

/-- The call by which a result ends a job. -/
def Operation.ending? (operation : Operation) (now : Instant) (device : Device) :
    Option RegistryCall :=
  operation.jobKind?.map fun kind => .finish now ⟨device, kind⟩

namespace Signal

/-- The call that a notification makes at a given time. -/
def call? (sent : Signal) (now : Instant) : Option RegistryCall :=
  match sent.notification with
  | .progress kind value => some (.tick now ⟨sent.device, kind⟩ sent.displayName value)
  | .result operation _ => operation.ending? now sent.device

/-- What a notification shows at a given time, reboots aside. -/
def plainEvents (sent : Signal) (now : Instant) (registry : Registry) : List DeskEvent :=
  let shown := (sent.call? now).elim [] fun call => call.indications (call.answer registry)
  match sent.notification with
  | .progress kind value =>
      let tick := (registry.tick now ⟨sent.device, kind⟩ sent.displayName value).1
      (if tick.effect = .started then [.cursorRestored] else []) ++ shown
  | .result operation code =>
      let decision := (judge operation code).decision sent.label
      .cursorRestored :: shown ++
        if decision.offersReboot then []
        else [.noticed decision.severity decision.title decision.message]

end Signal

namespace DispatcherStep

def call? : DispatcherStep → Option RegistryCall
  | signal now sent => sent.call? now
  | close key => some (.close key)
  | defer _ => none

/-- The calls that some steps make, in order. -/
def calls (steps : List DispatcherStep) : List RegistryCall := steps.filterMap call?

end DispatcherStep

namespace Dispatcher

variable {σ : Type} (desk : Desk σ) (dispatcher : Dispatcher) (host : σ)

/-! ## Ticks and results in full -/

theorem onTick_events_eq (now : Instant) (device : Device) (displayName : String)
    (kind : JobKind) (progress : Float) :
    let call := RegistryCall.tick now ⟨device, kind⟩ displayName progress
    let tick := (dispatcher.registry.tick now ⟨device, kind⟩ displayName progress).1
    (dispatcher.onTick now device displayName kind progress host).events =
      (if tick.effect = .started then [.cursorRestored] else []) ++
        call.indications (call.answer dispatcher.registry) := by
  simp only [onTick_events, answer]
  rcases (dispatcher.registry.tick now ⟨device, kind⟩ displayName progress).1 with
    ⟨effect, reached⟩
  cases effect <;> rfl

/-- How the user is told of a decision: an offer may be left for later. -/
def tell (defers : Bool) (decision : Decision) : Act DeskEvent σ Presentation :=
  if decision.offersReboot && defers then pure .rebootPending else desk.present decision

theorem evict_eq (registry : Registry) (now : Instant) (device : Device)
    (operation : Operation) :
    let evicted := evict registry now device operation host
    let ending := operation.ending? now device
    evicted.value.2 = host ∧
      evicted.value.1.2 = ending.elim registry (·.apply registry) ∧
      (∀ call, ending = some call → call.answer registry = .ended evicted.value.1.1) ∧
      evicted.events = ending.elim [] fun call => call.indications (call.answer registry) := by
  intro evicted ending
  cases about : operation.jobKind? with
  | some kind =>
      obtain ⟨value, events⟩ := evict_of_jobKind host now device operation registry about
      have ending_eq : ending = some (.finish now ⟨device, kind⟩) := by
        simp only [ending, Operation.ending?, about, Option.map_some]
      simp only [evicted, ending_eq, value, events]
      refine ⟨trivial, rfl, ?_, ?_⟩
      · intro call same
        cases same
        rfl
      · cases found : registry.jobs.get? ⟨device, kind⟩ <;>
          simp [answer, Registry.finish, found, indications]
  | none =>
      have ending_eq : ending = none := by
        simp only [ending, Operation.ending?, about, Option.map_none]
      simp only [evicted, ending_eq, evict_of_none host now device operation registry about]
      refine ⟨trivial, rfl, ?_, rfl⟩
      intro call impossible
      cases impossible

theorem onResult_eq (now : Instant) (device : Device) (displayName : String)
    (operation : Operation) (code : Code) :
    let evicted := evict dispatcher.registry now device operation host
    let verdict := judge operation code
    let decision := verdict.decision (device.label displayName)
    let told := tell desk dispatcher.defersReboots decision host
    let handled := onResult desk dispatcher now device displayName operation code host
    handled.value =
        ((.result ⟨device, verdict, decision, told.value.1, evicted.value.1.1⟩,
          { dispatcher with registry := evicted.value.1.2 }), told.value.2) ∧
      handled.events = .cursorRestored :: (evicted.events ++ told.events) := by
  have kept := (evict_eq host dispatcher.registry now device operation).1
  simp only [onResult, tell, Act.bind_apply, Act.ite_apply, Act.emit_apply, Act.record_apply,
    Act.pure_apply, kept]
  split <;> simp

theorem offerReboot_apply (decision : Decision) :
    desk.offerReboot decision host =
      let asked := desk.confirm decision host
      let question := DeskEvent.rebootAsked decision.title decision.message
      if asked.value.1 then
        let replied := desk.reboot asked.value.2
        let confirmed := asked.log ++ ⟨.info, "reboot is confirmed..."⟩ :: replied.log
        match replied.value.1 with
        | .ok () =>
            ⟨(.rebootRequested, replied.value.2), [question, .rebootRequested], confirmed⟩
        | .error fault =>
            ⟨(.rebootFailed, replied.value.2), [question, .rebootRequested],
              confirmed ++ [⟨.warn, "reboot request failed: " ++ fault.message⟩]⟩
      else ⟨(.rebootDeclined, asked.value.2), [question], asked.log⟩ := by
  cases agrees : (desk.confirm decision host).value.1 with
  | true =>
      cases replies : (desk.reboot (desk.confirm decision host).value.2).value.1 with
      | ok => simp [Desk.offerReboot, agrees, replies]
      | error fault => simp [Desk.offerReboot, agrees, replies]
  | false => simp [Desk.offerReboot, agrees]

theorem events_offerReboot (decision : Decision) :
    (desk.offerReboot decision host).events =
      .rebootAsked decision.title decision.message ::
        if (desk.confirm decision host).value.1 then [.rebootRequested] else [] := by
  rw [offerReboot_apply]
  cases agrees : (desk.confirm decision host).value.1 with
  | true =>
      cases replies : (desk.reboot (desk.confirm decision host).value.2).value.1 <;>
        simp [agrees, replies]
  | false => simp [agrees]

/-- The session manager is called for a yes only. -/
theorem host_offerReboot (decision : Decision) :
    (desk.offerReboot decision host).value.2 =
      let asked := desk.confirm decision host
      if asked.value.1 then (desk.reboot asked.value.2).value.2 else asked.value.2 := by
  rw [offerReboot_apply]
  cases agrees : (desk.confirm decision host).value.1 with
  | true =>
      cases replies : (desk.reboot (desk.confirm decision host).value.2).value.1 <;>
        simp [agrees, replies]
  | false => simp [agrees]

theorem filter_isPlain_tell (defers : Bool) (decision : Decision) :
    (tell desk defers decision host).events.filter isPlain =
      if decision.offersReboot then []
      else [.noticed decision.severity decision.title decision.message] := by
  unfold tell Desk.present
  cases decision.offersReboot with
  | true =>
      cases defers with
      | true => rfl
      | false =>
          simp only [Bool.and_false, Bool.false_eq_true, if_false, if_true, events_offerReboot]
          split <;> rfl
  | false => rfl

/-! ## Notifications -/

/-- The registry that a notification leaves is left by its call. -/
theorem dispatch_left (now : Instant) (sent : Signal) :
    (dispatch desk dispatcher now sent host).value.1.2 =
      { dispatcher with
        registry := (sent.call? now).elim dispatcher.registry (·.apply dispatcher.registry) } := by
  unfold dispatch Signal.call?
  cases sent.notification with
  | progress kind value =>
      rw [onTick_value]
      rfl
  | result operation code =>
      obtain ⟨-, left, -, -⟩ :=
        evict_eq host dispatcher.registry now sent.device operation
      simp only [(onResult_eq desk dispatcher host now sent.device sent.displayName operation
        code).1, left]

/-- Reboots aside, nobody's answer and no deferral shows in the events. -/
theorem filter_isPlain_dispatch (now : Instant) (sent : Signal) :
    (dispatch desk dispatcher now sent host).events.filter isPlain =
      sent.plainEvents now dispatcher.registry := by
  have shown (call : RegistryCall) : (call.indications (call.answer dispatcher.registry)).filter
      isPlain = call.indications (call.answer dispatcher.registry) := by
    rw [List.filter_eq_self]
    exact fun event member => isPlain_of_mem_indications member
  unfold dispatch Signal.plainEvents Signal.call?
  cases sent.notification with
  | progress kind value =>
      simp only [onTick_events_eq, List.filter_append, shown, Option.elim_some]
      split <;> rfl
  | result operation code =>
      obtain ⟨-, -, -, events⟩ :=
        evict_eq host dispatcher.registry now sent.device operation
      simp only [(onResult_eq desk dispatcher host now sent.device sent.displayName operation
        code).2, events]
      rw [List.filter_cons_of_pos rfl, List.filter_append, filter_isPlain_tell]
      cases operation.ending? now sent.device with
      | some call =>
          simp only [Option.elim_some, shown, List.cons_append]
          rfl
      | none => rfl

end Dispatcher

end DiskWarden
