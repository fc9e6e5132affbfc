import DiskWarden.Proofs.Dispatch.Calls

/-!
# What a result shows and reports

A result restores the cursor, closes the indicator of the job that it ends, and tells the user.
The first and the last happen whether or not there was a job.  What is told follows from the
decision, from whether offers are deferred, and from the answers of the desk.
-/

namespace DiskWarden

/-- How a desk tells a decision: what is shown, and how the telling is reported.  Only a question
that is answered yes leads to a request for a reboot. -/
inductive Desk.Tells {σ : Type} (desk : Desk σ) (host : σ) (decision : Decision) :
    Bool → List DeskEvent → Presentation → Prop
  | notice {defers : Bool} (noOffer : decision.offersReboot = false) :
      Tells desk host decision defers
        [.noticed decision.severity decision.title decision.message] .notice
  | pending (offer : decision.offersReboot = true) :
      Tells desk host decision true [] .rebootPending
  | declined (offer : decision.offersReboot = true)
      (no : (desk.confirm decision host).value.1 = false) :
      Tells desk host decision false
        [.rebootAsked decision.title decision.message] .rebootDeclined
  | requested (offer : decision.offersReboot = true)
      (yes : (desk.confirm decision host).value.1 = true)
      (granted : (desk.reboot (desk.confirm decision host).value.2).value.1 = .ok ()) :
      Tells desk host decision false
        [.rebootAsked decision.title decision.message, .rebootRequested] .rebootRequested
  | failed {fault : Fault} (offer : decision.offersReboot = true)
      (yes : (desk.confirm decision host).value.1 = true)
      (refused : (desk.reboot (desk.confirm decision host).value.2).value.1 = .error fault) :
      Tells desk host decision false
        [.rebootAsked decision.title decision.message, .rebootRequested] .rebootFailed

namespace Dispatcher

variable {σ : Type} (desk : Desk σ) (dispatcher : Dispatcher) (host : σ)

theorem tells_offerReboot {decision : Decision} (offer : decision.offersReboot = true) :
    let offered := desk.offerReboot decision host
    desk.Tells host decision false offered.events offered.value.1 := by
  cases agreed : (desk.confirm decision host).value.1 with
  | false =>
      have told := Desk.Tells.declined offer agreed
      simpa [Desk.offerReboot, agreed] using told
  | true =>
      cases replied : (desk.reboot (desk.confirm decision host).value.2).value.1 with
      | ok =>
          have told := Desk.Tells.requested offer agreed replied
          simpa [Desk.offerReboot, agreed, replied] using told
      | error fault =>
          have told := Desk.Tells.failed offer agreed replied
          simpa [Desk.offerReboot, agreed, replied] using told

theorem tells_tell (defers : Bool) (decision : Decision) :
    let told := tell desk defers decision host
    desk.Tells host decision defers told.events told.value.1 := by
  unfold tell Desk.present
  cases offers : decision.offersReboot with
  | false => exact .notice offers
  | true =>
      cases defers with
      | false => exact tells_offerReboot desk host offers
      | true => exact .pending offers

/-! ## The job that a result ends -/

/-- The key of the job that an operation on a device ends, if it ends one. -/
def endedKey? (operation : Operation) (device : Device) : Option JobKey :=
  operation.jobKind?.map fun kind => ⟨device, kind⟩

/-- The job that a registry has for an operation on a device. -/
def tracked? (registry : Registry) (operation : Operation) (device : Device) : Option Job :=
  (endedKey? operation device).bind registry.job?

/-- The closing of the indicator, where there was a job. -/
def closing (registry : Registry) (operation : Operation) (device : Device) : List DeskEvent :=
  match endedKey? operation device with
  | some key => if (registry.job? key).isSome then [.closed key] else []
  | none => []

variable (now : Instant) (device : Device) (operation : Operation)

theorem evict_shown (registry : Registry) :
    let evicted := evict registry now device operation host
    evicted.value.1.1 =
        (tracked? registry operation device).map (fun job => { job with state := .terminal }) ∧
      evicted.events = closing registry operation device := by
  cases about : operation.jobKind? with
  | some kind =>
      obtain ⟨value, events⟩ := evict_of_jobKind host now device operation registry about
      have ended : endedKey? operation device = some ⟨device, kind⟩ := by
        rw [endedKey?, about, Option.map_some]
      simp only [value, events, tracked?, closing, ended, Option.bind_some]
      exact ⟨rfl, rfl⟩
  | none =>
      have ended : endedKey? operation device = none := by
        rw [endedKey?, about, Option.map_none]
      simp only [evict_of_none host now device operation registry about, tracked?, closing, ended]
      exact ⟨rfl, trivial⟩

/-- The job at the key is gone, and no other is touched. -/
theorem job?_evict (registry : Registry) (key : JobKey) :
    (evict registry now device operation host).value.1.2.job? key =
      if endedKey? operation device = some key then none else registry.job? key := by
  cases about : operation.jobKind? with
  | some kind =>
      have value := (evict_of_jobKind host now device operation registry about).1
      rw [value, Registry.job?, Registry.finish_jobs, Table.get?_erase, endedKey?, about,
        Option.map_some]
      simp only [Option.some.injEq]
      rfl
  | none =>
      rw [evict_of_none host now device operation registry about, endedKey?, about,
        Option.map_none, if_neg (Option.some_ne_none key).symm]

/-- What the dispatch of a result shows, reports and leaves behind. -/
theorem result_shown_and_reported {sent : Signal} {code : Code}
    (isResult : sent.notification = .result operation code) :
    let registry := dispatcher.registry
    let handled := dispatch desk dispatcher now sent host
    let left := handled.value.1.2.registry
    let verdict := judge operation code
    let decision := verdict.decision sent.label
    (∃ told presentation,
      desk.Tells host decision dispatcher.defersReboots told presentation ∧
      handled.events = [.cursorRestored] ++ closing registry operation sent.device ++ told ∧
      handled.value.1.1 = .result
        { device := sent.device
          verdict
          decision
          presentation
          evicted := (tracked? registry operation sent.device).map
            fun job => { job with state := .terminal } }) ∧
    (∀ key, endedKey? operation sent.device = some key → left.job? key = none) ∧
    (∀ key, endedKey? operation sent.device ≠ some key → left.job? key = registry.job? key) ∧
    (operation = .preEncrypt ∨ operation = .changePassphrase → left = registry) := by
  intro registry handled left verdict decision
  obtain ⟨value, events⟩ :=
    onResult_eq desk dispatcher host now sent.device sent.displayName operation code
  obtain ⟨evicted_eq, closing_eq⟩ := evict_shown host now sent.device operation registry
  have handled_eq : handled =
      onResult desk dispatcher now sent.device sent.displayName operation code host := by
    simp only [handled, dispatch, isResult]
  have left_eq : left = (evict registry now sent.device operation host).value.1.2 := by
    simp only [left, handled_eq, value]
    rfl
  refine ⟨⟨_, _, tells_tell desk host dispatcher.defersReboots decision, ?_, ?_⟩, ?_, ?_, ?_⟩
  · rw [handled_eq, events, closing_eq]
    rfl
  · rw [handled_eq, value, evicted_eq]
    rfl
  · intro key ended
    rw [left_eq, job?_evict, if_pos ended]
  · intro key kept
    rw [left_eq, job?_evict, if_neg kept]
  · intro noJob
    have about : operation.jobKind? = none := by
      rcases noJob with rfl | rfl <;> rfl
    rw [left_eq, evict_of_none host now sent.device operation registry about]

def decryptedKey : JobKey := ⟨⟨"/dev/sda1"⟩, .decrypt⟩

def decryptingJob : Job := ⟨decryptedKey, "sda1", .hundred, .active⟩

def encryptingJob : Job := ⟨⟨⟨"/dev/sda1"⟩, .encrypt⟩, "sda1", .zero, .active⟩

/-- A dispatcher with two jobs on one device. -/
def busyDispatcher : Dispatcher :=
  ⟨{ Registry.empty 3 with
      jobs := [(encryptingJob.key, encryptingJob), (decryptedKey, decryptingJob)] }, false⟩

/-- A user who agrees to every reboot, and a session that refuses them. -/
def powerlessDesk : Desk Unit := ⟨fun _ => pure true, pure (.error (.io "refused"))⟩

/-- The result of a decryption that asks for a reboot. -/
def rebootResult : Signal :=
  .decryptDiskResult "/dev/sda1" "sda1" "" ((Code.ofInt? (-1)).getD default)

theorem refused_reboot_reported :
    rebootResult.notification = .result .decrypt ((Code.ofInt? (-1)).getD default) ∧
      let handled := dispatch powerlessDesk busyDispatcher 7 rebootResult ()
      handled.events =
        [.cursorRestored, .closed decryptedKey,
          .rebootAsked "Decrypt device" "Please reboot to decrypt device sda1(sda1).",
          .rebootRequested] ∧
      (∃ report, handled.value.1.1 = .result report ∧ report.presentation = .rebootFailed ∧
        report.evicted = some { decryptingJob with state := .terminal }) ∧
      handled.value.1.2.registry.job? decryptedKey = none ∧
      handled.value.1.2.registry.job? encryptingJob.key = some encryptingJob := by
  have isResult : rebootResult.notification =
      .result .decrypt ((Code.ofInt? (-1)).getD default) := rfl
  obtain ⟨⟨told, presentation, tells, events, report⟩, gone, kept, -⟩ :=
    result_shown_and_reported powerlessDesk busyDispatcher () 7 .decrypt isResult
  have refused : told =
        [.rebootAsked "Decrypt device" "Please reboot to decrypt device sda1(sda1).",
          .rebootRequested] ∧ presentation = .rebootFailed := by
    cases tells with
    | notice noOffer => exact absurd noOffer (by decide)
    | declined _ no => exact absurd no (by decide)
    | requested _ _ granted => cases granted
    | failed => decide
  obtain ⟨rfl, rfl⟩ := refused
  exact ⟨isResult, events, ⟨_, report, rfl, by decide⟩, gone decryptedKey (by decide),
    kept encryptingJob.key (by decide)⟩

end Dispatcher

end DiskWarden
