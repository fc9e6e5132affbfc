import DiskWarden.Bus
import DiskWarden.Proofs.Dispatch.Calls
import DiskWarden.Proofs.Dispatch.Lines
import DiskWarden.Proofs.Outcome.Meanings

/-!
# Which notifications lead to a question about a reboot

A result calls for a reboot by its code alone.  A dispatcher that asks at once puts the question
while it dispatches the result, and one that defers its questions leaves an errand behind.  In
everything else the two do the same.
-/

namespace DiskWarden

/-! ## Notifications -/

namespace Signal

/-- The notifications that call for a reboot, each with the decision that offers one. -/
inductive CallsForReboot : Signal → Decision → Prop
  | preEncrypted (device name reserved : String) (code : Code) (done : code.value = 0) :
      CallsForReboot (.prepareEncryptDiskResult device name reserved code)
        (.reboot "Preencrypt done" ("Device " ++ (Device.mk device).label name ++
          " has been preencrypt, please reboot to finish encryption."))
  | decrypting (device name reserved : String) (code : Code) (waits : code.value = -1) :
      CallsForReboot (.decryptDiskResult device name reserved code)
        (.reboot "Decrypt device"
          ("Please reboot to decrypt device " ++ (Device.mk device).label name ++ "."))

/-- The device and the decision of the offer that a notification leads to. -/
def offer? (sent : Signal) : Option (Device × Decision) :=
  match sent.notification with
  | .progress .. => none
  | .result operation code =>
      let decision := (judge operation code).decision sent.label
      if decision.offersReboot then some (sent.device, decision) else none

end Signal

theorem Signal.offer?_eq_some_iff (sent : Signal) (device : Device) (decision : Decision) :
    sent.offer? = some (device, decision) ↔
      device = sent.device ∧ sent.CallsForReboot decision := by
  constructor
  · intro offers
    unfold offer? at offers
    cases about : sent.notification with
    | progress kind value =>
        rw [about] at offers
        cases offers
    | result operation code =>
        rw [about] at offers
        simp only at offers
        split at offers
        · next offered =>
          obtain ⟨rfl, rfl⟩ := Prod.mk.inj (Option.some.inj offers)
          refine ⟨rfl, ?_⟩
          rcases (offersReboot_judge_iff _ _ _).mp offered with ⟨rfl, done⟩ | ⟨rfl, waits⟩
          · have success := (classify_eq_success_iff .preEncrypt code).mpr done
            rw [Verdict.decision, judge, success]
            cases sent with
            | prepareEncryptDiskResult device name reserved =>
                cases about
                exact .preEncrypted device name reserved code done
            | _ => cases about
          · have required := (classify_eq_rebootRequired_iff .decrypt code).mpr ⟨rfl, waits⟩
            rw [Verdict.decision, judge, required]
            cases sent with
            | decryptDiskResult device name reserved =>
                cases about
                exact .decrypting device name reserved code waits
            | _ => cases about
        · cases offers
  · rintro ⟨rfl, calls⟩
    cases calls with
    | preEncrypted path name reserved code done =>
        have success := (classify_eq_success_iff .preEncrypt code).mpr done
        simp only [offer?, notification, judge, success]
        rfl
    | decrypting path name reserved code waits =>
        have required := (classify_eq_rebootRequired_iff .decrypt code).mpr ⟨rfl, waits⟩
        simp only [offer?, notification, judge, required]
        rfl

/-- A decryption that waits for a reboot says so with a negative code only. -/
example : (Signal.decryptDiskResult "/dev/sda1" "sda1" "" (.ofSmall 1)).offer? = none := by
  decide

/-! ## Dispatching -/

/-- The title and the message of a question about a reboot. -/
def DeskEvent.question? : DeskEvent → Option (String × String)
  | rebootAsked title message => some (title, message)
  | _ => none

/-- How a decision is put as a question. -/
def Decision.question (decision : Decision) : String × String :=
  (decision.title, decision.message)

/-- The offers that some notifications lead to, in their order. -/
def offersOf (sent : List (Instant × Signal)) : List (Device × Decision) :=
  sent.filterMap fun entry => entry.2.offer?

theorem offersOf_cons (first : Instant × Signal) (later : List (Instant × Signal)) :
    offersOf (first :: later) = first.2.offer?.toList ++ offersOf later := by
  unfold offersOf
  rw [List.filterMap_cons]
  cases first.2.offer? <;> rfl

theorem offersOf_append (earlier later : List (Instant × Signal)) :
    offersOf (earlier ++ later) = offersOf earlier ++ offersOf later :=
  List.filterMap_append

open DeskEvent

theorem DeskEvent.question?_of_isPlain {event : DeskEvent} (plain : event.isPlain = true) :
    event.question? = none := by
  cases event with
  | rebootAsked => cases plain
  | _ => rfl

namespace Dispatcher

variable {σ : Type} (desk : Desk σ) (dispatcher : Dispatcher) (host : σ)

theorem events_tell (defers : Bool) (decision : Decision) :
    (tell desk defers decision host).events =
      if decision.offersReboot then
        if defers then [] else (desk.offerReboot decision host).events
      else [.noticed decision.severity decision.title decision.message] := by
  unfold tell Desk.present
  cases decision.offersReboot with
  | true => cases defers <;> rfl
  | false => rfl

/-- A dispatch shows what has nothing to do with a reboot, and then asks, if it is to ask now. -/
theorem events_dispatch (now : Instant) (sent : Signal) :
    (dispatch desk dispatcher now sent host).events =
      sent.plainEvents now dispatcher.registry ++
        match sent.offer? with
        | none => []
        | some offer =>
            if dispatcher.defersReboots then [] else (desk.offerReboot offer.2 host).events := by
  unfold dispatch Signal.plainEvents Signal.offer? Signal.call?
  cases sent.notification with
  | progress kind value =>
      simp only [onTick_events_eq, Option.elim_some, List.append_nil]
  | result operation code =>
      obtain ⟨-, -, -, events⟩ :=
        evict_eq host dispatcher.registry now sent.device operation
      have label_eq : sent.device.label sent.displayName = sent.label := rfl
      simp only [(onResult_eq desk dispatcher host now sent.device sent.displayName operation
        code).2, events, events_tell, label_eq]
      cases ((judge operation code).decision sent.label).offersReboot with
      | true => simp
      | false => simp

theorem errandOf_dispatch (defers : dispatcher.defersReboots = true) (now : Instant)
    (sent : Signal) :
    Bus.errandOf (dispatch desk dispatcher now sent host).value.1.1 =
      sent.offer?.toList.map fun offer => .reboot offer.1 offer.2 := by
  unfold dispatch Signal.offer?
  cases sent.notification with
  | progress kind value =>
      rw [onTick_value]
      rfl
  | result operation code =>
      have label_eq : sent.device.label sent.displayName = sent.label := rfl
      simp only [(onResult_eq desk dispatcher host now sent.device sent.displayName operation
        code).1, defers, tell, Bool.and_true, Bus.errandOf, label_eq]
      cases offers : ((judge operation code).decision sent.label).offersReboot with
      | true => simp
      | false => simp [Desk.present, offers]

/-! ## Runs -/

theorem events_dispatch_of_defers (defers : dispatcher.defersReboots = true) (now : Instant)
    (sent : Signal) :
    (dispatch desk dispatcher now sent host).events =
      sent.plainEvents now dispatcher.registry := by
  rw [events_dispatch, defers]
  cases sent.offer? <;> exact List.append_nil _

theorem question?_dispatch (asks : dispatcher.defersReboots = false) (now : Instant)
    (sent : Signal) :
    (dispatch desk dispatcher now sent host).events.filterMap question? =
      sent.offer?.toList.map fun offer => offer.2.question := by
  have quiet : (sent.plainEvents now dispatcher.registry).filterMap question? = [] := by
    rw [List.filterMap_eq_nil_iff]
    intro event member
    rw [← filter_isPlain_dispatch desk dispatcher host, List.mem_filter] at member
    exact question?_of_isPlain member.2
  rw [events_dispatch, List.filterMap_append, quiet, asks]
  cases sent.offer? with
  | none => rfl
  | some offer =>
      simp only [Bool.false_eq_true, if_false, events_offerReboot]
      split <;> rfl

/-- What some notifications, with their times, make of a registry. -/
def registryAfter (registry : Registry) : List (Instant × Signal) → Registry
  | [] => registry
  | (now, sent) :: later =>
      registryAfter ((sent.call? now).elim registry (·.apply registry)) later

/-- What some notifications, with their times, show from a registry on, reboots aside. -/
def plainEventsFrom (registry : Registry) : List (Instant × Signal) → List DeskEvent
  | [] => []
  | (now, sent) :: later =>
      sent.plainEvents now registry ++
        plainEventsFrom ((sent.call? now).elim registry (·.apply registry)) later

/-- Neither the answers nor the time at which questions are put matter to the registry and to
what else is shown. -/
theorem dispatchAll_left (sent : List (Instant × Signal)) :
    (dispatchAll desk dispatcher sent host).value.1 =
        { dispatcher with registry := registryAfter dispatcher.registry sent } ∧
      (dispatchAll desk dispatcher sent host).events.filter isPlain =
        plainEventsFrom dispatcher.registry sent := by
  induction sent generalizing dispatcher host with
  | nil => exact ⟨rfl, rfl⟩
  | cons first later inductionHypothesis =>
      obtain ⟨now, first⟩ := first
      obtain ⟨value_eq, events_eq⟩ := inductionHypothesis
        (dispatch desk dispatcher now first host).value.1.2
        (dispatch desk dispatcher now first host).value.2
      rw [dispatchAll_cons, Act.bind_apply, List.filter_append, filter_isPlain_dispatch,
        value_eq, events_eq, dispatch_left]
      exact ⟨rfl, rfl⟩

/-- A dispatcher that defers its questions asks nobody. -/
theorem dispatchAll_of_defers (defers : dispatcher.defersReboots = true)
    (sent : List (Instant × Signal)) :
    (dispatchAll desk dispatcher sent host).value =
        ({ dispatcher with registry := registryAfter dispatcher.registry sent }, host) ∧
      (dispatchAll desk dispatcher sent host).events =
        plainEventsFrom dispatcher.registry sent := by
  induction sent generalizing dispatcher with
  | nil => exact ⟨rfl, rfl⟩
  | cons first later inductionHypothesis =>
      obtain ⟨now, first⟩ := first
      have left := dispatch_left desk dispatcher host now first
      obtain ⟨dispatched, reached, events, -, dispatch_eq⟩ :=
        dispatch_of_defers desk dispatcher defers now first
      have same : (dispatch desk dispatcher now first host).value.2 = host := by
        rw [(dispatch_eq host).1]
      obtain ⟨value_eq, events_eq⟩ := inductionHypothesis
        (dispatch desk dispatcher now first host).value.1.2 (by rw [left]; exact defers)
      rw [dispatchAll_cons, Act.bind_apply, events_dispatch_of_defers desk dispatcher host defers,
        same, value_eq, events_eq, left]
      exact ⟨rfl, rfl⟩

theorem question?_dispatchAll (asks : dispatcher.defersReboots = false)
    (sent : List (Instant × Signal)) :
    (dispatchAll desk dispatcher sent host).events.filterMap question? =
      (offersOf sent).map fun offer => offer.2.question := by
  induction sent generalizing dispatcher host with
  | nil => rfl
  | cons first later inductionHypothesis =>
      obtain ⟨now, first⟩ := first
      have left := dispatch_left desk dispatcher host now first
      rw [dispatchAll_cons, Act.bind_apply, List.filterMap_append,
        question?_dispatch desk dispatcher host asks,
        inductionHypothesis _ _ (by rw [left]; exact asks), offersOf_cons, List.map_append]

end Dispatcher

end DiskWarden
