import DiskWarden.Acquisition

/-!
# Empty secrets are cancellations

Whatever the lookup, the TPM and the prompt do, a request that is handled ends with a secret or
with a cancellation and never with both or neither, and a request that is not handled ends with
neither.  A request is not handled exactly if there was no way to ask: the lookup failed, the
key type is not supported, or the prompt failed.
-/

namespace DiskWarden

/-- The prompt with which a flow begins, if it has one. -/
def Flow.promptMode? : Flow → Option PromptMode
  | .password => some .password
  | .tpmAndPin => some .pin
  | .tpmOnly => none

namespace Acquisition

/-- A cancellation carries no secret. -/
def KeepsNothing (acquisition : Acquisition) : Prop :=
  acquisition.cancelled = true → acquisition.secret = ""

/-- Cancelled, or with a secret that is not empty. -/
def Decided (acquisition : Acquisition) : Prop :=
  acquisition.cancelled = true ↔ acquisition.secret = ""

theorem ofSecret_keepsNothing (secret : String) : (ofSecret secret).KeepsNothing :=
  fun cancelled => Bool.noConfusion cancelled

theorem cancellation_keepsNothing : cancellation.KeepsNothing := fun _ => rfl

theorem wrong_decided : wrong.Decided := iff_of_true rfl rfl

theorem KeepsNothing.decided {acquisition : Acquisition} (keeps : acquisition.KeepsNothing)
    (notEmptyHanded : ¬ acquisition.isEmptyHanded = true) : acquisition.Decided := by
  refine ⟨keeps, fun empty => ?_⟩
  cases cancelled : acquisition.cancelled with
  | true => rfl
  | false => simp [isEmptyHanded, empty, cancelled] at notEmptyHanded

end Acquisition

namespace Reply

/-- What the daemon may rely on: a handled request is cancelled exactly if its secret is empty,
and one that is not handled is neither cancelled nor has a secret. -/
def Trustworthy (reply : Reply) : Prop :=
  (reply.handled = true → (reply.cancelled = true ↔ reply.secret = "")) ∧
    (reply.handled = false → reply.secret = "" ∧ reply.cancelled = false)

theorem trustworthy_of_decided {acquisition : Acquisition} (decided : acquisition.Decided) :
    acquisition.reply.Trustworthy :=
  ⟨fun _ => decided, fun handled => Bool.noConfusion handled⟩

theorem unhandled_trustworthy : unhandled.Trustworthy :=
  ⟨fun handled => Bool.noConfusion handled, fun _ => ⟨rfl, rfl⟩⟩

end Reply

namespace Keyring

variable {σ : Type} (keyring : Keyring σ) (flow : Flow) (device : Device) (state : σ)

/-! ## Having no way to ask -/

def LookupFails : Prop :=
  ∃ fault, (keyring.keyType device state).value.1 = .error fault

def TypeIsUnsupported : Prop :=
  ∃ code, (keyring.keyType device state).value.1 = .ok (.unsupported code)

/-- The prompt of a flow fails. -/
def FlowPromptFails : Prop :=
  ∃ mode fault, flow.promptMode? = some mode ∧
    (keyring.prompt mode state).value.1 = .error fault

/-- The prompt that the key type asks for fails, in the state that the lookup has left. -/
def PromptFails : Prop :=
  ∃ keyType flow, (keyring.keyType device state).value.1 = .ok keyType ∧
    Flow.of? device keyType = .ok flow ∧
      keyring.FlowPromptFails flow (keyring.keyType device state).value.2

/-! ## The flows -/

theorem settle_keepsNothing (response : PromptResponse) :
    (keyring.settle flow device response state).value.1.KeepsNothing := by
  unfold settle
  split
  · exact Acquisition.cancellation_keepsNothing
  · cases flow with
    | tpmAndPin =>
        cases response.mode with
        | pin =>
            simp only [Act.map_apply]
            exact Acquisition.ofSecret_keepsNothing _
        | password => exact Acquisition.ofSecret_keepsNothing _
    | password => exact Acquisition.ofSecret_keepsNothing _
    | tpmOnly => exact Acquisition.ofSecret_keepsNothing _

theorem askAndSettle_value (mode : PromptMode) :
    (keyring.askAndSettle flow device mode state).value.1 =
      match (keyring.prompt mode state).value.1 with
      | .error fault => .error fault
      | .ok response =>
          .ok (keyring.settle flow device response (keyring.prompt mode state).value.2).value.1 := by
  simp only [askAndSettle, ask, Act.bind_apply, Act.emit_apply, Act.consult_apply]
  cases (keyring.prompt mode state).value.1 with
  | error fault => rfl
  | ok response => simp only [Act.map_apply]

theorem askAndSettle_keepsNothing (mode : PromptMode) {acquisition : Acquisition}
    (ok : (keyring.askAndSettle flow device mode state).value.1 = .ok acquisition) :
    acquisition.KeepsNothing := by
  rw [askAndSettle_value] at ok
  cases answer : (keyring.prompt mode state).value.1 with
  | error fault =>
      rw [answer] at ok
      cases ok
  | ok response =>
      rw [answer] at ok
      cases ok
      exact keyring.settle_keepsNothing flow device _ response

theorem askAndSettle_error_iff (mode : PromptMode) :
    (∃ fault, (keyring.askAndSettle flow device mode state).value.1 = .error fault) ↔
      ∃ fault, (keyring.prompt mode state).value.1 = .error fault := by
  rw [askAndSettle_value]
  cases (keyring.prompt mode state).value.1 with
  | error fault => simp
  | ok response => simp

theorem run_keepsNothing {acquisition : Acquisition}
    (ok : (keyring.run flow device state).value.1 = .ok acquisition) :
    acquisition.KeepsNothing := by
  cases flow with
  | password => exact keyring.askAndSettle_keepsNothing _ device state _ ok
  | tpmAndPin => exact keyring.askAndSettle_keepsNothing _ device state _ ok
  | tpmOnly =>
      cases ok
      exact Acquisition.ofSecret_keepsNothing _

theorem run_error_iff :
    (∃ fault, (keyring.run flow device state).value.1 = .error fault) ↔
      keyring.FlowPromptFails flow state := by
  cases flow with
  | password =>
      refine (keyring.askAndSettle_error_iff _ device state _).trans ?_
      simp [FlowPromptFails, Flow.promptMode?]
  | tpmAndPin =>
      refine (keyring.askAndSettle_error_iff _ device state _).trans ?_
      simp [FlowPromptFails, Flow.promptMode?]
  | tpmOnly =>
      -- the TPM has no failure of its own here: it counts as an empty secret
      simp [run, FlowPromptFails, Flow.promptMode?]

theorem conclude_decided (keyType : KeyType) {acquisition : Acquisition}
    (keeps : acquisition.KeepsNothing) :
    (conclude keyType acquisition state).value.1.Decided := by
  unfold conclude
  split
  · exact Acquisition.wrong_decided
  · next notEmptyHanded => exact keeps.decided notEmptyHanded

/-! ## Acquiring -/

/-- What acquiring a secret comes to, by what the lookup says. -/
theorem acquire_value :
    (keyring.acquire device state).value.1 =
      match (keyring.keyType device state).value.1 with
      | .error fault => .error fault
      | .ok keyType =>
          match Flow.of? device keyType with
          | .error fault => .error fault
          | .ok flow =>
              let ran := (keyring.run flow device (keyring.keyType device state).value.2).value
              match ran.1 with
              | .error fault => .error fault
              | .ok acquisition => .ok (conclude keyType acquisition ran.2).value.1 := by
  simp only [acquire, Act.bind_apply, Act.consult_apply]
  cases (keyring.keyType device state).value.1 with
  | error fault => rfl
  | ok keyType =>
      dsimp only
      cases Flow.of? device keyType with
      | error fault => rfl
      | ok flow =>
          simp only [Act.bind_apply, Act.record_apply]
          cases (keyring.run flow device (keyring.keyType device state).value.2).value.1 with
          | error fault => rfl
          | ok acquisition => simp only [Act.map_apply]

theorem acquire_decided {acquisition : Acquisition}
    (ok : (keyring.acquire device state).value.1 = .ok acquisition) : acquisition.Decided := by
  rw [acquire_value] at ok
  split at ok
  · cases ok
  · split at ok
    · cases ok
    · dsimp only at ok
      split at ok
      · cases ok
      · next ran =>
          cases ok
          exact conclude_decided _ _ (keyring.run_keepsNothing _ device _ ran)

theorem acquire_error_iff :
    (∃ fault, (keyring.acquire device state).value.1 = .error fault) ↔
      keyring.LookupFails device state ∨ keyring.TypeIsUnsupported device state ∨
        keyring.PromptFails device state := by
  rw [acquire_value]
  unfold LookupFails TypeIsUnsupported PromptFails
  cases (keyring.keyType device state).value.1 with
  | error fault => simp
  | ok keyType =>
      cases supported : Flow.of? device keyType with
      | error fault =>
          cases keyType with
          | unsupported code => simp [supported]
          | _ => cases supported
      | ok flow =>
          have ranError := keyring.run_error_iff flow device (keyring.keyType device state).value.2
          simp only [supported]
          constructor
          · rintro ⟨fault, failed⟩
            refine .inr (.inr ⟨keyType, flow, rfl, supported, ranError.mp ?_⟩)
            split at failed
            · next ran => exact ⟨_, ran⟩
            · cases failed
          · rintro (⟨fault, impossible⟩ | ⟨code, same⟩ | ⟨_, _, same, chosen, failed⟩)
            · cases impossible
            · cases same
              cases supported
            · cases same
              rw [supported] at chosen
              cases chosen
              obtain ⟨fault, ran⟩ := ranError.mpr failed
              exact ⟨fault, by simp only [ran]⟩

/-! ## Answering -/

theorem answer_value :
    (keyring.answer device state).value.1 =
      match (keyring.acquire device state).value.1 with
      | .ok acquisition => acquisition.reply
      | .error _ => .unhandled := by
  simp only [answer, Act.bind_apply]
  cases (keyring.acquire device state).value.1 with
  | ok acquisition => rfl
  | error fault => rfl

theorem answer_handled_iff :
    (keyring.answer device state).value.1.handled = false ↔
      keyring.LookupFails device state ∨ keyring.TypeIsUnsupported device state ∨
        keyring.PromptFails device state := by
  rw [← acquire_error_iff, answer_value]
  cases (keyring.acquire device state).value.1 with
  | ok acquisition => simp [Acquisition.reply]
  | error fault => simp [Reply.unhandled]

/-- No way to ask, and only that, leaves a request unhandled; the TPM has no part in it. -/
theorem answer_trustworthy (keyring : Keyring σ) (device : Device) (state : σ) :
    let reply := (keyring.answer device state).value.1
    reply.Trustworthy ∧
    (reply.handled = false ↔
      keyring.LookupFails device state ∨ keyring.TypeIsUnsupported device state ∨
        keyring.PromptFails device state) ∧
    ∀ unsealSecret, (({ keyring with unsealSecret }).answer device state).value.1.handled =
      reply.handled := by
  refine ⟨?_, keyring.answer_handled_iff device state, fun unsealSecret => ?_⟩
  · rw [answer_value]
    cases acquired : (keyring.acquire device state).value.1 with
    | ok acquisition =>
        exact Reply.trustworthy_of_decided (keyring.acquire_decided device state acquired)
    | error fault => exact Reply.unhandled_trustworthy
  · -- the condition for an unhandled request does not mention the TPM
    have changed := ({ keyring with unsealSecret }).answer_handled_iff device state
    have same := changed.trans (keyring.answer_handled_iff device state).symm
    by_cases unhandled : (keyring.answer device state).value.1.handled = false
    · exact (same.mpr unhandled).trans unhandled.symm
    · have handled : ({ keyring with unsealSecret }.answer device state).value.1.handled = true :=
        eq_true_of_ne_false fun lost => unhandled (same.mp lost)
      exact handled.trans (eq_true_of_ne_false unhandled).symm

end Keyring

end DiskWarden
