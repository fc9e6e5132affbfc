import DiskWarden.Proofs.Acquisition.EmptySecret

/-!
# What is asked for a secret

The key type and the response decide whom a request for a secret asks, and in which order.  A
passphrase is asked of the user, a PIN of the user and then the TPM with it, and a device without
either is left to the TPM alone.  The notice about the recovery key is shown behind these calls if
the attempt was not cancelled and yielded nothing, and only then.
-/

namespace DiskWarden

/-- What an attempt to get a secret comes to.  The secret may be empty. -/
inductive Attempt
  | failed (fault : Fault)
  | cancelled
  | yielded (secret : String)
deriving DecidableEq, Repr

namespace Attempt

/-- What is handed out: an empty secret never is. -/
def result : Attempt → Except Fault Acquisition
  | failed fault => .error fault
  | cancelled => .ok { secret := "", cancelled := true, wrongCredential := false }
  | yielded secret =>
      .ok
        { secret
          cancelled := decide (secret = "")
          wrongCredential := decide (secret = "") }

/-- What a flow hands on, before the rule about empty secrets. -/
def offered : Attempt → Except Fault Acquisition
  | failed fault => .error fault
  | cancelled => .ok .cancellation
  | yielded secret => .ok (.ofSecret secret)

end Attempt

namespace Flow

/-- The key type that asks for a flow. -/
def keyType : Flow → KeyType
  | password => .password
  | tpmAndPin => .tpmAndPin
  | tpmOnly => .tpmOnly

/-- The title of the notice about a secret that turned out empty. -/
def noticeTitle : Flow → String
  | password => "Wrong passphrase"
  | tpmAndPin => "Wrong PIN"
  | tpmOnly => "TPM error"

/-- The notice about a secret that turned out empty. -/
def notice (flow : Flow) : Call :=
  .noticed .info flow.noticeTitle "Please use recovery key to unlock device."

theorem of?_keyType (flow : Flow) (device : Device) : Flow.of? device flow.keyType = .ok flow := by
  cases flow <;> rfl

theorem notice_eq (flow : Flow) :
    let shown := recoveryNotice flow.keyType
    Call.noticed shown.severity shown.title shown.message = flow.notice := by
  cases flow <;> rfl

end Flow

/-- A key type asks for a flow, or it is not supported. -/
theorem KeyType.exists_flow_or_unsupported (keyType : KeyType) :
    (∃ flow : Flow, keyType = flow.keyType) ∨ ∃ code, keyType = .unsupported code := by
  cases keyType with
  | password => exact .inl ⟨.password, rfl⟩
  | tpmAndPin => exact .inl ⟨.tpmAndPin, rfl⟩
  | tpmOnly => exact .inl ⟨.tpmOnly, rfl⟩
  | unsupported code => exact .inr ⟨code, rfl⟩

namespace Keyring

variable {σ : Type} (keyring : Keyring σ) (flow : Flow) (device : Device) (state : σ)

/-- What the TPM yields for a device and a PIN: a failure counts as an empty secret. -/
def unsealed (auxiliary : String) : Attempt :=
  match (keyring.unsealSecret device auxiliary state).value.1 with
  | .ok secret => .yielded secret
  | .error _ => .yielded ""

/-- The state in which the TPM leaves the collaborators. -/
def afterUnsealing (auxiliary : String) : σ :=
  (keyring.unsealSecret device auxiliary state).value.2

/-- How a flow asks for a secret: the calls in order, what they come to, and the state that they
leave. -/
inductive Tries : List Call → Attempt → σ → Prop
  | promptFailed {mode : PromptMode} {fault : Fault} {left : σ}
      (asks : flow.promptMode? = some mode)
      (failed : (keyring.prompt mode state).value = (.error fault, left)) :
      Tries [.prompted mode] (.failed fault) left
  | cancelled {mode : PromptMode} {response : PromptResponse} {left : σ}
      (asks : flow.promptMode? = some mode)
      (answered : (keyring.prompt mode state).value = (.ok response, left))
      (refused : response.accepted = false) :
      Tries [.prompted mode] .cancelled left
  /-- The secret is what was entered, unless that is a PIN for the TPM. -/
  | entered {mode : PromptMode} {response : PromptResponse} {left : σ}
      (asks : flow.promptMode? = some mode)
      (answered : (keyring.prompt mode state).value = (.ok response, left))
      (accepted : response.accepted = true)
      (noPin : ¬ (flow = .tpmAndPin ∧ response.mode = .pin)) :
      Tries [.prompted mode] (.yielded response.entered) left
  | exchanged {response : PromptResponse} {left : σ}
      (asks : flow = .tpmAndPin)
      (answered : (keyring.prompt .pin state).value = (.ok response, left))
      (accepted : response.accepted = true)
      (isPin : response.mode = .pin) :
      Tries [.prompted .pin, .unsealed device response.entered]
        (keyring.unsealed device left response.entered)
        (keyring.afterUnsealing device left response.entered)
  | alone (asks : flow = .tpmOnly) :
      Tries [.unsealed device ""] (keyring.unsealed device state "")
        (keyring.afterUnsealing device state "")

/-! ## The steps of a flow -/

theorem unsealOrEmpty_apply (auxiliary : String) :
    let traced := keyring.unsealOrEmpty device auxiliary state
    keyring.unsealed device state auxiliary = .yielded traced.value.1 ∧
      traced.value.2 = keyring.afterUnsealing device state auxiliary ∧
      traced.events = [.unsealed device auxiliary] := by
  simp only [unsealOrEmpty, unsealed, afterUnsealing, Act.bind_apply, Act.emit_apply,
    Act.consult_apply]
  cases (keyring.unsealSecret device auxiliary state).value.1 <;> exact ⟨rfl, rfl, rfl⟩

/-- What is done with an accepted response: a PIN goes to the TPM where the flow asks for one. -/
theorem settle_pin {response : PromptResponse} (accepted : response.accepted = true)
    (isPin : response.mode = .pin) :
    keyring.settle .tpmAndPin device response =
      Acquisition.ofSecret <$> keyring.unsealOrEmpty device response.entered := by
  simp [settle, accepted, isPin]

theorem settle_entered {response : PromptResponse} (accepted : response.accepted = true)
    (noPin : ¬ (flow = .tpmAndPin ∧ response.mode = .pin)) :
    keyring.settle flow device response = pure (.ofSecret response.entered) := by
  cases flow with
  | tpmAndPin =>
      cases isPin : response.mode with
      | pin => exact absurd ⟨rfl, isPin⟩ noPin
      | password => simp [settle, accepted, isPin]
  | password => simp [settle, accepted]
  | tpmOnly => simp [settle, accepted]

theorem settle_refused {response : PromptResponse} (refused : response.accepted = false) :
    keyring.settle flow device response = pure .cancellation := by
  simp [settle, refused]

theorem askAndSettle_failed {mode : PromptMode} {fault : Fault} {left : σ}
    (failed : (keyring.prompt mode state).value = (.error fault, left)) :
    let traced := keyring.askAndSettle flow device mode state
    traced.value = (.error fault, left) ∧ traced.events = [.prompted mode] := by
  simp [askAndSettle, ask, failed]

theorem askAndSettle_answered {mode : PromptMode} {response : PromptResponse} {left : σ}
    (answered : (keyring.prompt mode state).value = (.ok response, left)) :
    let traced := keyring.askAndSettle flow device mode state
    let settled := keyring.settle flow device response left
    traced.value = (.ok settled.value.1, settled.value.2) ∧
      traced.events = .prompted mode :: settled.events := by
  simp [askAndSettle, ask, answered]

/-- A flow that begins with a prompt goes on as the response says. -/
theorem tries_askAndSettle {mode : PromptMode} (asks : flow.promptMode? = some mode) :
    let traced := keyring.askAndSettle flow device mode state
    ∃ attempt, keyring.Tries flow device state traced.events attempt traced.value.2 ∧
      traced.value.1 = attempt.offered := by
  intro traced
  rcases prompted : (keyring.prompt mode state).value with ⟨fault | response, left⟩
  · have ⟨value, events⟩ := keyring.askAndSettle_failed flow device state prompted
    rw [value, events]
    exact ⟨_, .promptFailed asks prompted, rfl⟩
  have ⟨value, events⟩ := keyring.askAndSettle_answered flow device state prompted
  rw [value, events]
  cases accepted : response.accepted with
  | false =>
      rw [settle_refused keyring flow device accepted]
      exact ⟨_, .cancelled asks prompted accepted, rfl⟩
  | true =>
      by_cases pin : flow = .tpmAndPin ∧ response.mode = .pin
      · have ⟨isFlow, isPin⟩ := pin
        subst isFlow
        cases asks
        have ⟨yields, left_eq, calls⟩ := keyring.unsealOrEmpty_apply device left response.entered
        rw [settle_pin keyring device accepted isPin, Act.map_apply, left_eq, calls]
        refine ⟨_, .exchanged rfl prompted accepted isPin, ?_⟩
        rw [yields]
        rfl
      · rw [settle_entered keyring flow device accepted pin]
        exact ⟨_, .entered asks prompted accepted pin, rfl⟩

theorem tries_run :
    let traced := keyring.run flow device state
    ∃ attempt, keyring.Tries flow device state traced.events attempt traced.value.2 ∧
      traced.value.1 = attempt.offered := by
  cases flow with
  | password => exact keyring.tries_askAndSettle _ device state rfl
  | tpmAndPin => exact keyring.tries_askAndSettle _ device state rfl
  | tpmOnly =>
      have ⟨yields, left_eq, calls⟩ := keyring.unsealOrEmpty_apply device state ""
      simp only [run, Act.bind_apply, Act.pure_apply, List.append_nil, left_eq, calls]
      refine ⟨_, .alone rfl, ?_⟩
      rw [yields]
      rfl

/-! ## The rule about empty secrets -/

/-- What is handed out of what a flow hands on, and what is shown with it. -/
theorem conclude_offered {attempt : Attempt} {acquisition : Acquisition}
    (offered : attempt.offered = .ok acquisition) :
    let traced := conclude flow.keyType acquisition state
    Except.ok traced.value.1 = attempt.result ∧ traced.value.2 = state ∧
      traced.events = if attempt = .yielded "" then [flow.notice] else [] := by
  cases attempt with
  | failed fault => cases offered
  | cancelled =>
      cases offered
      exact ⟨rfl, rfl, rfl⟩
  | yielded secret =>
      cases offered
      by_cases empty : secret = ""
      · subst empty
        have shown := flow.notice_eq
        simpa [conclude, Acquisition.isEmptyHanded, Acquisition.ofSecret, Acquisition.wrong,
          Attempt.result] using shown
      · simp [conclude, Acquisition.isEmptyHanded, Acquisition.ofSecret, Attempt.result, empty]

/-! ## Acquiring -/

theorem acquire_of_lookup_error {fault : Fault} {looked : σ}
    (failed : (keyring.keyType device state).value = (.error fault, looked)) :
    let traced := keyring.acquire device state
    traced.value = (.error fault, looked) ∧ traced.events = [] := by
  simp [acquire, failed]

theorem acquire_of_unsupported {code : Code} {looked : σ}
    (found : (keyring.keyType device state).value = (.ok (.unsupported code), looked)) :
    let traced := keyring.acquire device state
    traced.value = (.error (.unsupportedKeyType device code), looked) ∧ traced.events = [] := by
  simp [acquire, found, Flow.of?]

theorem acquire_of_flow {looked : σ}
    (found : (keyring.keyType device state).value = (.ok flow.keyType, looked)) :
    let traced := keyring.acquire device state
    ∃ calls attempt, keyring.Tries flow device looked calls attempt traced.value.2 ∧
      traced.value.1 = attempt.result ∧
      traced.events = calls ++ if attempt = .yielded "" then [flow.notice] else [] := by
  obtain ⟨attempt, tries, offered⟩ := keyring.tries_run flow device looked
  intro traced
  refine ⟨(keyring.run flow device looked).events, attempt, ?_⟩
  simp only [traced, acquire, Act.bind_apply, Act.consult_apply, found, Flow.of?_keyType,
    Act.record_apply, List.nil_append]
  cases ran : (keyring.run flow device looked).value.1 with
  | error fault =>
      rw [ran] at offered
      cases attempt with
      | failed =>
          cases offered
          simpa [Attempt.result] using tries
      | cancelled => cases offered
      | yielded => cases offered
  | ok acquisition =>
      rw [ran] at offered
      obtain ⟨value, kept, shown⟩ :=
        conclude_offered flow (keyring.run flow device looked).value.2 offered.symm
      simp only [Act.map_apply, value, kept, shown]
      exact ⟨tries, trivial, trivial⟩

/-- Only the rule about empty secrets shows notices. -/
theorem Tries.ne_noticed {calls : List Call} {attempt : Attempt} {left : σ}
    (tries : keyring.Tries flow device state calls attempt left) {severity : Severity}
    {title message : String} : .noticed severity title message ∉ calls := by
  cases tries <;> simp

theorem unsealed_mem_iff {calls : List Call} {attempt : Attempt} {asked : Device}
    {auxiliary : String} :
    Call.unsealed asked auxiliary ∈ (calls ++ if attempt = .yielded "" then [flow.notice] else []) ↔
      Call.unsealed asked auxiliary ∈ calls := by
  split <;> simp [Flow.notice]

theorem exists_noticed_iff {calls : List Call} {attempt : Attempt} {left : σ}
    (tries : keyring.Tries flow device state calls attempt left) :
    (∃ severity title message, Call.noticed severity title message ∈
        calls ++ if attempt = .yielded "" then [flow.notice] else []) ↔
      ∃ acquisition, attempt.result = .ok acquisition ∧ acquisition.wrongCredential = true := by
  by_cases empty : attempt = .yielded ""
  · subst empty
    have shown : flow.notice ∈ calls ++ [flow.notice] :=
      List.mem_append_right calls List.mem_cons_self
    exact iff_of_true ⟨_, _, _, shown⟩ ⟨_, rfl, rfl⟩
  · refine iff_of_false ?_ ?_
    · rintro ⟨severity, title, message, member⟩
      rw [if_neg empty, List.append_nil] at member
      exact tries.ne_noticed keyring flow device state member
    · rintro ⟨acquisition, result, wrong⟩
      cases attempt with
      | failed => cases result
      | cancelled =>
          cases result
          cases wrong
      | yielded secret =>
          cases result
          exact empty (congrArg Attempt.yielded (of_decide_eq_true wrong))

/-- Whoever is asked, a secret is acquired by these calls and no others: none where no flow is
found, else those of the flow, and behind them a notice if and only if the attempt yields an empty
secret.  The faults of the lookup and of the prompt come back as they are. -/
theorem calls_and_result_of_acquire (keyring : Keyring σ) (device : Device) (state : σ) :
    let lookup := (keyring.keyType device state).value
    let acquired := keyring.acquire device state
    (∀ fault, lookup.1 = .error fault →
      acquired.value = (.error fault, lookup.2) ∧ acquired.events = []) ∧
    (∀ code, lookup.1 = .ok (.unsupported code) →
      acquired.value = (.error (.unsupportedKeyType device code), lookup.2) ∧
        acquired.events = []) ∧
    (∀ flow : Flow, lookup.1 = .ok flow.keyType →
      ∃ calls attempt, keyring.Tries flow device lookup.2 calls attempt acquired.value.2 ∧
        acquired.value.1 = attempt.result ∧
        acquired.events = calls ++ if attempt = .yielded "" then [flow.notice] else []) ∧
    ((∃ severity title message, .noticed severity title message ∈ acquired.events) ↔
      ∃ acquisition, acquired.value.1 = .ok acquisition ∧ acquisition.wrongCredential = true) := by
  intro lookup acquired
  have failed (fault : Fault) (looked : lookup.1 = .error fault) :=
    keyring.acquire_of_lookup_error device state (Prod.ext looked rfl)
  have unsupported (code : Code) (looked : lookup.1 = .ok (.unsupported code)) :=
    keyring.acquire_of_unsupported device state (Prod.ext looked rfl)
  have supported (flow : Flow) (looked : lookup.1 = .ok flow.keyType) :=
    keyring.acquire_of_flow flow device state (Prod.ext looked rfl)
  refine ⟨failed, unsupported, supported, ?_⟩
  cases looked : lookup.1 with
  | error fault =>
      have ⟨value, events⟩ := failed fault looked
      simp [acquired, value, events]
  | ok keyType =>
      rcases keyType.exists_flow_or_unsupported with ⟨flow, rfl⟩ | ⟨code, rfl⟩
      · have ⟨calls, attempt, tries, value, events⟩ := supported flow looked
        rw [value, events]
        exact keyring.exists_noticed_iff flow device _ tries
      · have ⟨value, events⟩ := unsupported code looked
        simp [acquired, value, events]

end Keyring

end DiskWarden
