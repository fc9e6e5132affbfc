import DiskWarden.Proofs.Acquisition.EmptySecret
import DiskWarden.Proofs.Helper.Unsealing
import Mathlib.Data.List.Infix

/-!
# What the log tells of secrets

Two runs of a password request are compared that differ in the PIN that is typed and in what the
helper prints where the secret is expected.  Neither is logged as long as the helper succeeds or
says what went wrong.  A helper that fails without a word about its errors has its output taken
for the diagnostic, and that is logged as it is.
-/

namespace DiskWarden

/-! ## The runs that are compared -/

/-- A response in which another PIN was typed, if it has one. -/
def PromptResponse.typing (pin : String) (response : PromptResponse) : PromptResponse :=
  if response.mode = .pin then { response with entered := pin } else response

namespace Helper

/-- A completion with other output. -/
def Completion.printing (stdout : Text.Octets) : Completion → Completion
  | exited code _ stderr => exited code stdout stderr
  | completion => completion

/-- Runs helpers that do the same whatever their input is, but for what they print. -/
def Runner.printing {σ : Type} (runner : Runner σ) (stdout : Text.Octets) : Runner σ :=
  fun task state =>
    let (completion, left) := runner { task with input := none } state
    (completion.printing stdout, left)

theorem completion_printing {σ : Type} (runner : Runner σ) (stdout : Text.Octets) (task : Task)
    (state : σ) :
    (runner.printing stdout).completion task state =
      (runner.completion { task with input := none } state).printing stdout := by
  have passable_eq : Task.isPassable { task with input := none } = task.isPassable := rfl
  unfold Runner.completion Runner.printing
  rw [passable_eq]
  cases task.isPassable <;> rfl

end Helper

namespace Unsealer

variable {σ : Type} (unsealer : Unsealer) (runner : Helper.Runner σ) (device : Device) (state : σ)

/-- What is logged of an unsealing that may have failed. -/
def warnings : Except Fault String → List LogEntry
  | .ok _ => []
  | .error fault => [⟨.warn, "TPM unseal for " ++ device.path ++ " failed: " ++ fault.message⟩]

theorem unsealSecret_printing (stdout : Text.Octets) (auxiliary : String) :
    let unsealed : Traced Empty _ :=
      unsealer.unsealSecret (runner.printing stdout) device auxiliary state
    unsealed.value.1 =
        unsealer.secret device
          ((runner.completion (unsealer.task device) state).printing stdout) ∧
      unsealed.log = [⟨.debug, "unsealing " ++ device.path ++ " via " ++ unsealer.program⟩] := by
  intro unsealed
  have ⟨value_eq, log_eq⟩ :=
    unsealer.unsealSecret_apply (ε := Empty) (runner.printing stdout) device state auxiliary
  rw [Helper.completion_printing] at value_eq
  exact ⟨value_eq, log_eq⟩

end Unsealer

/-! ## What a failure says -/

namespace Unsealer

namespace Cause

/-- What the text of a cause says before the device. -/
def opening : Cause → String
  | lockout => "TPM is in dictionary-attack lockout while unsealing "
  | rejectedPin => "TPM rejected the PIN for "
  | changedPolicy => "TPM policy no longer matches for "
  | missingObject => "no sealed object is available for "
  | other => "TPM unseal failed for "

theorem text_eq (device : Device) (cause : Cause) :
    cause.text device = cause.opening ++ device.path := by
  cases cause <;> rfl

theorem eq_of_opening_prefix (first second : Cause)
    (start : first.opening.toList <+: second.opening.toList) : first = second := by
  revert start
  cases first <;> cases second <;> decide

end Cause

theorem toList_failure (device : Device) {diagnostic : String} (said : diagnostic ≠ "")
    (status : Int) :
    (failure device diagnostic status).toList =
      (Cause.ofDiagnostic diagnostic).opening.toList ++
        (device.path.toList ++ (": ".toList ++ (diagnostic.toList ++
          (" (exit code " ++ toString status ++ ")").toList))) := by
  have kept : diagnostic.isEmpty = false := by simpa using said
  simp only [failure, Cause.text_eq, kept, String.toList_append, List.append_assoc,
    Bool.false_eq_true, if_false]

/-- A message about a failure tells the whole diagnostic. -/
theorem failure_inj {device : Device} {first second : String} {status : Int} (said : first ≠ "")
    (said' : second ≠ "") (same : failure device first status = failure device second status) :
    first = second := by
  have letters := congrArg String.toList same
  rw [toList_failure device said, toList_failure device said'] at letters
  have cause_eq : Cause.ofDiagnostic first = Cause.ofDiagnostic second := by
    have start := letters ▸ List.prefix_append (Cause.ofDiagnostic first).opening.toList _
    rcases List.prefix_or_prefix_of_prefix start (List.prefix_append _ _) with before | after
    · exact Cause.eq_of_opening_prefix _ _ before
    · exact (Cause.eq_of_opening_prefix _ _ after).symm
  rw [cause_eq] at letters
  simpa [String.toList_inj] using letters

end Unsealer

/-- A helper failed and wrote nothing about it. -/
def Helper.Completion.FailsSilently : Helper.Completion → Prop
  | .exited code _ stderr => code ≠ some 0 ∧ Text.isBlankText (Text.decodeLossy stderr) = true
  | _ => False

namespace Keyring

variable {σ : Type} (keyring : Keyring σ) (unsealer : Unsealer) (runner : Helper.Runner σ)
  (device : Device) (state : σ)

/-- The keyring of a run in which a PIN is typed and the helper prints something. -/
def withSecrets (pin : String) (stdout : Text.Octets) : Keyring σ where
  keyType := keyring.keyType
  prompt mode := Except.map (·.typing pin) <$> keyring.prompt mode
  unsealSecret := unsealer.unsealSecret (runner.printing stdout)

/-- The way to ask that the lookup leads to. -/
def flow? : Except Fault Flow := (keyring.keyType device state).value.1.bind (Flow.of? device)

/-- How the helper ends in a flow, what it prints aside; none if the flow does without it. -/
def flowEnd? (flow : Flow) : Option Helper.Completion :=
  match flow with
  | .password => none
  | .tpmAndPin =>
      let asked := (keyring.prompt .pin state).value
      match asked.1 with
      | .ok ⟨.pin, _, true⟩ => some (runner.completion (unsealer.task device) asked.2)
      | _ => none
  | .tpmOnly => some (runner.completion (unsealer.task device) state)

/-- How the helper ends for a request, what it prints aside. -/
def helperEnd? : Option Helper.Completion :=
  match keyring.flow? device state with
  | .error _ => none
  | .ok flow =>
      keyring.flowEnd? unsealer runner device (keyring.keyType device state).value.2 flow

/-- What is logged before the helper is started. -/
def startEntry : LogEntry := ⟨.debug, "unsealing " ++ device.path ++ " via " ++ unsealer.program⟩

variable (pin : String) (stdout : Text.Octets)

theorem log_unsealOrEmpty (auxiliary : String) :
    ((keyring.withSecrets unsealer runner pin stdout).unsealOrEmpty device auxiliary state).log =
      startEntry unsealer device :: Unsealer.warnings device (unsealer.secret device
        ((runner.completion (unsealer.task device) state).printing stdout)) := by
  obtain ⟨value_eq, log_eq⟩ := unsealer.unsealSecret_printing runner device state stdout auxiliary
  simp only [unsealOrEmpty, withSecrets, Act.bind_apply, Act.emit_apply, Act.consult_apply,
    value_eq, log_eq]
  cases unsealer.secret device _ with
  | ok secret => rfl
  | error fault => rfl

theorem log_conclude (keyType : KeyType) (acquisition : Acquisition) :
    (conclude keyType acquisition state).log = [] := by
  unfold conclude
  split <;> rfl

/-- What is logged of an attempt that could not be made. -/
def refusals {α : Type} : Except Fault α → List LogEntry
  | .ok _ => []
  | .error fault =>
      [⟨.warn, "device password request for " ++ device.path ++ " not handled: " ++
        fault.message⟩]

theorem log_answer :
    (keyring.answer device state).log =
      (keyring.acquire device state).log ++
        refusals device (keyring.acquire device state).value.1 := by
  simp only [answer, Act.bind_apply]
  cases (keyring.acquire device state).value.1 <;> rfl

/-- What is logged of a prompt and its failure. -/
def promptLog (mode : PromptMode) : List LogEntry :=
  (keyring.prompt mode state).log ++ refusals device (keyring.prompt mode state).value.1

/-- What is logged of a request up to the start of the helper. -/
def openLog : List LogEntry :=
  let looked := keyring.keyType device state
  looked.log ++
    match keyring.flow? device state with
    | .error fault => refusals (α := Unit) device (.error fault)
    | .ok flow =>
        ⟨.debug, "acquiring passphrase for " ++ device.path ++ " via " ++ flow.logName⟩ ::
          flow.promptMode?.elim [] (keyring.promptLog device looked.value.2)

/-- What is logged of a helper's end. -/
def helperLog (ended : Helper.Completion) : List LogEntry :=
  startEntry unsealer device :: Unsealer.warnings device (unsealer.secret device ended)

/-- The log of a request whose lookup yields nothing to ask for. -/
theorem log_answer_of_error {fault : Fault} (refused : keyring.flow? device state = .error fault) :
    (keyring.answer device state).log =
      (keyring.keyType device state).log ++ refusals (α := Unit) device (.error fault) := by
  rw [log_answer, acquire_value]
  unfold flow? at refused
  simp only [acquire, Act.bind_apply, Act.consult_apply]
  cases looked : (keyring.keyType device state).value.1 with
  | error fault =>
      rw [looked] at refused
      cases refused
      simp [refusals]
  | ok keyType =>
      rw [looked] at refused
      have chosen : Flow.of? device keyType = .error fault := refused
      simp [chosen, refusals]

theorem log_answer_of_ok {flow : Flow} (chosen : keyring.flow? device state = .ok flow) :
    let ran := keyring.run flow device (keyring.keyType device state).value.2
    (keyring.answer device state).log =
      (keyring.keyType device state).log ++
        ⟨.debug, "acquiring passphrase for " ++ device.path ++ " via " ++ flow.logName⟩ ::
          (ran.log ++ refusals device ran.value.1) := by
  rw [log_answer, acquire_value]
  unfold flow? at chosen
  simp only [acquire, Act.bind_apply, Act.consult_apply]
  cases looked : (keyring.keyType device state).value.1 with
  | error fault =>
      rw [looked] at chosen
      cases chosen
  | ok keyType =>
      rw [looked] at chosen
      have chosen : Flow.of? device keyType = .ok flow := chosen
      simp only [chosen, Act.bind_apply, Act.record_apply]
      cases ran : (keyring.run flow device (keyring.keyType device state).value.2).value.1 with
      | error fault => simp [refusals]
      | ok acquisition => simp [refusals, log_conclude]

theorem log_askAndSettle (flow : Flow) (mode : PromptMode) :
    let asked := (keyring.prompt mode state).value
    let ran := keyring.askAndSettle flow device mode state
    ran.log ++ refusals device ran.value.1 =
      keyring.promptLog device state mode ++
        match asked.1 with
        | .error _ => []
        | .ok response => (keyring.settle flow device response asked.2).log := by
  simp only [askAndSettle, ask, promptLog, Act.bind_apply, Act.emit_apply, Act.consult_apply]
  cases (keyring.prompt mode state).value.1 with
  | error fault => simp [refusals]
  | ok response => simp [refusals]

theorem log_askAndSettle_withSecrets (flow : Flow) (mode : PromptMode) :
    let asked := (keyring.prompt mode state).value
    let blessed := keyring.withSecrets unsealer runner pin stdout
    let ran := blessed.askAndSettle flow device mode state
    ran.log ++ refusals device ran.value.1 =
      keyring.promptLog device state mode ++
        match asked.1 with
        | .error _ => []
        | .ok response => (blessed.settle flow device (response.typing pin) asked.2).log := by
  intro asked blessed ran
  have prompted : blessed.prompt mode state =
      ⟨(asked.1.map (·.typing pin), asked.2), (keyring.prompt mode state).events,
        (keyring.prompt mode state).log⟩ := Act.map_apply ..
  simp only [ran, log_askAndSettle, promptLog, prompted, asked]
  cases (keyring.prompt mode state).value.1 <;> rfl

theorem log_settle_password (response : PromptResponse) :
    (keyring.settle .password device response state).log = [] := by
  unfold settle
  split
  · rfl
  · cases response.mode <;> rfl

/-- Only a PIN that is accepted goes to the helper. -/
theorem log_settle_tpmAndPin (response : PromptResponse) :
    ((keyring.withSecrets unsealer runner pin stdout).settle .tpmAndPin device
        (response.typing pin) state).log =
      match response with
      | ⟨.pin, _, true⟩ =>
          helperLog unsealer device
            ((runner.completion (unsealer.task device) state).printing stdout)
      | _ => [] := by
  obtain ⟨mode, entered, accepted⟩ := response
  cases accepted with
  | false => cases mode <;> rfl
  | true =>
      cases mode with
      | pin => simp [settle, PromptResponse.typing, log_unsealOrEmpty, helperLog]
      | password => rfl

theorem log_run_withSecrets (flow : Flow) :
    let ran := (keyring.withSecrets unsealer runner pin stdout).run flow device state
    ran.log ++ refusals device ran.value.1 =
      flow.promptMode?.elim [] (keyring.promptLog device state) ++
        (keyring.flowEnd? unsealer runner device state flow).elim [] fun ended =>
          helperLog unsealer device (ended.printing stdout) := by
  cases flow with
  | password =>
      simp only [run, log_askAndSettle_withSecrets, Flow.promptMode?, Option.elim_some, flowEnd?,
        Option.elim_none, log_settle_password]
      cases (keyring.prompt .password state).value.1 <;> rfl
  | tpmAndPin =>
      simp only [run, log_askAndSettle_withSecrets, Flow.promptMode?, Option.elim_some, flowEnd?,
        log_settle_tpmAndPin]
      rcases (keyring.prompt .pin state).value.1 with fault | ⟨mode, entered, accepted⟩
      · rfl
      · cases mode <;> cases accepted <;> rfl
  | tpmOnly =>
      simp only [run, Act.bind_apply, Act.pure_apply, log_unsealOrEmpty, refusals, List.append_nil]
      rfl

/-- What is logged of a request is the same for all secrets, up to the end of the helper. -/
theorem log_answer_withSecrets :
    ((keyring.withSecrets unsealer runner pin stdout).answer device state).log =
      keyring.openLog device state ++
        (keyring.helperEnd? unsealer runner device state).elim [] fun ended =>
          helperLog unsealer device (ended.printing stdout) := by
  have same : (keyring.withSecrets unsealer runner pin stdout).flow? device state =
      keyring.flow? device state := rfl
  unfold openLog helperEnd?
  cases chosen : keyring.flow? device state with
  | error fault =>
      rw [log_answer_of_error _ device state (same.trans chosen)]
      exact (List.append_nil _).symm
  | ok flow =>
      rw [log_answer_of_ok _ device state (same.trans chosen), log_run_withSecrets]
      simp only [List.append_assoc, List.cons_append]
      rfl

theorem secret_of_success {stdout : Text.Octets}
    (printed : Text.isBlankText (Text.decodeLossy stdout) = false) (stderr : Text.Octets) :
    unsealer.secret device (.exited (some 0) stdout stderr) =
      .ok (Text.trimLineEnd (Text.decodeLossy stdout)) := by
  rw [Unsealer.secret_of_zero]
  exact if_neg (Text.trimLineEnd_ne_empty printed)

/-- Of two helpers that end alike but for what they print, the same is logged unless they fail
silently. -/
theorem helperLog_printing_eq_iff (ended : Helper.Completion) {stdout stdout' : Text.Octets}
    (printed : Text.isBlankText (Text.decodeLossy stdout) = false)
    (printed' : Text.isBlankText (Text.decodeLossy stdout') = false) :
    helperLog unsealer device (ended.printing stdout) =
        helperLog unsealer device (ended.printing stdout') ↔
      (ended.FailsSilently →
        Text.trim (Text.decodeLossy stdout) = Text.trim (Text.decodeLossy stdout')) := by
  cases ended with
  | notStarted reason => exact iff_of_true rfl fun impossible => impossible.elim
  | timedOut => exact iff_of_true rfl fun impossible => impossible.elim
  | exited code output stderr =>
      simp only [helperLog, List.cons.injEq, true_and, Helper.Completion.printing,
        Helper.Completion.FailsSilently]
      by_cases failed : code = some 0
      · subst failed
        rw [secret_of_success unsealer device printed, secret_of_success unsealer device printed']
        exact iff_of_true rfl fun silent => absurd rfl silent.1
      · rw [Unsealer.secret_of_failure unsealer device failed,
          Unsealer.secret_of_failure unsealer device failed]
        simp only [Helper.Output.diagnostic]
        cases silent : Text.isBlankText (Text.decodeLossy stderr) with
        | false => exact iff_of_true rfl fun impossible => Bool.noConfusion impossible.2
        | true =>
            simp only [if_true]
            constructor
            · intro logged _
              have told := (LogEntry.mk.inj (List.cons.inj logged).1).2
              have reasons := String.append_right_inj _ |>.mp told
              have failures := String.append_right_inj _ |>.mp reasons
              exact Unsealer.failure_inj (Text.trim_ne_empty printed) (Text.trim_ne_empty printed')
                failures
            · intro same
              rw [same ⟨failed, trivial⟩]

/-- Whoever is asked, two requests that differ in the PIN and in the output of the helper log the
same, unless a helper that fails silently is needed; then the log tells the output, and the two
logs are the same only if the outputs are. -/
theorem log_blind_to_secrets_iff (keyring : Keyring σ) (unsealer : Unsealer)
    (runner : Helper.Runner σ) (device : Device) (state : σ) (pin pin' : String)
    (stdout stdout' : Text.Octets)
    (printed : Text.isBlankText (Text.decodeLossy stdout) = false)
    (printed' : Text.isBlankText (Text.decodeLossy stdout') = false) :
    ((keyring.withSecrets unsealer runner pin stdout).answer device state).log =
        ((keyring.withSecrets unsealer runner pin' stdout').answer device state).log ↔
      ∀ ended ∈ keyring.helperEnd? unsealer runner device state, ended.FailsSilently →
        Text.trim (Text.decodeLossy stdout) = Text.trim (Text.decodeLossy stdout') := by
  rw [log_answer_withSecrets, log_answer_withSecrets, List.append_cancel_left_eq]
  cases keyring.helperEnd? unsealer runner device state with
  | none => exact iff_of_true rfl fun ended member => absurd member (Option.not_mem_none ended)
  | some ended =>
      rw [Option.elim_some, Option.elim_some,
        helperLog_printing_eq_iff unsealer device ended printed printed']
      simp only [Option.mem_some_iff, forall_eq']

/-- A TPM device whose helper prints a passphrase and then fails without a word. -/
theorem passphrase_logged :
    let keyring : Keyring Unit :=
      ⟨fun _ => pure (.ok .tpmOnly), fun _ _ => pure (.ok ""), fun _ => pure (.error (.prompt ""))⟩
    let unsealer : Unsealer := ⟨"helper", .ofSeconds 10⟩
    let runner : Helper.Runner Unit := fun _ state => (.exited (some 1) [] [], state)
    let log (stdout : String) :=
      ((keyring.withSecrets unsealer runner "" (Text.encode stdout)).answer ⟨"/dev/sda1"⟩ ()).log
    Text.isBlankText (Text.decodeLossy (Text.encode "hunter2")) = false ∧
      Text.isBlankText (Text.decodeLossy (Text.encode "hunter3")) = false ∧
      log "hunter2" ≠ log "hunter3" ∧
      log "hunter2" =
        [⟨.debug, "acquiring passphrase for /dev/sda1 via TpmOnly"⟩,
          ⟨.debug, "unsealing /dev/sda1 via helper"⟩,
          ⟨.warn, "TPM unseal for /dev/sda1 failed: TPM unseal failed: " ++
            "TPM unseal failed for /dev/sda1: hunter2 (exit code 1)"⟩] := by
  intro keyring unsealer runner log
  have printed : Text.isBlankText (Text.decodeLossy (Text.encode "hunter2")) = false := by
    decide +kernel
  have printed' : Text.isBlankText (Text.decodeLossy (Text.encode "hunter3")) = false := by
    decide +kernel
  refine ⟨printed, printed', fun same => ?_, by decide +kernel⟩
  have blind := (log_blind_to_secrets_iff keyring unsealer runner ⟨"/dev/sda1"⟩ () "" "" _ _
    printed printed').mp same
  have needed : keyring.helperEnd? unsealer runner ⟨"/dev/sda1"⟩ () =
      some (.exited (some 1) [] []) := by
    decide +kernel
  have silent : Helper.Completion.FailsSilently (.exited (some 1) [] []) :=
    ⟨by decide, by decide +kernel⟩
  exact absurd (blind _ needed silent) (by decide +kernel)

end Keyring

end DiskWarden
