import DiskWarden.Helper
import DiskWarden.Proofs.Text.Trimming
import Mathlib.Data.List.Forall2

/-!
# What comes of a helper that unseals

A helper that ends in time yields what it prints, without the breaks at the end, if its exit code
is zero and that is not empty.  Any other end is a failure of the TPM.  Where the exit code is not
zero, the failure tells what the helper wrote about it, after the first cause whose words occur
there, and the case of letters is of no account to the cause.
-/

namespace DiskWarden

namespace Text

theorem occursIn_iff {part chars : List Char} : occursIn part chars = true ↔ part <:+: chars := by
  induction chars with
  | nil => rw [occursIn, List.isEmpty_iff, List.infix_nil]
  | cons c rest inductionHypothesis =>
      have starts : (dropHead? part (c :: rest)).isSome = true ↔ part <+: c :: rest := by
        rw [Option.isSome_iff_exists]
        exact exists_congr fun later => dropHead?_eq_some_iff.trans eq_comm
      rw [occursIn, Bool.or_eq_true, starts, inductionHypothesis, List.infix_cons_iff]

/-- Two texts that are the same but for the case of their ASCII letters. -/
def Recased (first second : String) : Prop :=
  List.Forall₂ (fun a b : Char => a.toLower = b.toLower) first.toList second.toList

theorem Recased.refl (text : String) : Recased text text :=
  List.forall₂_same.mpr fun _ _ => rfl

theorem Recased.asciiLower_eq {first second : String} (recased : Recased first second) :
    asciiLower first = asciiLower second := by
  unfold Recased at recased
  unfold asciiLower
  generalize first.toList = letters at recased ⊢
  generalize second.toList = letters' at recased ⊢
  induction recased with
  | nil => rfl
  | cons same _ inductionHypothesis =>
      rw [String.ofList_inj] at inductionHypothesis ⊢
      rw [List.map_cons, List.map_cons, same, inductionHypothesis]

end Text

/-! ## Ends of helpers -/

namespace Helper

/-- How a helper ends that is to be started. -/
def Runner.completion {σ : Type} (runner : Runner σ) (task : Task) (state : σ) : Completion :=
  if task.isPassable then (runner task state).1
  else .notStarted "nul byte found in provided data"

theorem run_value {ε σ : Type} (runner : Runner σ) (task : Task) (state : σ) :
    (run (ε := ε) runner task state).value.1 = task.outcome (runner.completion task state) ∧
      (run (ε := ε) runner task state).log = [] := by
  unfold run Runner.completion
  cases task.isPassable <;> exact ⟨rfl, rfl⟩

/-- The status that a failure tells: the exit code, or -1 where a signal ended the helper. -/
def statusOf (code : Option Nat) : Int := code.elim (-1) fun code => code

end Helper

namespace Unsealer

/-! ## Causes -/

namespace Cause

/-- Words for a cause stand in a diagnostic, whatever the case of their letters. -/
def Suits (cause : Cause) (diagnostic : String) : Prop :=
  ∃ sign ∈ cause.signs, ∃ within : List Char,
    within <:+: diagnostic.toList ∧ sign.toList = within.map Char.toLower

/-- The place of a cause in the order in which they are looked for. -/
def rank : Cause → Nat
  | lockout => 0
  | rejectedPin => 1
  | changedPolicy => 2
  | missingObject => 3
  | other => 4

/-- A cause suits a diagnostic, and none that comes before it does. -/
structure IsFirst (cause : Cause) (diagnostic : String) : Prop where
  suits : cause.Suits diagnostic
  first : ∀ earlier : Cause, earlier.rank < cause.rank → ¬ earlier.Suits diagnostic

theorem suits_iff (cause : Cause) (diagnostic : String) :
    cause.Suits diagnostic ↔
      (cause.signs.any fun sign =>
        Text.occursIn sign.toList (Text.asciiLower diagnostic).toList) = true := by
  have letters : (Text.asciiLower diagnostic).toList = diagnostic.toList.map Char.toLower :=
    String.toList_ofList
  rw [List.any_eq_true, letters]
  refine exists_congr fun sign => and_congr_right fun _ => ?_
  rw [Text.occursIn_iff, List.infix_map_iff]

theorem suits_other (diagnostic : String) : other.Suits diagnostic :=
  ⟨"", List.mem_singleton_self "", [], List.nil_infix, rfl⟩

theorem mem_all_of_rank {cause : Cause} (known : cause.rank < other.rank) : cause ∈ all := by
  cases cause with
  | other => exact absurd known (Nat.lt_irrefl _)
  | _ => decide

theorem pairwise_rank : all.Pairwise fun first second => first.rank < second.rank := by
  decide

theorem isFirst_ofDiagnostic (diagnostic : String) :
    (ofDiagnostic diagnostic).IsFirst diagnostic := by
  have considered : ofDiagnostic diagnostic = (all.find? fun cause => cause.signs.any fun sign =>
      Text.occursIn sign.toList (Text.asciiLower diagnostic).toList).getD other := rfl
  rw [considered]
  cases found : all.find? fun cause => cause.signs.any fun sign =>
      Text.occursIn sign.toList (Text.asciiLower diagnostic).toList with
  | none =>
      refine ⟨suits_other diagnostic, fun earlier before suits => ?_⟩
      exact List.find?_eq_none.mp found earlier (mem_all_of_rank before)
        ((suits_iff earlier diagnostic).mp suits)
  | some cause =>
      obtain ⟨passes, front, behind, split, failed⟩ := List.find?_eq_some_iff_append.mp found
      refine ⟨(suits_iff cause diagnostic).mpr passes, fun earlier before suits => ?_⟩
      have ordered := pairwise_rank
      have last : cause.rank ≤ other.rank := by cases cause <;> decide
      have member := mem_all_of_rank (Nat.lt_of_lt_of_le before last)
      rw [split] at ordered member
      -- the earlier cause stands in front, where all have failed
      rcases List.mem_append.mp member with inFront | notInFront
      · have unsuited := failed earlier inFront
        rw [(suits_iff earlier diagnostic).mp suits] at unsuited
        cases unsuited
      · rcases List.mem_cons.mp notInFront with rfl | isBehind
        · exact Nat.lt_irrefl _ before
        · have later := List.rel_of_pairwise_cons (List.pairwise_append.mp ordered).2.1 isBehind
          exact Nat.lt_asymm before later

theorem ofDiagnostic_of_recased {first second : String} (recased : Text.Recased first second) :
    ofDiagnostic second = ofDiagnostic first := by
  unfold ofDiagnostic
  rw [recased.asciiLower_eq]

end Cause

/-! ## Diagnostics -/

/-- What a helper said about a failure, and how that is told: its errors if it wrote any, or else
its output. -/
inductive Diagnosis (output errors : String) : String → String → Prop
  | ofErrors {diagnostic : String} (trims : Text.Trims errors diagnostic)
      (said : diagnostic ≠ "") : Diagnosis output errors diagnostic diagnostic
  | ofOutput {diagnostic : String} (noErrors : Text.Trims errors "")
      (trims : Text.Trims output diagnostic) (said : diagnostic ≠ "") :
      Diagnosis output errors diagnostic diagnostic
  | silent (noErrors : Text.Trims errors "") (noOutput : Text.Trims output "") :
      Diagnosis output errors "" "no additional output"

theorem diagnosis_diagnostic (output : Helper.Output) :
    let diagnostic := output.diagnostic
    Diagnosis output.stdout output.stderr diagnostic
      (if diagnostic.isEmpty then "no additional output" else diagnostic) := by
  intro diagnostic
  cases noErrors : Text.isBlankText output.stderr with
  | false =>
      have told : diagnostic = Text.trim output.stderr := by
        simp only [diagnostic, Helper.Output.diagnostic, noErrors, Bool.false_eq_true, if_false]
      have said : diagnostic ≠ "" := told ▸ Text.trim_ne_empty noErrors
      rw [if_neg (by simpa using said)]
      exact .ofErrors (Text.trims_iff.mpr told.symm) said
  | true =>
      have told : diagnostic = Text.trim output.stdout := by
        simp only [diagnostic, Helper.Output.diagnostic, noErrors, if_true]
      have nothing := Text.trims_empty_iff.mpr noErrors
      by_cases said : diagnostic = ""
      · rw [said]
        exact .silent nothing (Text.trims_iff.mpr (told.symm.trans said))
      · rw [if_neg (by simpa using said)]
        exact .ofOutput nothing (Text.trims_iff.mpr told.symm) said

/-! ## Secrets -/

variable {ε σ : Type} (unsealer : Unsealer) (runner : Helper.Runner σ) (device : Device) (state : σ)

/-- What the helper is started with for a device, its input aside. -/
def task : Helper.Task := ⟨unsealer.program, [device.path], none, unsealer.timeout⟩

/-- What the helper is started with for a device and a PIN. -/
def taskWith (auxiliary : String) : Helper.Task :=
  { unsealer.task device with input := some (Text.encode auxiliary) }

/-- What an unsealing yields whose helper ends in a given way. -/
def secret (completion : Helper.Completion) : Except Fault String :=
  match (unsealer.task device).outcome completion with
  | .error fault => .error fault
  | .ok output => secretOf device output

theorem unsealSecret_apply (auxiliary : String) :
    let unsealed : Traced ε _ := unsealer.unsealSecret runner device auxiliary state
    unsealed.value.1 =
        unsealer.secret device (runner.completion (unsealer.taskWith device auxiliary) state) ∧
      unsealed.log = [⟨.debug, "unsealing " ++ device.path ++ " via " ++ unsealer.program⟩] := by
  intro unsealed
  let ended := runner.completion (unsealer.taskWith device auxiliary) state
  have ⟨value_eq, log_eq⟩ := Helper.run_value (ε := ε) runner
    ⟨unsealer.program, [device.path], some (Text.encode auxiliary), unsealer.timeout⟩ state
  -- the outcome of a task does not depend on its input
  change _ = (unsealer.task device).outcome ended at value_eq
  simp only [unsealed, unsealSecret, Act.bind_apply, Act.record_apply]
  rw [value_eq, log_eq, secret]
  cases (unsealer.task device).outcome ended with
  | error fault => exact ⟨rfl, rfl⟩
  | ok output => exact ⟨rfl, rfl⟩

theorem secret_of_zero (stdout stderr : Text.Octets) :
    let printed := Text.trimLineEnd (Text.decodeLossy stdout)
    unsealer.secret device (.exited (some 0) stdout stderr) =
      if printed = "" then .error (.tpm ("helper returned no secret for " ++ device.path))
      else .ok printed := by
  simp [secret, Helper.Task.outcome, secretOf]

theorem secret_of_failure {code : Option Nat} (failed : code ≠ some 0)
    (stdout stderr : Text.Octets) :
    let status := Helper.statusOf code
    unsealer.secret device (.exited code stdout stderr) =
      .error (.tpm (failure device
        (Helper.Output.diagnostic ⟨Text.decodeLossy stdout, Text.decodeLossy stderr, status⟩)
        status)) := by
  cases code with
  | none => simp [secret, Helper.Task.outcome, secretOf, Helper.statusOf]
  | some code =>
      have nonzero : code ≠ 0 := fun zero => failed (congrArg some zero)
      simp [secret, Helper.Task.outcome, secretOf, Helper.statusOf, nonzero]

theorem secret_eq_ok_iff (code : Option Nat) (stdout stderr : Text.Octets) (told : String) :
    unsealer.secret device (.exited code stdout stderr) = .ok told ↔
      code = some 0 ∧ Text.Strips (Text.decodeLossy stdout) told ∧ told ≠ "" := by
  by_cases failed : code = some 0
  · subst failed
    rw [secret_of_zero, and_iff_right rfl, Text.strips_iff]
    split
    · next empty =>
        refine iff_of_false (fun impossible => nomatch impossible) fun printed => printed.2 ?_
        exact printed.1.symm.trans empty
    · next said =>
        rw [Except.ok.injEq]
        exact ⟨fun same => ⟨same, same ▸ said⟩, And.left⟩
  · rw [secret_of_failure unsealer device failed]
    exact iff_of_false (fun impossible => nomatch impossible) fun printed => failed printed.1

/-- Whatever goes wrong with a helper that ends in time, it is the TPM that failed. -/
theorem exists_reason_of_error {code : Option Nat} {stdout stderr : Text.Octets} {fault : Fault}
    (refused : unsealer.secret device (.exited code stdout stderr) = .error fault) :
    ∃ reason, fault = .tpm reason := by
  by_cases failed : code = some 0
  · subst failed
    rw [secret_of_zero] at refused
    split at refused
    · exact ⟨_, (Except.error.inj refused).symm⟩
    · cases refused
  · rw [secret_of_failure unsealer device failed] at refused
    exact ⟨_, (Except.error.inj refused).symm⟩

/-! ## Secrets that may be empty -/

/-- The secret that the end of a helper leaves, where all that goes wrong counts as an empty one. -/
inductive Leaves : Helper.Completion → String → Prop
  | printed {stdout stderr : Text.Octets} {secret : String}
      (strips : Text.Strips (Text.decodeLossy stdout) secret) :
      Leaves (.exited (some 0) stdout stderr) secret
  | failed {code : Option Nat} {stdout stderr : Text.Octets} (nonzero : code ≠ some 0) :
      Leaves (.exited code stdout stderr) ""
  | timedOut : Leaves .timedOut ""
  | notStarted {reason : String} : Leaves (.notStarted reason) ""

theorem Leaves.unique {completion : Helper.Completion} {first second : String}
    (left : Leaves completion first) (left' : Leaves completion second) : first = second := by
  cases left with
  | printed strips =>
      cases left' with
      | printed strips' => exact (Text.strips_iff.mp strips).symm.trans (Text.strips_iff.mp strips')
      | failed nonzero => exact absurd rfl nonzero
  | failed nonzero =>
      cases left' with
      | printed _ => exact absurd rfl nonzero
      | failed _ => rfl
  | timedOut =>
      cases left'
      rfl
  | notStarted =>
      cases left'
      rfl

/-- What an unsealing comes to whose helper ends in time: the secret that is printed, or a failure
that tells what is known about it. -/
theorem secret_or_diagnosis (auxiliary : String) {code : Option Nat} {stdout stderr : Text.Octets}
    (ended : runner.completion (unsealer.taskWith device auxiliary) state =
      .exited code stdout stderr) :
    let unsealed : Traced ε _ := unsealer.unsealSecret runner device auxiliary state
    let result := unsealed.value.1
    let output := Text.decodeLossy stdout
    let errors := Text.decodeLossy stderr
    (∀ secret, result = .ok secret ↔ code = some 0 ∧ Text.Strips output secret ∧ secret ≠ "") ∧
    (∀ secret, result = .ok secret →
      secret ≠ "" ∧ ∀ c ∈ secret.toList.getLast?, c ≠ '\r' ∧ c ≠ '\n') ∧
    (∀ fault, result = .error fault → ∃ reason, fault = .tpm reason) ∧
    (code = some 0 → Text.Strips output "" →
      result = .error (.tpm ("helper returned no secret for " ++ device.path))) ∧
    (code ≠ some 0 → ∃ cause diagnostic detail,
      Diagnosis output errors diagnostic detail ∧ Cause.IsFirst cause diagnostic ∧
      (∀ recased, Text.Recased diagnostic recased → Cause.ofDiagnostic recased = cause) ∧
      result = .error (.tpm (cause.text device ++ ": " ++ detail ++
        " (exit code " ++ toString (Helper.statusOf code) ++ ")"))) := by
  intro unsealed result output errors
  have result_eq : result = unsealer.secret device (.exited code stdout stderr) :=
    ended ▸ (unsealer.unsealSecret_apply (ε := ε) runner device state auxiliary).1
  rw [result_eq]
  have printed := unsealer.secret_eq_ok_iff device code stdout stderr
  refine ⟨printed, fun secret told => ?_, fun fault => unsealer.exists_reason_of_error device,
    fun succeeded empty => ?_, fun failed => ?_⟩
  · have ⟨_, ⟨_, _, _, noBreak⟩, said⟩ := (printed secret).mp told
    exact ⟨said, noBreak⟩
  · rw [succeeded, secret_of_zero, if_pos (Text.strips_iff.mp empty)]
  · rw [secret_of_failure unsealer device failed]
    exact ⟨_, _, _, diagnosis_diagnostic ⟨output, errors, Helper.statusOf code⟩,
      Cause.isFirst_ofDiagnostic _, fun recased same => Cause.ofDiagnostic_of_recased same, rfl⟩

/-- The words of two causes in capitals, from a helper that a signal ends, and a secret with breaks
behind it. -/
theorem lockout_before_rejected_pin :
    let unsealer : Unsealer := ⟨"helper", .ofSeconds 10⟩
    let sda1 : Device := ⟨"/dev/sda1"⟩
    let killed : Helper.Runner Unit := fun _ state =>
      (.exited none (Text.encode "secret\n") (Text.encode " WRONG PIN, TPM in Lockout\n"), state)
    let served : Helper.Runner Unit := fun _ state =>
      (.exited (some 0) (Text.encode "secret \r\n\n") (Text.encode "lockout"), state)
    let result (runner : Helper.Runner Unit) : Except Fault String :=
      (unsealer.unsealSecret (ε := Empty) runner sda1 "1357" ()).value.1
    killed.completion (unsealer.taskWith sda1 "1357") () =
      .exited none (Text.encode "secret\n") (Text.encode " WRONG PIN, TPM in Lockout\n") ∧
    result killed = .error (.tpm ("TPM is in dictionary-attack lockout while unsealing " ++
      "/dev/sda1: WRONG PIN, TPM in Lockout (exit code -1)")) ∧
    result served = .ok "secret " := by
  intro unsealer sda1 killed served result
  have ended : killed.completion (unsealer.taskWith sda1 "1357") () = .exited none
      (Text.encode "secret\n") (Text.encode " WRONG PIN, TPM in Lockout\n") := by
    decide +kernel
  have ended' : served.completion (unsealer.taskWith sda1 "1357") () = .exited (some 0)
      (Text.encode "secret \r\n\n") (Text.encode "lockout") := by
    decide +kernel
  refine ⟨ended, ?_, ?_⟩
  · have ⟨_, _, _, _, diagnosed⟩ :=
      secret_or_diagnosis (ε := Empty) unsealer killed sda1 () "1357" ended
    have ⟨cause, diagnostic, detail, told, _, recased, failed⟩ := diagnosed (by decide)
    have trimmed : Text.trim (Text.decodeLossy (Text.encode " WRONG PIN, TPM in Lockout\n")) =
        "WRONG PIN, TPM in Lockout" := by
      decide +kernel
    cases told with
    | ofErrors trims said =>
        rw [← Text.trims_iff.mp trims, trimmed] at failed recased
        have locked : Cause.lockout = cause := recased _ (.refl _)
        rw [← locked] at failed
        exact failed
    | ofOutput noErrors =>
        exact absurd (trimmed.symm.trans (Text.trims_iff.mp noErrors)) (by decide)
    | silent noErrors =>
        exact absurd (trimmed.symm.trans (Text.trims_iff.mp noErrors)) (by decide)
  · have ⟨served, _⟩ :=
      secret_or_diagnosis (ε := Empty) unsealer served sda1 () "1357" ended'
    refine (served "secret ").mpr ⟨rfl, Text.strips_iff.mpr ?_, by decide⟩
    decide +kernel

end Unsealer

end DiskWarden
