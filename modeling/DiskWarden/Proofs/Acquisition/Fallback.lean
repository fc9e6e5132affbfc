import DiskWarden.Proofs.Acquisition.Calls
import DiskWarden.Proofs.Terminal.Prompts

/-!
# A passphrase in place of a PIN

Secrets are acquired one after the other, with prompts that take their lines from an input and
let a passphrase stand in for an empty PIN.  The TPM then gets a PIN as it stands on its line, and
never an empty one.  The passphrase on the line behind an empty PIN goes past the TPM and is the
secret itself.
-/

namespace DiskWarden.Keyring

variable {σ τ : Type}

/-! ## Runs -/

/-- Acquires the secrets of some devices one after the other. -/
def acquireAll (keyring : Keyring σ) :
    List Device → Act Call σ (List (Except Fault Acquisition))
  | [] => pure []
  | device :: later => do
      let result ← keyring.acquire device
      let results ← keyring.acquireAll later
      pure (result :: results)

/-- A turn of a run: a device, and the state in which its secret is asked for. -/
structure Turn (σ : Type) where
  device : Device
  before : σ
deriving DecidableEq

/-- The turns of a run, in order. -/
def turns (keyring : Keyring σ) : List Device → σ → List (Turn σ)
  | [], _ => []
  | device :: later, state =>
      ⟨device, state⟩ :: keyring.turns later (keyring.acquire device state).value.2

/-- What happens in a turn. -/
def Turn.acquired (keyring : Keyring σ) (turn : Turn σ) :
    Traced Call (Except Fault Acquisition × σ) :=
  keyring.acquire turn.device turn.before

theorem acquireAll_apply (keyring : Keyring σ) (devices : List Device) (state : σ) :
    let run := keyring.acquireAll devices state
    let turns := keyring.turns devices state
    run.value.1 = turns.map (fun turn => (turn.acquired keyring).value.1) ∧
      run.events = turns.flatMap fun turn => (turn.acquired keyring).events := by
  induction devices generalizing state with
  | nil => exact ⟨rfl, rfl⟩
  | cons device later inductionHypothesis =>
      have ⟨results, events⟩ := inductionHypothesis (keyring.acquire device state).value.2
      simp only [acquireAll, turns, Act.bind_apply, Act.pure_apply, List.map_cons,
        List.flatMap_cons, List.append_nil, results, events]
      exact ⟨rfl, rfl⟩

/-! ## Prompts at a terminal -/

variable (keyTypes : Device → Consult τ (Except Fault KeyType))
  (tpm : Device → String → Consult τ (Except Fault String))

/-- Collaborators of whom the prompts take their lines from an input that no other reads. -/
def atTerminal : Keyring (Text.Octets × τ) where
  keyType device := Act.onPart Prod.snd (fun state left => (state.1, left)) (keyTypes device)
  unsealSecret device auxiliary :=
    Act.onPart Prod.snd (fun state left => (state.1, left)) (tpm device auxiliary)
  prompt mode :=
    Act.onPart Prod.fst (fun state left => (left, state.2))
      (modifyGet (Terminal.promptForSecret true mode))

section Turn

variable {keyTypes tpm} {flow : Flow} {device : Device} {state left : Text.Octets × τ}
  {mode : PromptMode} {answer : Except Fault PromptResponse} {lines : List Text.Octets}
  {calls : List Call} {attempt : Attempt}

theorem prompt_atTerminal :
    ((atTerminal keyTypes tpm).prompt mode state).value =
      ((Terminal.promptForSecret true mode state.1).1,
        ((Terminal.promptForSecret true mode state.1).2, state.2)) := rfl

theorem promptForSecret_of_prompt
    (prompted : ((atTerminal keyTypes tpm).prompt mode state).value = (answer, left)) :
    Terminal.promptForSecret true mode state.1 = (answer, left.1) := by
  rw [prompt_atTerminal, Prod.mk.injEq] at prompted
  exact Prod.ext prompted.1 (congrArg Prod.fst prompted.2)

/-- The lines that a prompt takes, and those that it leaves. -/
theorem exists_reads_of_prompt (cuts : Text.Cuts state.1 lines)
    (prompted : ((atTerminal keyTypes tpm).prompt mode state).value = (answer, left)) :
    ∃ taken later, Terminal.Reads true mode lines (answer, left.1) taken later := by
  have ⟨taken, later, reads⟩ := Terminal.exists_reads true mode cuts
  rw [promptForSecret_of_prompt prompted] at reads
  exact ⟨taken, later, reads⟩

theorem exists_left_of_prompt (cuts : Text.Cuts state.1 lines)
    (prompted : ((atTerminal keyTypes tpm).prompt mode state).value = (answer, left)) :
    ∃ taken later, lines = taken ++ later ∧ Text.Cuts left.1 later := by
  have ⟨taken, later, reads⟩ := exists_reads_of_prompt cuts prompted
  exact ⟨taken, later, reads.lines_eq, reads.cuts⟩

/-- Whatever a flow asks, it takes lines from the front only. -/
theorem Tries.exists_left
    (tries : (atTerminal keyTypes tpm).Tries flow device state calls attempt left)
    (cuts : Text.Cuts state.1 lines) :
    ∃ taken later, lines = taken ++ later ∧ Text.Cuts left.1 later := by
  cases tries with
  | promptFailed asks failed => exact exists_left_of_prompt cuts failed
  | cancelled asks answered refused => exact exists_left_of_prompt cuts answered
  | entered asks answered accepted noPin => exact exists_left_of_prompt cuts answered
  | exchanged asks answered accepted isPin =>
      -- the TPM does not read the input
      have ⟨taken, later, lines_eq, cutsLater⟩ := exists_left_of_prompt cuts answered
      exact ⟨taken, later, lines_eq, cutsLater⟩
  | alone asks => exact ⟨[], lines, rfl, cuts⟩

variable (keyTypes tpm) in
theorem exists_left_of_acquire (device : Device) (cuts : Text.Cuts state.1 lines) :
    ∃ taken later, lines = taken ++ later ∧
      Text.Cuts ((atTerminal keyTypes tpm).acquire device state).value.2.1 later := by
  -- whatever the lookup says, the input is still as it was
  have looked : ((atTerminal keyTypes tpm).keyType device state).value =
      ((keyTypes device state.2).value.1, (state.1, (keyTypes device state.2).value.2)) := rfl
  cases found : (keyTypes device state.2).value.1 with
  | error fault =>
      rw [found] at looked
      rw [(acquire_of_lookup_error _ device state looked).1]
      exact ⟨[], lines, rfl, cuts⟩
  | ok keyType =>
      rw [found] at looked
      rcases keyType.exists_flow_or_unsupported with ⟨flow, rfl⟩ | ⟨code, rfl⟩
      · have ⟨calls, attempt, tries, _⟩ := acquire_of_flow _ flow device state looked
        exact tries.exists_left cuts
      · rw [(acquire_of_unsupported _ device state looked).1]
        exact ⟨[], lines, rfl, cuts⟩

/-! ## PINs and passphrases -/

/-- A PIN that is accepted goes to the TPM.  A passphrase does not, and is the secret itself. -/
theorem Tries.of_accepted {keyring : Keyring σ} {before middle after : σ}
    {response : PromptResponse}
    (tries : keyring.Tries .tpmAndPin device before calls attempt after)
    (answered : (keyring.prompt .pin before).value = (.ok response, middle))
    (accepted : response.accepted = true) :
    (response.mode = .pin → calls = [.prompted .pin, .unsealed device response.entered] ∧
        after = keyring.afterUnsealing device middle response.entered) ∧
      (response.mode = .password →
        calls = [.prompted .pin] ∧ attempt = .yielded response.entered ∧ after = middle) := by
  cases tries with
  | promptFailed asks failed =>
      cases asks
      rw [answered] at failed
      cases failed
  | cancelled asks again refused =>
      cases asks
      rw [answered] at again
      cases again
      rw [accepted] at refused
      cases refused
  | entered asks again _ noPin =>
      cases asks
      rw [answered] at again
      cases again
      exact ⟨fun isPin => absurd ⟨rfl, isPin⟩ noPin, fun _ => ⟨rfl, rfl, rfl⟩⟩
  | exchanged asks again _ isPin =>
      rw [answered] at again
      cases again
      exact ⟨fun _ => ⟨rfl, rfl⟩, fun isPassword => nomatch isPin.symm.trans isPassword⟩
  | alone asks => cases asks

/-- What the TPM is asked for in a turn that asks for a PIN. -/
theorem Tries.unsealed_of_mem
    (tries : (atTerminal keyTypes tpm).Tries .tpmAndPin device state calls attempt left)
    (cuts : Text.Cuts state.1 lines) {asked : Device} {auxiliary : String}
    (member : .unsealed asked auxiliary ∈ calls) :
    asked = device ∧ auxiliary ≠ "" ∧ ∃ line ∈ lines.head?, Text.Holds line auxiliary := by
  cases tries with
  | promptFailed => simp at member
  | cancelled => simp at member
  | entered asks answered accepted noPin => simp at member
  | alone asks => cases asks
  | exchanged asks answered accepted isPin =>
      have ⟨taken, later, reads⟩ := exists_reads_of_prompt cuts answered
      have ⟨notEmpty, line, taken_eq, holds⟩ := reads.serves.holds_pin accepted isPin
      rw [List.mem_cons, List.mem_singleton] at member
      cases member with
      | inl impossible => cases impossible
      | inr same =>
      cases same
      refine ⟨rfl, notEmpty, line, ?_, holds⟩
      rw [reads.lines_eq, taken_eq]
      rfl

/-- What a turn with some lines in front of it makes of a device whose secret needs a PIN. -/
structure SparesTpm (device : Device) (lines : List Text.Octets)
    (acquired : Traced Call (Except Fault Acquisition × Text.Octets × τ)) : Prop where
  /-- The TPM gets what the first line holds, if that is not empty. -/
  unseals : ∀ asked auxiliary, .unsealed asked auxiliary ∈ acquired.events →
    asked = device ∧ auxiliary ≠ "" ∧ ∃ line ∈ lines.head?, Text.Holds line auxiliary
  exchanges : ∀ line later pin, lines = line :: later → Text.Holds line pin → pin ≠ "" →
    .unsealed device pin ∈ acquired.events ∧ Text.Cuts acquired.value.2.1 later
  /-- The passphrase that stands in for an empty PIN is handed out as it is, if it is not empty
  itself, and the TPM gets nothing. -/
  fallsBack : ∀ empty line later passphrase, lines = empty :: line :: later →
    Text.Holds empty "" → Text.Holds line passphrase →
    (∀ asked auxiliary, .unsealed asked auxiliary ∉ acquired.events) ∧
      acquired.value.1 =
        .ok (if passphrase = "" then ⟨"", true, true⟩ else ⟨passphrase, false, false⟩) ∧
      Text.Cuts acquired.value.2.1 later

theorem prompt_of_promptForSecret {later : Text.Octets}
    (prompted : Terminal.promptForSecret true mode state.1 = (answer, later)) :
    ((atTerminal keyTypes tpm).prompt mode state).value = (answer, (later, state.2)) := by
  rw [prompt_atTerminal, prompted]

theorem sparesTpm (cuts : Text.Cuts state.1 lines)
    (found : (keyTypes device state.2).value.1 = .ok .tpmAndPin) :
    SparesTpm device lines ((atTerminal keyTypes tpm).acquire device state) := by
  have lookup : ((atTerminal keyTypes tpm).keyType device state).value =
      (.ok Flow.tpmAndPin.keyType, (state.1, (keyTypes device state.2).value.2)) :=
    Prod.ext found rfl
  have ⟨calls, attempt, tries, value, events⟩ := acquire_of_flow _ .tpmAndPin device state lookup
  constructor
  · intro asked auxiliary member
    rw [events, unsealed_mem_iff] at member
    exact tries.unsealed_of_mem cuts member
  · rintro line later pin rfl holds notEmpty
    have ⟨rest, taken, cutsRest⟩ := cuts.takeLine_cons
    have prompted : Terminal.promptForSecret true .pin state.1 = (.ok ⟨.pin, pin, true⟩, rest) :=
      Terminal.promptForSecret_of_text taken holds fun kept => notEmpty kept.2.2
    have ⟨exchanged, left_eq⟩ := (tries.of_accepted (prompt_of_promptForSecret prompted) rfl).1 rfl
    rw [events, unsealed_mem_iff, exchanged, left_eq]
    exact ⟨List.mem_cons_of_mem _ List.mem_cons_self, cutsRest⟩
  · rintro empty line later passphrase rfl holdsNothing holds
    have ⟨middle, takenEmpty, cutsMiddle⟩ := cuts.takeLine_cons
    have ⟨rest, taken, cutsRest⟩ := cutsMiddle.takeLine_cons
    have prompted : Terminal.promptForSecret true .pin state.1 =
        (.ok ⟨.password, passphrase, true⟩, rest) := by
      rw [Terminal.promptForSecret_of_empty takenEmpty holdsNothing]
      exact Terminal.promptForSecret_of_text taken holds fun kept => nomatch kept.1
    have ⟨asked, yields, left_eq⟩ :=
      (tries.of_accepted (prompt_of_promptForSecret prompted) rfl).2 rfl
    rw [events, value, asked, yields, left_eq]
    refine ⟨fun asked auxiliary member => ?_, ?_, cutsRest⟩
    · rw [unsealed_mem_iff] at member
      simp at member
    · by_cases nothing : passphrase = "" <;> simp [Attempt.result, nothing]

theorem Tries.auxiliary_eq_empty {keyring : Keyring σ} {before after : σ}
    (tries : keyring.Tries flow device before calls attempt after) (noPin : flow ≠ .tpmAndPin)
    {asked : Device} {auxiliary : String} (member : .unsealed asked auxiliary ∈ calls) :
    auxiliary = "" := by
  cases tries with
  | promptFailed => simp at member
  | cancelled => simp at member
  | entered asks answered accepted noPin => simp at member
  | exchanged asks answered accepted isPin => exact absurd asks noPin
  | alone asks =>
      rw [List.mem_singleton] at member
      cases member
      rfl

/-- A device whose secret needs no PIN has the TPM asked without one, if at all. -/
theorem unsealed_of_ne {keyring : Keyring σ} {before : σ}
    (found : (keyring.keyType device before).value.1 ≠ .ok .tpmAndPin) {asked : Device}
    {auxiliary : String} (member : .unsealed asked auxiliary ∈ (keyring.acquire device before).events) :
    auxiliary = "" := by
  cases looked : (keyring.keyType device before).value.1 with
  | error fault =>
      rw [(keyring.acquire_of_lookup_error device before (Prod.ext looked rfl)).2] at member
      cases member
  | ok keyType =>
      rcases keyType.exists_flow_or_unsupported with ⟨flow, rfl⟩ | ⟨code, rfl⟩
      · have ⟨calls, attempt, tries, value, events⟩ :=
          keyring.acquire_of_flow flow device before (Prod.ext looked rfl)
        rw [events, unsealed_mem_iff] at member
        apply tries.auxiliary_eq_empty _ member
        rintro rfl
        exact found looked
      · rw [(keyring.acquire_of_unsupported device before (Prod.ext looked rfl)).2] at member
        cases member

/-- Each turn of a run has the last of the lines in front of it. -/
theorem exists_lines_of_mem_turns {devices : List Device} (cuts : Text.Cuts state.1 lines)
    {turn : Turn (Text.Octets × τ)} (member : turn ∈ (atTerminal keyTypes tpm).turns devices state) :
    ∃ used left, lines = used ++ left ∧ Text.Cuts turn.before.1 left := by
  induction devices generalizing state lines with
  | nil => cases member
  | cons device later inductionHypothesis =>
      rw [turns, List.mem_cons] at member
      cases member with
      | inl first =>
          subst first
          exact ⟨[], lines, rfl, cuts⟩
      | inr behind =>
          have ⟨taken, left, lines_eq, cutsLeft⟩ := exists_left_of_acquire keyTypes tpm device cuts
          have ⟨used, last, left_eq, cutsLast⟩ := inductionHypothesis cutsLeft behind
          refine ⟨taken ++ used, last, ?_, cutsLast⟩
          rw [lines_eq, left_eq, List.append_assoc]

end Turn

/-- Whatever the key types and the TPM are, each turn of a run at a terminal spares the TPM: what
it gets for a PIN is what the next line of the input holds, and never the passphrase that stands
in for an empty one. -/
theorem fallback_spares_tpm (devices : List Device) (input : Text.Octets) (state : τ) :
    let keyring := atTerminal keyTypes tpm
    let run := keyring.acquireAll devices (input, state)
    let turns := keyring.turns devices (input, state)
    run.value.1 = turns.map (fun turn => (turn.acquired keyring).value.1) ∧
    run.events = turns.flatMap (fun turn => (turn.acquired keyring).events) ∧
    ∀ turn ∈ turns, ∃ used lines,
      Text.Cuts input (used ++ lines) ∧ Text.Cuts turn.before.1 lines ∧
      ((keyTypes turn.device turn.before.2).value.1 = .ok .tpmAndPin →
        SparesTpm turn.device lines (turn.acquired keyring)) ∧
      ((keyTypes turn.device turn.before.2).value.1 ≠ .ok .tpmAndPin →
        ∀ asked auxiliary, .unsealed asked auxiliary ∈ (turn.acquired keyring).events →
          auxiliary = "") := by
  intro keyring run turns
  have ⟨results, events⟩ := keyring.acquireAll_apply devices (input, state)
  refine ⟨results, events, fun turn member => ?_⟩
  have ⟨lines, cuts⟩ := Text.exists_cuts input
  have ⟨used, left, lines_eq, cutsLeft⟩ := exists_lines_of_mem_turns cuts member
  rw [lines_eq] at cuts
  exact ⟨used, left, cuts, cutsLeft, sparesTpm cutsLeft,
    fun found asked auxiliary member => unsealed_of_ne found member⟩

/-- Devices that all need a PIN. -/
def pinDevices (_ : Device) : Consult Unit (Except Fault KeyType) := pure (.ok .tpmAndPin)

/-- A TPM that knows one PIN. -/
def strictTpm (_ : Device) (pin : String) : Consult Unit (Except Fault String) :=
  pure (if pin = "1357" then .ok "unsealed" else .error (.tpm "wrong PIN"))

/-- The second turn finds an empty PIN, and the passphrase behind it stays from the TPM. -/
theorem passphrase_behind_pin :
    let sda1 : Device := ⟨"/dev/sda1"⟩
    let keyring := atTerminal pinDevices strictTpm
    let start := (Text.encode "1357\n\nlong passphrase\n", ())
    let second : Turn (Text.Octets × Unit) := ⟨sda1, Text.encode "\nlong passphrase\n", ()⟩
    let run := keyring.acquireAll [sda1, sda1] start
    second ∈ keyring.turns [sda1, sda1] start ∧
      run.events = [.prompted .pin, .unsealed sda1 "1357", .prompted .pin] ∧
      (∀ asked auxiliary, .unsealed asked auxiliary ∉ (second.acquired keyring).events) ∧
      (second.acquired keyring).value.1 = .ok ⟨"long passphrase", false, false⟩ := by
  intro sda1 keyring start second run
  have ⟨_, events, turns⟩ := fallback_spares_tpm pinDevices strictTpm [sda1, sda1] start.1 ()
  have member : second ∈ keyring.turns [sda1, sda1] start := by decide +kernel
  have ⟨used, lines, _, cuts, spares, _⟩ := turns second member
  have known : Text.Cuts second.before.1 [[0x0A], Text.encode "long passphrase\n"] := by
    apply @Text.Cuts.line []
    · decide
    · exact @Text.Cuts.line (Text.encode "long passphrase") [] [] (by decide +kernel) .nothing
  have ⟨spared, handedOut, _⟩ := (spares rfl).fallsBack [0x0A] (Text.encode "long passphrase\n") []
    "long passphrase" (cuts.unique known) (Text.holds_iff.mpr (by decide +kernel))
    (Text.holds_iff.mpr (by decide +kernel))
  refine ⟨member, ?_, spared, handedOut⟩
  have shown : run.events = _ := events
  rw [shown]
  decide +kernel

end DiskWarden.Keyring
