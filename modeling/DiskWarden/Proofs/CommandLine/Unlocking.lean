import DiskWarden.CommandLine.Run
import DiskWarden.Proofs.Acquisition.Calls
import DiskWarden.Proofs.Helper.Unsealing
import DiskWarden.Proofs.Terminal.Prompts

/-!
# What an unlocking comes to

An unlocking that takes its answers from the standard input comes to one thing only, which the
configuration, the lines of the input and the ends of the helper settle.  A passphrase is what its
line holds.  A PIN is worth what the helper leaves for it, and that is nothing where the helper
cannot be started, fails or does not end in time.
-/

namespace DiskWarden

open CommandLine

/-- A key type asks for one flow at most. -/
theorem Flow.keyType_injective : Function.Injective Flow.keyType := by
  intro first second same
  cases first <;> cases second <;> first | rfl | cases same

namespace CommandLine.Unlocking

variable {σ : Type} {machine : Machine σ} {request : Unlocking} {config : Config}
  {surroundings left : Surroundings σ} {lines : List Text.Octets} {flow : Flow}
  {mode : PromptMode} {answer : Except Fault PromptResponse} {attempt other : Attempt}
  {helper : String → Helper.Completion}

/-! ## What comes of the lines of an input -/

/-- A prompt finds an answer in front of some lines. -/
def Finds (request : Unlocking) (lines : List Text.Octets) (mode : PromptMode)
    (answer : Except Fault PromptResponse) : Prop :=
  ∃ taken left, lines = taken ++ left ∧ Terminal.Serves request.fallsBack mode taken left answer

/-- What an answer comes to in a flow.  A PIN is worth what the helper makes of it. -/
inductive Settles (flow : Flow) (helper : String → Helper.Completion) :
    Except Fault PromptResponse → Attempt → Prop
  | failed {fault : Fault} : Settles flow helper (.error fault) (.failed fault)
  | refused {response : PromptResponse} (refused : response.accepted = false) :
      Settles flow helper (.ok response) .cancelled
  | entered {response : PromptResponse} (accepted : response.accepted = true)
      (noPin : ¬ (flow = .tpmAndPin ∧ response.mode = .pin)) :
      Settles flow helper (.ok response) (.yielded response.entered)
  | exchanged {response : PromptResponse} {secret : String} (accepted : response.accepted = true)
      (isPin : flow = .tpmAndPin ∧ response.mode = .pin)
      (leaves : Unsealer.Leaves (helper response.entered) secret) :
      Settles flow helper (.ok response) (.yielded secret)

/-- What an unlocking comes to with a configuration, by the lines of the input and by how the
helper ends that gets a PIN. -/
inductive ComesTo (request : Unlocking) (config : Config) (lines : List Text.Octets)
    (helper : String → Helper.Completion) : Attempt → Prop
  | asked {flow : Flow} {mode : PromptMode} {answer : Except Fault PromptResponse}
      {attempt : Attempt} (known : config.keyTypeOf request.device = flow.keyType)
      (asks : flow.promptMode? = some mode) (finds : request.Finds lines mode answer)
      (settles : Settles flow helper answer attempt) : ComesTo request config lines helper attempt
  | alone {secret : String} (known : config.keyTypeOf request.device = .tpmOnly)
      (leaves : Unsealer.Leaves (helper "") secret) :
      ComesTo request config lines helper (.yielded secret)

theorem Finds.answer_eq {input : Text.Octets} (finds : request.Finds lines mode answer)
    (cuts : Text.Cuts input lines) :
    (Terminal.promptForSecret request.fallsBack mode input).1 = answer := by
  obtain ⟨taken, left, rfl, serves⟩ := finds
  exact serves.promptForSecret_eq cuts

theorem Settles.unique (settles : Settles flow helper answer attempt)
    (settles' : Settles flow helper answer other) : attempt = other := by
  cases settles with
  | failed =>
      cases settles'
      rfl
  | refused refused =>
      cases settles' with
      | refused => rfl
      | entered accepted => exact Bool.noConfusion (refused.symm.trans accepted)
      | exchanged accepted => exact Bool.noConfusion (refused.symm.trans accepted)
  | entered accepted noPin =>
      cases settles' with
      | refused refused => exact Bool.noConfusion (refused.symm.trans accepted)
      | entered => rfl
      | exchanged _ isPin => exact absurd isPin noPin
  | exchanged accepted isPin leaves =>
      cases settles' with
      | refused refused => exact Bool.noConfusion (refused.symm.trans accepted)
      | entered _ noPin => exact absurd isPin noPin
      | exchanged _ _ leaves' => rw [leaves.unique leaves']

/-- An unlocking comes to one thing only. -/
theorem ComesTo.unique {input : Text.Octets} (cuts : Text.Cuts input lines)
    (comes : request.ComesTo config lines helper attempt)
    (comes' : request.ComesTo config lines helper other) : attempt = other := by
  cases comes with
  | @asked flow mode answer attempt known asks finds settles =>
      cases comes' with
      | @asked flow' mode' answer' attempt' known' asks' finds' settles' =>
          have sameFlow : flow = flow' := Flow.keyType_injective (known.symm.trans known')
          subst sameFlow
          have sameMode : mode = mode' := Option.some.inj (asks.symm.trans asks')
          subst sameMode
          have sameAnswer : answer = answer' :=
            (finds.answer_eq cuts).symm.trans (finds'.answer_eq cuts)
          subst sameAnswer
          exact settles.unique settles'
      | alone known' =>
          have noPrompt : flow = .tpmOnly := Flow.keyType_injective (known.symm.trans known')
          subst noPrompt
          cases asks
  | alone known leaves =>
      cases comes' with
      | @asked flow' mode' answer' attempt' known' asks' finds' settles' =>
          have noPrompt : flow' = .tpmOnly := Flow.keyType_injective (known'.symm.trans known)
          subst noPrompt
          cases asks'
      | alone _ leaves' => rw [leaves.unique leaves']

/-! ## What a run comes to -/

end CommandLine.Unlocking

end DiskWarden
