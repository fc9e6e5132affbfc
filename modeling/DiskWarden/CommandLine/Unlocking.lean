import DiskWarden.CommandLine.Invocation
import DiskWarden.CommandLine.Report
import DiskWarden.Sha256

/-!
The command that acquires the secret of a device and shows it.
-/

namespace DiskWarden.CommandLine.Unlocking

variable {σ : Type}

/-- The answer to a prompt. Where the standard input is not read there is nobody to ask. -/
def prompt (request : Unlocking) (mode : PromptMode) :
    Consult (Surroundings σ) (Except Fault PromptResponse) :=
  if request.readsInput then
    Surroundings.onInput (modifyGet (Terminal.promptForSecret request.fallsBack mode))
  else pure (.error (.prompt SystemError.noSuchDevice))

def keyring (machine : Machine σ) (config : Config) (request : Unlocking) :
    Keyring (Surroundings σ) where
  keyType device := pure (.ok (config.keyTypeOf device))
  unsealSecret := config.unsealer.unsealSecret machine.helperRunner
  prompt := request.prompt

def shownText : Call → String
  | .noticed _ title message => Terminal.messageText title message ++ "\n"
  | _ => ""

def cancelledCode : Nat := 2

def secretText (request : Unlocking) (secret : String) : String :=
  if request.showsFingerprint then Sha256.fingerprint secret else secret

def reportOf (request : Unlocking) : Except Fault Acquisition → Report
  | .error fault =>
      .failure ("failed to acquire a secret for " ++ request.device.path ++ ": " ++ fault.chain)
  | .ok acquisition =>
      if acquisition.cancelled then
        ⟨cancelledCode, "", "Unlock of " ++ request.device.path ++ " cancelled.\n"⟩
      else .success (request.secretText acquisition.secret ++ "\n")

def run (machine : Machine σ) (request : Unlocking) (config : Config)
    (surroundings : Surroundings σ) : Report × Surroundings σ :=
  let traced := (request.keyring machine config).acquire request.device surroundings
  ((request.reportOf traced.value.1).after (String.join (traced.events.map shownText)),
    traced.value.2)

end DiskWarden.CommandLine.Unlocking
