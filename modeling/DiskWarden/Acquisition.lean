import DiskWarden.Decision
import DiskWarden.Fault
import DiskWarden.Traced
import DiskWarden.Wire

/-!
Acquiring the passphrase of a device. The protection of its key says whom to ask: the user for
a passphrase, the user for a PIN that the TPM then takes, or the TPM alone. An empty secret is
never handed out; it ends as a cancellation with a notice about the recovery key.
-/

namespace DiskWarden

/-- What the user is asked for, or has entered. -/
inductive PromptMode
  | pin
  | password
deriving DecidableEq, Repr, Inhabited

namespace PromptMode

def text : PromptMode → String
  | pin => "pin"
  | password => "password"

end PromptMode

structure PromptResponse where
  mode : PromptMode
  entered : String
  accepted : Bool
deriving DecidableEq, Repr

inductive Call
  | unsealed (device : Device) (auxiliary : String)
  | prompted (mode : PromptMode)
  | noticed (severity : Severity) (title message : String)
deriving DecidableEq, Repr

/-- The collaborators: who knows the key types, the TPM, and who prompts the user. -/
structure Keyring (σ : Type) where
  keyType : Device → Consult σ (Except Fault KeyType)
  unsealSecret : Device → String → Consult σ (Except Fault String)
  prompt : PromptMode → Consult σ (Except Fault PromptResponse)

inductive Flow
  | password
  | tpmAndPin
  | tpmOnly
deriving DecidableEq, Repr

namespace Flow

/-- The way that a protection asks for; none for one that is not supported. -/
def of? (device : Device) : KeyType → Except Fault Flow
  | .password => .ok password
  | .tpmAndPin => .ok tpmAndPin
  | .tpmOnly => .ok tpmOnly
  | .unsupported code => .error (.unsupportedKeyType device code)

def logName : Flow → String
  | password => "Password"
  | tpmAndPin => "TpmAndPin"
  | tpmOnly => "TpmOnly"

def text : Flow → String
  | password => "password"
  | tpmAndPin => "tpm-and-pin"
  | tpmOnly => "tpm-only"

end Flow

/-- A secret, or a cancellation. It is due to a wrong credential if the attempt was not
cancelled and yielded nothing. -/
structure Acquisition where
  secret : String
  cancelled : Bool
  wrongCredential : Bool
deriving DecidableEq, Repr

namespace Acquisition

/-- What a flow yielded, before the rule about empty secrets. -/
def ofSecret (secret : String) : Acquisition := ⟨secret, false, false⟩

def cancellation : Acquisition := ⟨"", true, false⟩

/-- The end of an attempt that yielded no secret. -/
def wrong : Acquisition := ⟨"", true, true⟩

/-- Whether an attempt ran to its end and yielded nothing. -/
def isEmptyHanded (acquisition : Acquisition) : Bool :=
  acquisition.secret.isEmpty && !acquisition.cancelled

/-- The reply to a request that was answered so. -/
def reply (acquisition : Acquisition) : Reply :=
  ⟨true, acquisition.cancelled, acquisition.secret⟩

end Acquisition

/-- The reply to a request that could not be served. -/
def Reply.unhandled : Reply := ⟨false, false, ""⟩

namespace Keyring

variable {σ : Type}

/-- The secret that the TPM holds for a device. A failure counts as an empty one. -/
def unsealOrEmpty (keyring : Keyring σ) (device : Device) (auxiliary : String) :
    Act Call σ String := do
  Act.emit (.unsealed device auxiliary)
  match ← Act.consult (keyring.unsealSecret device auxiliary) with
  | .ok secret => pure secret
  | .error fault =>
      Act.record .warn ("TPM unseal for " ++ device.path ++ " failed: " ++ fault.message)
      pure ""

def ask (keyring : Keyring σ) (mode : PromptMode) :
    Act Call σ (Except Fault PromptResponse) := do
  Act.emit (.prompted mode)
  Act.consult (keyring.prompt mode)

/-- Turns a response into an outcome. What was entered as a PIN goes to the TPM where the flow
asks for one; a passphrase is the secret itself. -/
def settle (keyring : Keyring σ) (flow : Flow) (device : Device) (response : PromptResponse) :
    Act Call σ Acquisition :=
  if !response.accepted then pure .cancellation
  else
    match flow, response.mode with
    | .tpmAndPin, .pin => Acquisition.ofSecret <$> keyring.unsealOrEmpty device response.entered
    | _, _ => pure (.ofSecret response.entered)

/-- Prompts the user and turns the response into an outcome. -/
def askAndSettle (keyring : Keyring σ) (flow : Flow) (device : Device) (mode : PromptMode) :
    Act Call σ (Except Fault Acquisition) := do
  match ← keyring.ask mode with
  | .error fault => pure (.error fault)
  | .ok response => Except.ok <$> keyring.settle flow device response

def run (keyring : Keyring σ) (flow : Flow) (device : Device) :
    Act Call σ (Except Fault Acquisition) :=
  match flow with
  | .password => keyring.askAndSettle flow device .password
  | .tpmAndPin => keyring.askAndSettle flow device .pin
  | .tpmOnly => do pure (.ok (.ofSecret (← keyring.unsealOrEmpty device "")))

/-- Applies the rule about empty secrets. -/
def conclude (keyType : KeyType) (acquisition : Acquisition) : Act Call σ Acquisition :=
  if acquisition.isEmptyHanded then do
    let notice := recoveryNotice keyType
    Act.emit (.noticed notice.severity notice.title notice.message)
    pure .wrong
  else pure acquisition

def acquire (keyring : Keyring σ) (device : Device) :
    Act Call σ (Except Fault Acquisition) := do
  match ← Act.consult (keyring.keyType device) with
  | .error fault => pure (.error fault)
  | .ok keyType =>
      match Flow.of? device keyType with
      | .error fault => pure (.error fault)
      | .ok flow =>
          Act.record .debug
            ("acquiring passphrase for " ++ device.path ++ " via " ++ flow.logName)
          match ← keyring.run flow device with
          | .error fault => pure (.error fault)
          | .ok acquisition => Except.ok <$> conclude keyType acquisition

/-- Answers a password request. Where the acquisition fails, the request is not handled. -/
def answer (keyring : Keyring σ) (device : Device) : Act Call σ Reply := do
  match ← keyring.acquire device with
  | .ok acquisition => pure acquisition.reply
  | .error fault =>
      Act.record .warn ("device password request for " ++ device.path ++ " not handled: " ++
        fault.message)
      pure .unhandled

end Keyring

end DiskWarden
