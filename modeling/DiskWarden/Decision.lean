import DiskWarden.KeyType
import DiskWarden.Outcome

/-!
What the user is told about a verdict, and whether a reboot is offered with it.
-/

namespace DiskWarden

inductive Severity
  | info
  | error
deriving DecidableEq, Repr, Inhabited

namespace Severity

def text : Severity → String
  | info => "info"
  | error => "error"

end Severity

structure Decision where
  title : String
  message : String
  severity : Severity
  offersReboot : Bool
deriving DecidableEq, Repr, Inhabited

namespace Decision

def info (title message : String) : Decision := ⟨title, message, .info, false⟩

def error (title message : String) : Decision := ⟨title, message, .error, false⟩

def reboot (title message : String) : Decision := ⟨title, message, .info, true⟩

/-- How an operation is spelt at the start of a title. -/
def titleWord : Operation → String
  | .preEncrypt => "Preencrypt"
  | .encrypt => "Encrypt"
  | .decrypt => "Decrypt"
  | .changePassphrase => "Change passphrase"

/-- How an operation is spelt inside a message. -/
def verb : Operation → String
  | .preEncrypt => "preencrypt"
  | .encrypt => "encrypt"
  | .decrypt => "decrypt"
  | .changePassphrase => "change passphrase"

def cancelledTitle : Operation → String
  | .preEncrypt | .encrypt => "Encrypt disk"
  | .decrypt => "Decrypt disk"
  | .changePassphrase => "Change passphrase"

def failure (operation : Operation) (label : String) (code : Code) : Decision :=
  error (titleWord operation ++ " failed")
    ("Device " ++ label ++ " " ++ verb operation ++
      " failed, please see log for more information.(" ++ code.text ++ ")")

end Decision

/-- The message about a verdict on the device with a given label. -/
def Verdict.decision (verdict : Verdict) (label : String) : Decision :=
  match verdict.operation, verdict.outcome with
  | .preEncrypt, .success =>
      .reboot "Preencrypt done"
        ("Device " ++ label ++ " has been preencrypt, please reboot to finish encryption.")
  | .encrypt, .success =>
      .info "Encrypt done" ("Device " ++ label ++ " has been encrypted")
  | .decrypt, .success =>
      .info "Decrypt done" ("Device " ++ label ++ " has been decrypted")
  | .changePassphrase, .success =>
      .info "Change passphrase done" (label ++ "'s passphrase has been changed")
  | .decrypt, .rebootRequired =>
      .reboot "Decrypt device" ("Please reboot to decrypt device " ++ label ++ ".")
  | operation, .userCancelled =>
      .info (Decision.cancelledTitle operation) "User cancelled operation"
  | .decrypt, .wrongCredential =>
      .error "Decrypt disk" "Wrong passphrase or PIN"
  | .changePassphrase, .wrongCredential =>
      .error "Change passphrase failed" "Wrong passphrase or PIN"
  | operation, _ => .failure operation label verdict.code

/-- The notice that follows an attempt which yielded no secret. -/
def recoveryNotice (keyType : KeyType) : Decision :=
  let title :=
    match keyType with
    | .tpmAndPin => "Wrong PIN"
    | .password => "Wrong passphrase"
    | .tpmOnly | .unsupported _ => "TPM error"
  .info title "Please use recovery key to unlock device."

end DiskWarden
