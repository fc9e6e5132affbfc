import DiskWarden.Code
import DiskWarden.Device

/-!
What the result code of an operation means. The magnitude of a code says what happened; its
sign counts for one rule only.
-/

namespace DiskWarden

/-- The operations whose results the daemon reports. -/
inductive Operation
  | preEncrypt
  | encrypt
  | decrypt
  | changePassphrase
deriving DecidableEq, Repr, Inhabited

namespace Operation

def text : Operation → String
  | preEncrypt => "pre-encrypt"
  | encrypt => "encrypt"
  | decrypt => "decrypt"
  | changePassphrase => "change-passphrase"

def all : List Operation := [preEncrypt, encrypt, decrypt, changePassphrase]

def ofText? (name : String) : Option Operation :=
  all.find? fun operation => operation.text == name

/-- The job whose end an operation's result reports. -/
def jobKind? : Operation → Option JobKind
  | encrypt => some .encrypt
  | decrypt => some .decrypt
  | preEncrypt | changePassphrase => none

end Operation

/-- The meaning of a result code. -/
inductive Outcome
  | success
  | rebootRequired
  | userCancelled
  | wrongCredential
  | failed (code : Code)
deriving DecidableEq, Repr

namespace Outcome

def text : Outcome → String
  | success => "success"
  | rebootRequired => "reboot-required"
  | userCancelled => "user-cancelled"
  | wrongCredential => "wrong-credential"
  | failed code => "failed(" ++ code.text ++ ")"

end Outcome

/-- A line of the table of codes: what one magnitude means for one operation. -/
structure CodeRule where
  operation : Operation
  magnitude : Nat
  negativeOnly : Bool
  outcome : Outcome
deriving DecidableEq, Repr

namespace CodeRule

def covers (rule : CodeRule) (operation : Operation) (code : Code) : Bool :=
  rule.operation == operation && rule.magnitude == code.magnitude &&
    (!rule.negativeOnly || code.isNegative)

def table : List CodeRule :=
  [⟨.preEncrypt, 0, false, .success⟩,
   ⟨.preEncrypt, 2, false, .userCancelled⟩,
   ⟨.encrypt, 0, false, .success⟩,
   ⟨.decrypt, 0, false, .success⟩,
   ⟨.decrypt, 2, false, .userCancelled⟩,
   ⟨.decrypt, 1, true, .rebootRequired⟩,
   ⟨.decrypt, 3, false, .wrongCredential⟩,
   ⟨.changePassphrase, 0, false, .success⟩,
   ⟨.changePassphrase, 2, false, .userCancelled⟩,
   ⟨.changePassphrase, 4, false, .wrongCredential⟩]

end CodeRule

/-- The meaning of a code: that of the rule which covers it, and a failure without one. -/
def classify (operation : Operation) (code : Code) : Outcome :=
  match CodeRule.table.find? fun rule => rule.covers operation code with
  | some rule => rule.outcome
  | none => .failed code

structure Verdict where
  operation : Operation
  code : Code
  outcome : Outcome
deriving DecidableEq, Repr

def judge (operation : Operation) (code : Code) : Verdict :=
  ⟨operation, code, classify operation code⟩

end DiskWarden
