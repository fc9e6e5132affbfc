import DiskWarden.Fault
import DiskWarden.Text.Blank
import DiskWarden.Text.Utf8
import DiskWarden.Traced

/-!
Helper programs: what they are started with, how they end, and what their output says.
-/

namespace DiskWarden

/-- A length of time, in milliseconds. -/
structure Duration where
  milliseconds : Nat
deriving DecidableEq, Repr

namespace Duration

def ofSeconds (seconds : Nat) : Duration := ⟨seconds * 1000⟩

/-- The digits after the point of a number of thousandths, without the zeros at their end. -/
def thousandths (n : Nat) : String :=
  let digits := (toString (1000 + n)).toList.drop 1
  String.ofList (Text.dropEndWhile (· == '0') digits)

/-- The text of a duration, in the largest unit that it fills. -/
def text (duration : Duration) : String :=
  let seconds := duration.milliseconds / 1000
  let rest := duration.milliseconds % 1000
  if seconds = 0 then
    if rest = 0 then "0ns" else toString rest ++ "ms"
  else if rest = 0 then toString seconds ++ "s"
  else toString seconds ++ "." ++ thousandths rest ++ "s"

end Duration

namespace Helper

/-- What a helper is started with. Without input it reads from nowhere. -/
structure Task where
  program : String
  arguments : List String
  input : Option Text.Octets
  timeout : Duration
deriving DecidableEq, Repr

/-- How a helper ended. It has no exit code if a signal ended it. -/
inductive Completion
  | notStarted (reason : String)
  | timedOut
  | exited (code : Option Nat) (stdout stderr : Text.Octets)
deriving DecidableEq, Repr

/-- Who runs helpers, with a state of its own. -/
abbrev Runner (σ : Type) := Task → σ → Completion × σ

structure Output where
  stdout : String
  stderr : String
  status : Int
deriving DecidableEq, Repr

/-- What a helper wrote as its errors, or else as its output. -/
def Output.diagnostic (output : Output) : String :=
  if Text.isBlankText output.stderr then Text.trim output.stdout
  else Text.trim output.stderr

/-- What a completion amounts to. The status is -1 where there is no exit code. -/
def Task.outcome (task : Task) : Completion → Except Fault Output
  | .notStarted reason => .error (.helper task.program ("could not start: " ++ reason))
  | .timedOut => .error (.helper task.program ("timed out after " ++ task.timeout.text))
  | .exited code stdout stderr =>
      .ok ⟨Text.decodeLossy stdout, Text.decodeLossy stderr,
        match code with
        | some code => code
        | none => -1⟩

/-- Whether a command line can be handed to the system, where a zero ends a text. -/
def Task.isPassable (task : Task) : Bool :=
  (task.program :: task.arguments).all fun word => !word.toList.contains '\x00'

def run {ε σ : Type} (runner : Runner σ) (task : Task) : Act ε σ (Except Fault Output) := do
  if task.isPassable then pure (task.outcome (← modifyGet (runner task)))
  else pure (task.outcome (.notStarted "nul byte found in provided data"))

end Helper

/-! ## Unsealing by a helper -/

/-- The helper that unseals secrets: it gets the device as its argument and the PIN as its
input, and writes the secret. -/
structure Unsealer where
  program : String
  timeout : Duration
deriving DecidableEq, Repr

namespace Unsealer

/-- Why an unsealing failed, as far as the helper's diagnostic tells. -/
inductive Cause
  | lockout
  | rejectedPin
  | changedPolicy
  | missingObject
  | other
deriving DecidableEq, Repr

namespace Cause

def signs : Cause → List String
  | lockout => ["lockout", "dictionary attack"]
  | rejectedPin => ["authorization", "bad auth", "wrong pin", "auth fail"]
  | changedPolicy => ["pcr", "policy"]
  | missingObject => ["no such file", "not found"]
  | other => [""]

/-- The causes in the order in which they are looked for. -/
def all : List Cause := [lockout, rejectedPin, changedPolicy, missingObject]

def text (device : Device) : Cause → String
  | lockout => "TPM is in dictionary-attack lockout while unsealing " ++ device.path
  | rejectedPin => "TPM rejected the PIN for " ++ device.path
  | changedPolicy => "TPM policy no longer matches for " ++ device.path
  | missingObject => "no sealed object is available for " ++ device.path
  | other => "TPM unseal failed for " ++ device.path

/-- The first cause whose words occur in a diagnostic, whatever the case of its letters. -/
def ofDiagnostic (diagnostic : String) : Cause :=
  let letters := (Text.asciiLower diagnostic).toList
  (all.find? fun cause => cause.signs.any fun sign => Text.occursIn sign.toList letters).getD
    other

end Cause

def failure (device : Device) (diagnostic : String) (status : Int) : String :=
  (Cause.ofDiagnostic diagnostic).text device ++ ": " ++
    (if diagnostic.isEmpty then "no additional output" else diagnostic) ++
    " (exit code " ++ toString status ++ ")"

def secretOf (device : Device) (output : Helper.Output) : Except Fault String :=
  if output.status ≠ 0 then .error (.tpm (failure device output.diagnostic output.status))
  else
    let secret := Text.trimLineEnd output.stdout
    if secret.isEmpty then .error (.tpm ("helper returned no secret for " ++ device.path))
    else .ok secret

def unsealSecret {ε σ : Type} (unsealer : Unsealer) (runner : Helper.Runner σ)
    (device : Device) (auxiliary : String) : Act ε σ (Except Fault String) := do
  Act.record .debug ("unsealing " ++ device.path ++ " via " ++ unsealer.program)
  match ← Helper.run runner
      ⟨unsealer.program, [device.path], some (Text.encode auxiliary), unsealer.timeout⟩ with
  | .error fault => pure (.error fault)
  | .ok output => pure (secretOf device output)

end Unsealer

/-! ## Rebooting by a command -/

/-- The command that reboots the machine, if one is configured. -/
structure RebootCommand where
  program : String
  arguments : List String
deriving DecidableEq, Repr

namespace RebootCommand

/-- The command that some words give: the first one has to name a program. -/
def ofWords? : List String → Option RebootCommand
  | [] => none
  | program :: arguments =>
      if Text.isBlankText program then none else some ⟨program, arguments⟩

/-- How long the command may take. -/
def timeout : Duration := .ofSeconds 30

/-- What the end of the command means for the request. -/
def judge (command : RebootCommand) : Except Fault Helper.Output → Except Fault Unit
  | .error fault => .error (.session fault.message)
  | .ok output =>
      if output.status = 0 then .ok ()
      else
        .error (.session (command.program ++ " exited with code " ++ toString output.status ++
          (if output.diagnostic.isEmpty then "" else ": " ++ output.diagnostic)))

def request {ε σ : Type} (command : Option RebootCommand) (runner : Helper.Runner σ) :
    Act ε σ (Except Fault Unit) :=
  match command with
  | none => pure (.error (.session "no reboot command configured"))
  | some command => do
      Act.record .info ("requesting reboot via " ++ command.program)
      let output ← Helper.run runner ⟨command.program, command.arguments, none, timeout⟩
      pure (command.judge output)

end RebootCommand

end DiskWarden
