import DiskWarden.Acquisition
import DiskWarden.Decimal.Binary
import DiskWarden.Dispatch
import DiskWarden.Text.Lines

/-!
The terminal in place of a desktop: prompts and questions that take their answers from the
lines of an input, and progress that only goes to the log.
-/

namespace DiskWarden.Terminal

/-! ## Prompts -/

inductive LineRead
  | line (text : String)
  | endOfInput
  | broken
deriving DecidableEq, Repr

/-- Reads a line, of which the carriage returns and line feeds at its end are dropped. -/
def readLine (input : Text.Octets) : LineRead × Text.Octets :=
  match Text.takeLine input with
  | none => (.endOfInput, input)
  | some (line, later) =>
      match Text.decode? line with
      | some text => (.line (Text.trimLineEnd text), later)
      | none => (.broken, later)

/-- The response to a prompt that the next line of an input gives. The end of the input
cancels. -/
def respond (mode : PromptMode) (input : Text.Octets) :
    Except Fault PromptResponse × Text.Octets :=
  match readLine input with
  | (.line text, later) => (.ok ⟨mode, text, true⟩, later)
  | (.endOfInput, later) => (.ok ⟨mode, "", false⟩, later)
  | (.broken, later) => (.error (.prompt Text.notUtf8), later)

/-- Prompts for a secret. With the fallback, an empty PIN makes the next line a passphrase. -/
def promptForSecret (fallback : Bool) (mode : PromptMode) (input : Text.Octets) :
    Except Fault PromptResponse × Text.Octets :=
  match mode, respond mode input with
  | .pin, (.ok response, later) =>
      if fallback && response.accepted && response.entered.isEmpty then
        respond .password later
      else (.ok response, later)
  | _, answer => answer

/-! ## Questions -/

/-- Where the answers to questions come from. -/
inductive Answers
  /-- Nobody is asked. -/
  | never
  /-- The lines of a console, where the end of the input is an empty answer. -/
  | console
  /-- The lines of another input, which must not end. -/
  | reader
deriving DecidableEq, Repr

/-- The answers that count as a yes. -/
def yesWords : List String := ["y", "Y", "yes", "YES"]

def isYes (answer : String) : Bool := yesWords.contains (Text.trim answer)

/-- The answer to a question about a reboot. -/
def confirm {ε : Type} (answers : Answers) : Act ε Text.Octets Bool := do
  match answers with
  | .never =>
      Act.record .info "not interactive; reboot postponed"
      pure false
  | _ =>
      let (read, later) := readLine (← get)
      set later
      match read with
      | .line text => pure (isYes text)
      | .endOfInput =>
          if answers = .reader then
            Act.record .warn "failed to read reboot confirmation: unexpected end of file"
          pure false
      | .broken =>
          Act.record .warn ("failed to read reboot confirmation: " ++ Text.notUtf8)
          pure false

def messageText (title message : String) : String := "[" ++ title ++ "] " ++ message

/-- A question about a reboot as it is shown on the terminal. -/
def questionText (answers : Answers) (title message : String) : String :=
  messageText title message ++ "\n" ++
    (if answers = .console then "Reboot now? [y/N] " else "")

def shownText (answers : Answers) : DeskEvent → String
  | .noticed _ title message => messageText title message ++ "\n"
  | .rebootAsked title message => questionText answers title message
  | _ => ""

/-! ## The log -/

def progressEntry (key : JobKey) (progress : Float) : LogEntry :=
  ⟨.debug, key.kind.text ++ " " ++ key.device.path ++ ": " ++ Decimal.wholeText progress ++ "%"⟩

def noticeEntry (severity : Severity) (title message : String) : LogEntry :=
  match severity with
  | .info => ⟨.info, title ++ ": " ++ message⟩
  | .error => ⟨.warn, title ++ ": " ++ message⟩

def logEntry? : DeskEvent → Option LogEntry
  | .opened _ title => some ⟨.info, title⟩
  | .updated key progress => some (progressEntry key progress.toFloat)
  | .closed key => some ⟨.info, key.kind.text ++ " of " ++ key.device.path ++ " finished"⟩
  | .noticed severity title message => some (noticeEntry severity title message)
  | .cursorRestored => some ⟨.debug, "busy state cleared"⟩
  | .rebootAsked .. | .rebootRequested => none

end DiskWarden.Terminal
