/-!
The words of a command line: options with their values, flags and operands. Words are taken from
left to right, and the first one that does not fit ends the reading.
-/

namespace DiskWarden.CommandLine

/-- Why a command line gives nothing to run. -/
inductive Halt
  | refused
  | help
  | version
deriving DecidableEq, Repr

/-! ## Words -/

/-- A word by its form: the one after which all words are operands, an option by its name, some
options by their letters, or any other word. -/
inductive Word
  | terminator
  | named (name : String) (value : Option String)
  | lettered (letters : List Char)
  | plain (text : String)
deriving DecidableEq, Repr

namespace Word

/-- What an option's name is followed by in its own word: a value after an equals sign. -/
def attachedValue? : List Char → Option String
  | '=' :: value => some (String.ofList value)
  | _ => none

def ofText (text : String) : Word :=
  match text.toList with
  | ['-'] => plain text
  | ['-', '-'] => terminator
  | '-' :: '-' :: body =>
      let name := body.takeWhile (· ≠ '=')
      named (String.ofList name) (attachedValue? (body.drop name.length))
  | '-' :: letters => lettered letters
  | _ => plain text

/-- Whether a word stands for itself, although it is not marked as an operand. -/
def isPlain (text : String) : Bool :=
  match ofText text with
  | plain _ => true
  | _ => false

/-- Whether a word is a minus sign with digits. -/
def isNegativeNumber (text : String) : Bool :=
  match ofText text with
  | lettered letters => letters.all Char.isDigit
  | _ => false

end Word

/-! ## Grammars -/

/-- A value that an option waits for. -/
structure Waiting (α : Type) where
  takesNegative : Bool
  take : String → α → Option α

/-- Whether a word can be the value that an option waits for. -/
def Waiting.fits {α : Type} (waiting : Waiting α) (word : String) : Bool :=
  Word.isPlain word || (waiting.takesNegative && Word.isNegativeNumber word)

/-- What an option does: it ends the reading, it leaves a mark, or it takes a value. -/
inductive Effect (α : Type)
  | halt (cause : Halt)
  | mark (leave : α → Option α)
  | value (waiting : Waiting α)

/-- An option, with its name and at times a letter. -/
structure Switch (α : Type) where
  name : String
  letter : Option Char
  effect : Effect α

/-- What becomes of operands: they are taken one by one, or the first one ends the reading and is
left with all words after it. -/
inductive Operands (α : Type)
  | taken (take : String → α → Option α)
  | left

/-- No operand is taken. -/
def Operands.refused {α : Type} : Operands α := taken fun _ _ => none

structure Grammar (α : Type) where
  switches : List (Switch α)
  operands : Operands α

namespace Grammar

variable {α : Type}

/-- What is given, where it is given. -/
def orRefuse (given : Option α) : Except Halt α :=
  match given with
  | some value => .ok value
  | none => .error .refused

/-- What a switch makes of what was found, and what is waited for then. The value may be given
with the switch. -/
def apply (effect : Effect α) (value : Option String) (found : α) :
    Except Halt (α × Option (Waiting α)) :=
  match effect, value with
  | .halt cause, none => .error cause
  | .mark leave, none => do pure (← orRefuse (leave found), none)
  | .value waiting, none => pure (found, some waiting)
  | .value waiting, some text => do pure (← orRefuse (waiting.take text found), none)
  | _, some _ => .error .refused

def applyNamed (grammar : Grammar α) (name : String) (value : Option String) (found : α) :
    Except Halt (α × Option (Waiting α)) :=
  match grammar.switches.find? fun switch => switch.name == name with
  | some switch => apply switch.effect value found
  | none => .error .refused

/-- The value in the letters after that of a switch; an equals sign before it is left out. -/
def valueOfLetters? : List Char → Option String
  | [] => none
  | '=' :: value => some (String.ofList value)
  | value => some (String.ofList value)

/-- Applies the switches with some letters. After that of one with a value the other letters are
the value. -/
def applyLettered (grammar : Grammar α) : List Char → α →
    Except Halt (α × Option (Waiting α))
  | [], found => pure (found, none)
  | letter :: letters, found =>
      match grammar.switches.find? fun switch => switch.letter == some letter with
      | none => .error .refused
      | some ⟨_, _, .value waiting⟩ => apply (.value waiting) (valueOfLetters? letters) found
      | some ⟨_, _, effect⟩ => do
          let (found, _) ← apply effect none found
          applyLettered grammar letters found

def takeOperands (grammar : Grammar α) (words : List String) (found : α) : Except Halt α :=
  match grammar.operands with
  | .taken take => words.foldlM (fun found word => orRefuse (take word found)) found
  | .left => if words.isEmpty then pure found else .error .refused

/-- Reads words, of which the first may be waited for as a value. -/
def readWaiting (grammar : Grammar α) : List String → Option (Waiting α) → α →
    Except Halt (α × List String)
  | [], none, found => pure (found, [])
  | [], some _, _ => .error .refused
  | word :: rest, some waiting, found => do
      if waiting.fits word then
        readWaiting grammar rest none (← orRefuse (waiting.take word found))
      else .error .refused
  | word :: rest, none, found =>
      match Word.ofText word with
      | .terminator => do pure (← takeOperands grammar rest found, [])
      | .named name value => do
          let (found, waiting) ← grammar.applyNamed name value found
          readWaiting grammar rest waiting found
      | .lettered letters => do
          let (found, waiting) ← grammar.applyLettered letters found
          readWaiting grammar rest waiting found
      | .plain text =>
          match grammar.operands with
          | .left => pure (found, word :: rest)
          | .taken take => do readWaiting grammar rest none (← orRefuse (take text found))

/-- Reads words, and gives what they tell with the words that are left over. -/
def read (grammar : Grammar α) (words : List String) (start : α) :
    Except Halt (α × List String) :=
  grammar.readWaiting words none start

end Grammar

end DiskWarden.CommandLine
