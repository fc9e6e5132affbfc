import DiskWarden.CommandLine.Words
import DiskWarden.Outcome
import DiskWarden.Path

/-!
What a command line asks for: one of the commands with its options, and the configuration to use.
-/

namespace DiskWarden.CommandLine

inductive Layout
  | plain
  | json
deriving DecidableEq, Repr, Inhabited

namespace Layout

def text : Layout → String
  | plain => "plain"
  | json => "json"

def ofText? (text : String) : Option Layout := [plain, json].find? fun layout => layout.text == text

end Layout

structure Classification where
  operation : Operation
  code : Code
  device : Device
  name : String
  layout : Layout
deriving DecidableEq, Repr

/-- How the secret of a device is asked for and shown. -/
structure Unlocking where
  device : Device
  showsFingerprint : Bool
  readsInput : Bool
  fallsBack : Bool
deriving DecidableEq, Repr

/-- The capture that is replayed, and whether questions are asked. -/
structure Replaying where
  capture : Path
  asks : Bool
deriving DecidableEq, Repr

inductive Command
  | classify (request : Classification)
  | unlock (request : Unlocking)
  | replay (request : Replaying)
  | validate (file : Option Path)
  | schema
  | signals
deriving DecidableEq, Repr

/-- A command with the path of the configuration, if one is given before it. -/
structure Invocation where
  config : Option Path
  command : Command
deriving DecidableEq, Repr

/-! ## Values -/

/-- A setting that may be given once. -/
def once {β : Type} (present : Option β) (value : β) : Option (Option β) :=
  if present.isSome then none else some (some value)

/-- A mark that may be left once. -/
def onceMarked (present : Bool) : Option Bool := if present then none else some true

/-- The path that a word names; an empty one names none. -/
def pathOf? (text : String) : Option Path := if text.isEmpty then none else some ⟨text⟩

/-- The option that asks for help, which every command has. -/
def helpSwitch {α : Type} : Switch α := ⟨"help", some 'h', .halt .help⟩

/-! ## The commands -/

namespace Command

structure ClassifyWords where
  operation : Option Operation
  code : Option Code
  device : Option String
  name : Option String
  layout : Option Layout

def classifyGrammar : Grammar ClassifyWords where
  switches :=
    [⟨"operation", none, .value ⟨false, fun text found => do
        let operation ← once found.operation (← Operation.ofText? text)
        some { found with operation }⟩⟩,
     ⟨"code", none, .value ⟨true, fun text found => do
        let code ← once found.code (← Code.ofText? text)
        some { found with code }⟩⟩,
     ⟨"device", none, .value ⟨false, fun text found => do
        let device ← once found.device text
        some { found with device }⟩⟩,
     ⟨"name", none, .value ⟨false, fun text found => do
        let name ← once found.name text
        some { found with name }⟩⟩,
     ⟨"format", none, .value ⟨false, fun text found => do
        let layout ← once found.layout (← Layout.ofText? text)
        some { found with layout }⟩⟩,
     helpSwitch]
  operands := .refused

/-- The device and the name that messages tell of where none is given. -/
def ClassifyWords.request? (words : ClassifyWords) : Option Classification := do
  some ⟨← words.operation, ← words.code, ⟨words.device.getD "/dev/sda1"⟩,
    words.name.getD "disk", words.layout.getD .plain⟩

structure UnlockWords where
  device : Option String
  showsFingerprint : Bool
  readsInput : Bool
  withoutFallback : Bool

def unlockGrammar : Grammar UnlockWords where
  switches :=
    [⟨"print-fingerprint", none, .mark fun found => do
        let showsFingerprint ← onceMarked found.showsFingerprint
        some { found with showsFingerprint }⟩,
     ⟨"stdin", none, .mark fun found => do
        let readsInput ← onceMarked found.readsInput
        some { found with readsInput }⟩,
     ⟨"no-passphrase-fallback", none, .mark fun found => do
        let withoutFallback ← onceMarked found.withoutFallback
        some { found with withoutFallback }⟩,
     helpSwitch]
  operands := .taken fun text found => do
    let device ← once found.device text
    some { found with device }

def UnlockWords.request? (words : UnlockWords) : Option Unlocking := do
  some ⟨⟨← words.device⟩, words.showsFingerprint, words.readsInput, !words.withoutFallback⟩

structure ReplayWords where
  capture : Option Path
  asks : Bool

def replayGrammar : Grammar ReplayWords where
  switches :=
    [⟨"interactive", none, .mark fun found => do
        let asks ← onceMarked found.asks
        some { found with asks }⟩,
     helpSwitch]
  operands := .taken fun text found => do
    let capture ← once found.capture (← pathOf? text)
    some { found with capture }

def ReplayWords.request? (words : ReplayWords) : Option Replaying := do
  some ⟨← words.capture, words.asks⟩

def validateGrammar : Grammar (Option Path) where
  switches :=
    [⟨"file", some 'f', .value ⟨false, fun text found => do once found (← pathOf? text)⟩⟩,
     helpSwitch]
  operands := .refused

/-- The words of a command that has no options of its own. -/
def bareGrammar : Grammar Unit where
  switches := [helpSwitch]
  operands := .refused

/-- Reads the words of a command, and takes what they tell for the command. -/
def readWith {α : Type} (grammar : Grammar α) (start : α) (finish : α → Option Command)
    (words : List String) : Except Halt Command := do
  let (found, _) ← grammar.read words start
  Grammar.orRefuse (finish found)

/-- How the words after the name of a command are read. -/
def reader? (name : String) : Option (List String → Except Halt Command) :=
  match name with
  | "classify" =>
      some (readWith classifyGrammar ⟨none, none, none, none, none⟩ fun words =>
        words.request?.map classify)
  | "unlock" =>
      some (readWith unlockGrammar ⟨none, false, false, false⟩ fun words =>
        words.request?.map unlock)
  | "replay" =>
      some (readWith replayGrammar ⟨none, false⟩ fun words => words.request?.map replay)
  | "validate" => some (readWith validateGrammar none fun file => some (validate file))
  | "schema" => some (readWith bareGrammar () fun _ => some schema)
  | "signals" => some (readWith bareGrammar () fun _ => some signals)
  | _ => none

end Command

/-! ## The whole command line -/

namespace Invocation

/-- The options before the command. -/
def grammar : Grammar (Option Path) where
  switches :=
    [⟨"config", some 'c', .value ⟨false, fun text found => do once found (← pathOf? text)⟩⟩,
     helpSwitch,
     ⟨"version", some 'V', .halt .version⟩]
  operands := .left

/-- Help on a topic, which is a command or help itself. -/
def helpOn (topics : List String) : Halt :=
  match topics with
  | [] => .help
  | [topic] => if topic = "help" || (Command.reader? topic).isSome then .help else .refused
  | _ => .refused

/-- Reads the words after the program's name. -/
def read (words : List String) : Except Halt Invocation := do
  match ← grammar.read words none with
  | (_, []) => throw .refused
  | (config, name :: rest) =>
      if name = "help" then throw (helpOn rest)
      else
        match Command.reader? name with
        | none => throw .refused
        | some reader => pure ⟨config, ← reader rest⟩

end Invocation

end DiskWarden.CommandLine
