import DiskWarden.Fault
import DiskWarden.Json.Printer
import DiskWarden.Json.Reader
import DiskWarden.Signal
import DiskWarden.Text.Blank

/-!
The line protocol: one JSON value to a line. A notification is a tag with its arguments, either
as an object or as a list of the two; a password request is an object or a list as well.
-/

namespace DiskWarden

inductive Inbound
  | signal (signal : Signal)
  | passwordRequest (device : Device)
deriving DecidableEq, Repr

structure Reply where
  handled : Bool
  cancelled : Bool
  secret : String
deriving DecidableEq, Repr

namespace Wire

/-! ## Reading -/

/-- The code that a number stands for, if it is an integer of 32 bits. -/
def code? : Json → Option Code
  | .integer value => Code.ofInt? value
  | _ => none

/-- The progress that a number stands for. -/
def progress? : Json → Option Float
  | .integer (.ofNat n) => some n.toUInt64.toFloat
  | .integer (.negSucc n) => some (-(n + 1).toUInt64.toFloat)
  | .float value => some value
  | _ => none

/-- The notification over a channel with given arguments, if they are as many and of the kinds
that the channel asks for. -/
def signal? (channel : Channel) (arguments : List Json) : Option Signal :=
  match channel, arguments with
  | .prepareEncryptDiskResult, [.text device, .text name, .text reserved, code] =>
      (code? code).map (.prepareEncryptDiskResult device name reserved)
  | .encryptDiskResult, [.text device, .text name, code] =>
      (code? code).map (.encryptDiskResult device name)
  | .encryptProgress, [.text device, .text name, progress] =>
      (progress? progress).map (.encryptProgress device name)
  | .decryptDiskResult, [.text device, .text name, .text reserved, code] =>
      (code? code).map (.decryptDiskResult device name reserved)
  | .decryptProgress, [.text device, .text name, progress] =>
      (progress? progress).map (.decryptProgress device name)
  | .changePassphraseResult, [.text device, .text name, .text reserved, code] =>
      (code? code).map (.changePassphraseResult device name reserved)
  | _, _ => none

/-- The channel that the tag of an object names: a text, or an object that gives it no
value. -/
def taggedChannel? : Json → Option Channel
  | .text name => Channel.ofName? name
  | .object [(name, .null)] => Channel.ofName? name
  | _ => none

/-- The channel that the head of a list names: a text, or the place of the channel. -/
def listedChannel? : Json → Option Channel
  | .text name => Channel.ofName? name
  | .integer (.ofNat place) => Channel.all[place]?
  | _ => none

/-- The notification that a value is. Other members of an object do not count. -/
def signalOf? : Json → Option Signal
  | .object members => do
      let channel ← (Json.onlyMember? "signal" members).bind taggedChannel?
      match ← Json.onlyMember? "args" members with
      | .array arguments => signal? channel arguments
      | _ => none
  | .array [tag, .array arguments] => do signal? (← listedChannel? tag) arguments
  | _ => none

/-- The name of the only request. -/
def requestName : String := "AcquireDevicePassword"

/-- Whether a value names the request, by its name or its place. -/
def namesRequest : Json → Bool
  | .text name => name == requestName
  | .integer place => place == 0
  | _ => false

/-- The device of the password request that a value is. -/
def requestOf? : Json → Option Device
  | .object members => do
      let tag ← Json.onlyMember? "request" members
      match ← Json.onlyMember? "device" members with
      | .text device => if namesRequest tag then some ⟨device⟩ else none
      | _ => none
  | .array [tag, .text device] => if namesRequest tag then some ⟨device⟩ else none
  | _ => none

/-- What a value is: a notification if it can be read as one, else a request. -/
def inboundOf? (value : Json) : Option Inbound :=
  match signalOf? value with
  | some signal => some (.signal signal)
  | none => (requestOf? value).map .passwordRequest

/-- Reads a line. White space around the value does not count. -/
def decodeLine (line : String) : Except JsonFault Inbound :=
  Json.ofTextAs inboundOf? (Text.trim line)

/-! ## Writing -/

def codeJson (code : Code) : Json := .integer code.value

def arguments : Signal → List Json
  | .prepareEncryptDiskResult device name reserved code =>
      [.text device, .text name, .text reserved, codeJson code]
  | .encryptDiskResult device name code => [.text device, .text name, codeJson code]
  | .encryptProgress device name value => [.text device, .text name, .float value]
  | .decryptDiskResult device name reserved code =>
      [.text device, .text name, .text reserved, codeJson code]
  | .decryptProgress device name value => [.text device, .text name, .float value]
  | .changePassphraseResult device name reserved code =>
      [.text device, .text name, .text reserved, codeJson code]

def signalJson (signal : Signal) : Json :=
  .object [("signal", .text signal.channel.name), ("args", .array (arguments signal))]

def requestJson (device : Device) : Json :=
  .object [("request", .text requestName), ("device", .text device.path)]

def replyJson (reply : Reply) : Json :=
  .object [("handled", .bool reply.handled), ("cancelled", .bool reply.cancelled),
    ("secret", .text reply.secret)]

def encodeSignal (signal : Signal) : String := (signalJson signal).compact

def encodeRequest (device : Device) : String := (requestJson device).compact

def encodeReply (reply : Reply) : String := (replyJson reply).compact

/-- The line of a notification or a request. -/
def encode : Inbound → String
  | .signal signal => encodeSignal signal
  | .passwordRequest device => encodeRequest device

end Wire

end DiskWarden
