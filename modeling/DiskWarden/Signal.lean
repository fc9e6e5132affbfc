import DiskWarden.Outcome

/-!
The daemon's notifications. Each comes over a channel of its own, with the device and its
display name first.
-/

namespace DiskWarden

/-- The channels of the daemon. -/
inductive Channel
  | prepareEncryptDiskResult
  | encryptDiskResult
  | encryptProgress
  | decryptDiskResult
  | decryptProgress
  | changePassphraseResult
deriving DecidableEq, Repr

namespace Channel

def all : List Channel :=
  [prepareEncryptDiskResult, encryptDiskResult, encryptProgress, decryptDiskResult,
    decryptProgress, changePassphraseResult]

def name : Channel → String
  | prepareEncryptDiskResult => "PrepareEncryptDiskResult"
  | encryptDiskResult => "EncryptDiskResult"
  | encryptProgress => "EncryptProgress"
  | decryptDiskResult => "DecryptDiskResult"
  | decryptProgress => "DecryptProgress"
  | changePassphraseResult => "ChangePassphraseResult"

/-- The misspelt name of the last channel, which older daemons use. -/
def olderName : String := "ChangePassphressResult"

/-- The channel with a given name, the older one included. -/
def ofName? (text : String) : Option Channel :=
  if text = olderName then some changePassphraseResult
  else all.find? fun channel => channel.name == text

theorem ofName?_name (channel : Channel) : ofName? channel.name = some channel := by
  cases channel <;> decide

end Channel

/-- A notification. The text called `reserved` has no meaning. -/
inductive Signal
  | prepareEncryptDiskResult (device name reserved : String) (code : Code)
  | encryptDiskResult (device name : String) (code : Code)
  | encryptProgress (device name : String) (progress : Float)
  | decryptDiskResult (device name reserved : String) (code : Code)
  | decryptProgress (device name : String) (progress : Float)
  | changePassphraseResult (device name reserved : String) (code : Code)
deriving DecidableEq, Repr

/-- What a notification says, whichever channel it came over. -/
inductive Notification
  | progress (kind : JobKind) (value : Float)
  | result (operation : Operation) (code : Code)
deriving DecidableEq, Repr

namespace Signal

def channel : Signal → Channel
  | prepareEncryptDiskResult .. => .prepareEncryptDiskResult
  | encryptDiskResult .. => .encryptDiskResult
  | encryptProgress .. => .encryptProgress
  | decryptDiskResult .. => .decryptDiskResult
  | decryptProgress .. => .decryptProgress
  | changePassphraseResult .. => .changePassphraseResult

def device : Signal → Device
  | prepareEncryptDiskResult device _ _ _ => ⟨device⟩
  | encryptDiskResult device _ _ => ⟨device⟩
  | encryptProgress device _ _ => ⟨device⟩
  | decryptDiskResult device _ _ _ => ⟨device⟩
  | decryptProgress device _ _ => ⟨device⟩
  | changePassphraseResult device _ _ _ => ⟨device⟩

/-- The name under which the user knows the device. -/
def displayName : Signal → String
  | prepareEncryptDiskResult _ name _ _ => name
  | encryptDiskResult _ name _ => name
  | encryptProgress _ name _ => name
  | decryptDiskResult _ name _ _ => name
  | decryptProgress _ name _ => name
  | changePassphraseResult _ name _ _ => name

def notification : Signal → Notification
  | prepareEncryptDiskResult _ _ _ code => .result .preEncrypt code
  | encryptDiskResult _ _ code => .result .encrypt code
  | encryptProgress _ _ value => .progress .encrypt value
  | decryptDiskResult _ _ _ code => .result .decrypt code
  | decryptProgress _ _ value => .progress .decrypt value
  | changePassphraseResult _ _ _ code => .result .changePassphrase code

/-- Whether a notification reports the end of an operation. -/
def isResult (signal : Signal) : Bool :=
  match signal.notification with
  | .result .. => true
  | .progress .. => false

def label (signal : Signal) : String := signal.device.label signal.displayName

end Signal

end DiskWarden
