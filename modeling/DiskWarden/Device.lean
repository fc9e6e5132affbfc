import DiskWarden.Text.Blank

/-!
Block devices and the two kinds of job that run on them.
-/

namespace DiskWarden

/-- A block device, named by its path. -/
structure Device where
  path : String
deriving DecidableEq, Repr, Inhabited

namespace Device

/-- The path without a leading `/dev/`. -/
def shortName (device : Device) : String :=
  match Text.dropHead? "/dev/".toList device.path.toList with
  | some rest => String.ofList rest
  | none => device.path

/-- How a device is called in messages: its display name, and its short name in brackets. -/
def label (device : Device) (name : String) : String :=
  name ++ "(" ++ device.shortName ++ ")"

end Device

/-- The kinds of job whose progress is followed. -/
inductive JobKind
  | encrypt
  | decrypt
deriving DecidableEq, Repr, Inhabited

namespace JobKind

def text : JobKind → String
  | encrypt => "encrypt"
  | decrypt => "decrypt"

/-- What the progress indicator of a job says before the label. -/
def activity : JobKind → String
  | encrypt => "Encrypting..."
  | decrypt => "Decrypting..."

/-- Encryption sorts before decryption. -/
def rank : JobKind → Nat
  | encrypt => 0
  | decrypt => 1

end JobKind

end DiskWarden
