import DiskWarden.Code

/-!
How the key of a device is protected, as the daemon numbers it.
-/

namespace DiskWarden

/-- A protection of a device key. -/
inductive KeyType
  | password
  | tpmAndPin
  | tpmOnly
  | unsupported (code : Code)
deriving DecidableEq, Repr

namespace KeyType

/-- The protection that a daemon code stands for. -/
def ofCode (code : Code) : KeyType :=
  if code.value = 0 then password
  else if code.value = 1 then tpmAndPin
  else if code.value = 2 then tpmOnly
  else unsupported code

def code : KeyType → Code
  | password => .ofSmall 0
  | tpmAndPin => .ofSmall 1
  | tpmOnly => .ofSmall 2
  | unsupported code => code

/-- The code of a device that nothing is configured for. -/
def unknown : KeyType := unsupported ⟨-1, by omega, by omega⟩

def text : KeyType → String
  | password => "password"
  | tpmAndPin => "tpm-pin"
  | tpmOnly => "tpm"
  | unsupported code => "unsupported(" ++ code.text ++ ")"

end KeyType

end DiskWarden
