import DiskWarden.Code
import DiskWarden.Device
import DiskWarden.Json.Basic

/-!
What can go wrong, and how it is told.
-/

namespace DiskWarden

/-- The causes of failure. -/
inductive Fault
  | io (reason : String)
  | invalidConfig (reason : String)
  | tomlReading
  | tomlWriting
  | yaml
  | json (cause : JsonFault)
  | unsupportedKeyType (device : Device) (code : Code)
  | tpm (reason : String)
  | prompt (reason : String)
  | session (reason : String)
  | helper (program reason : String)
  | bus (reason : String)
deriving DecidableEq, Repr

namespace Fault

def message : Fault → String
  | io reason => "I/O error: " ++ reason
  | invalidConfig reason => "invalid configuration: " ++ reason
  | tomlReading => "failed to parse TOML configuration: the document is not accepted"
  | tomlWriting => "failed to render TOML configuration: a number is out of range"
  | yaml => "failed to process YAML configuration: the document is not accepted"
  | json cause => "malformed message: " ++ cause.text
  | unsupportedKeyType device code =>
      "device " ++ device.path ++ " uses unsupported key type " ++ code.text
  | tpm reason => "TPM unseal failed: " ++ reason
  | prompt reason => "credential prompt failed: " ++ reason
  | session reason => "session manager request failed: " ++ reason
  | helper program reason => "helper " ++ program ++ " failed: " ++ reason
  | bus reason => "event loop unavailable: " ++ reason

/-- A message followed by that of its cause, where the cause is a fault of its own. -/
def chain : Fault → String
  | io reason => (io reason).message ++ ": " ++ reason
  | fault => fault.message

end Fault

/-! The failures that the system reports by number. -/

namespace SystemError

def noSuchFile : String := "No such file or directory (os error 2)"

def permissionDenied : String := "Permission denied (os error 13)"

def fileExists : String := "File exists (os error 17)"

def notADirectory : String := "Not a directory (os error 20)"

def isADirectory : String := "Is a directory (os error 21)"

def noSuchDevice : String := "No such device or address (os error 6)"

def nameTooLong : String := "File name too long (os error 36)"

def addressInUse : String := "Address already in use (os error 98)"

/-! The failures that are found before the system is asked. -/

def zeroInName : String := "file name contained an unexpected NUL byte"

def zeroInSocketPath : String := "paths must not contain interior null bytes"

def socketPathTooLong : String := "path must be shorter than SUN_LEN"

def socketNameTooLong : String := "abstract socket name must be shorter than SUN_LEN"

end SystemError

end DiskWarden
