import DiskWarden.Proofs.CommandLine.Unlocking

/-!
# What an unlocking leaves for its caller

Whoever has a device unlocked with answers from the standard input can tell by the exit code how
that ended.  Zero comes with a secret on the output, which is never empty.  Two says that there is
none: the input ended before the answer, or what came of it was empty.  One says that there was no
way to ask.  Nothing stands on the output then.
-/

namespace DiskWarden.CommandLine.Unlocking

variable {σ : Type} {machine : Machine σ} {request : Unlocking} {config : Config}
  {surroundings : Surroundings σ} {lines : List Text.Octets} {attempt : Attempt}
  {helper : String → Helper.Completion}

/-! ## The ways to end -/

/-- What an unlocking leaves: a secret, nothing where one was asked for, or a failure to ask. -/
inductive Ending
  | secret (text : String)
  | nothing
  | failure
deriving DecidableEq, Repr

def Ending.exitCode : Ending → Nat
  | secret _ => 0
  | nothing => 2
  | failure => 1

/-- What stands on the output: a secret, or its fingerprint, in a line of its own. -/
def output (request : Unlocking) : Ending → String
  | .secret text => (if request.showsFingerprint then Sha256.fingerprint text else text) ++ "\n"
  | .nothing => ""
  | .failure => ""

/-- The ways in which an unlocking ends, by what loading the configuration has given, the lines of
the input, and the ends of the helper of a configuration. -/
inductive Ends (request : Unlocking) (loaded : Except Fault Config) (lines : List Text.Octets)
    (helper : Config → String → Helper.Completion) : Ending → Prop
  | acquired {config : Config} {text : String} (loads : loaded = .ok config)
      (comes : request.ComesTo config lines (helper config) (.yielded text))
      (nonempty : text ≠ "") : Ends request loaded lines helper (.secret text)
  | unanswered {config : Config} (loads : loaded = .ok config)
      (comes : request.ComesTo config lines (helper config) .cancelled) :
      Ends request loaded lines helper .nothing
  | emptyHanded {config : Config} (loads : loaded = .ok config)
      (comes : request.ComesTo config lines (helper config) (.yielded "")) :
      Ends request loaded lines helper .nothing
  | notLoaded {fault : Fault} (loads : loaded = .error fault) :
      Ends request loaded lines helper .failure
  | unsupported {config : Config} {code : Code} (loads : loaded = .ok config)
      (known : config.keyTypeOf request.device = .unsupported code) :
      Ends request loaded lines helper .failure
  | promptFailed {config : Config} {fault : Fault} (loads : loaded = .ok config)
      (comes : request.ComesTo config lines (helper config) (.failed fault)) :
      Ends request loaded lines helper .failure

variable {helpers : Config → String → Helper.Completion} {ending : Ending}

theorem Ends.nonempty {loaded : Except Fault Config} {text : String}
    (ends : request.Ends loaded lines helpers (.secret text)) : text ≠ "" := by
  cases ends with
  | acquired _ _ nonempty => exact nonempty

/-- The words of a request: its marks, and the device behind them. -/
def ownWords (request : Unlocking) : List String :=
  (if request.showsFingerprint then ["--print-fingerprint"] else []) ++
    (if request.readsInput then ["--stdin"] else []) ++
    (if request.fallsBack then [] else ["--no-passphrase-fallback"]) ++ ["--", request.device.path]

/-- The words that ask for an unlocking, perhaps with a configuration. -/
def words (request : Unlocking) (location : Option Path) : List String :=
  (location.map fun path => "--config=" ++ path.text).toList ++ "unlock" :: request.ownWords

end DiskWarden.CommandLine.Unlocking
