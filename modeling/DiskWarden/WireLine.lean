import DiskWarden.Text.Lines
import DiskWarden.Wire

/-!
The lines of the protocol in octets, as a peer sends them and a capture holds them.
-/

namespace DiskWarden

/-- What a line holds. A broken line is no text at all. -/
inductive WireLine
  | blank
  | inbound (inbound : Inbound)
  | malformed (cause : JsonFault)
  | broken
deriving DecidableEq, Repr

namespace WireLine

def read (line : Text.Octets) : WireLine :=
  match Text.decode? line with
  | none => broken
  | some text =>
      if Text.isBlankText text then blank
      else
        match Wire.decodeLine text with
        | .ok arrived => inbound arrived
        | .error cause => malformed cause

end WireLine

end DiskWarden
