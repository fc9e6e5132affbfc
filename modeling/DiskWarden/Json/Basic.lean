/-!
Values of JSON. An object keeps its members in order, repeated names included.
-/

namespace DiskWarden

/-- Why a line or a document of JSON is refused: the text ends inside a value, it is no JSON
for another reason, or it has another shape than asked for. -/
inductive JsonFault
  | unfinished
  | malformed
  | mismatched
deriving DecidableEq, Repr

namespace JsonFault

def text : JsonFault → String
  | unfinished => "the text ends inside a value"
  | malformed => "the text is no JSON"
  | mismatched => "data did not match any variant of untagged enum Inbound"

end JsonFault

/-- A JSON value. Numbers without a fraction and an exponent that fit 64 bits are integers. -/
inductive Json
  | null
  | bool (value : Bool)
  | integer (value : Int)
  | float (value : Float)
  | text (value : String)
  | array (items : List Json)
  | object (members : List (String × Json))

namespace Json

instance : Inhabited Json := ⟨null⟩

def valuesOf (name : String) (members : List (String × Json)) : List Json :=
  (members.filter fun member => member.1 == name).map Prod.snd

def onlyMember? (name : String) (members : List (String × Json)) : Option Json :=
  match valuesOf name members with
  | [value] => some value
  | _ => none

end Json

end DiskWarden
