import DiskWarden.Config.Form
import DiskWarden.Yaml.Printer

/-!
Configurations as YAML documents.
-/

namespace DiskWarden.Config.YamlForm

open Yaml (Node Document Style Meaning Tag)

/-! ## Reading -/

def text? (document : Document) (node : Node) : Option String :=
  match document.resolve node with
  | .scalar _ _ text => some text
  | _ => none

/-- Whether a scalar can stand for something else than its text: a plain one can, and a block
of lines with the tag that is asked for. -/
def isPlainOr (tag : Tag) (scalarTag : Option Tag) (style : Style) : Bool :=
  style = .plain || (style = .literal && scalarTag = some tag)

def flag? (document : Document) (node : Node) : Option Bool :=
  match document.resolve node with
  | .scalar tag style text =>
      if isPlainOr .bool tag style then Yaml.boolOf? text else none
  | _ => none

def number? (document : Document) (node : Node) : Option UInt64 :=
  match document.resolve node with
  | .scalar tag style text =>
      if isPlainOr .integer tag style then
        (Yaml.natural? text.toList).bind fun n =>
          if n < UInt64.size then some n.toUInt64 else none
      else none
  | _ => none

def isAbsent : Node → Bool
  | .scalar _ .plain "" => true
  | _ => false

def items? (document : Document) (node : Node) : Option (List Node) :=
  match document.resolve node with
  | .sequence _ items => some items
  | node => if isAbsent node then some [] else none

/-- The keys and values of a mapping. -/
def pairs? (document : Document) (node : Node) : Option (List (Node × Node)) :=
  match document.resolve node with
  | .mapping _ entries => some entries
  | node => if isAbsent node then some [] else none

def entries? (document : Document) (node : Node) : Option (List (String × Node)) := do
  (← pairs? document node).mapM fun (key, value) => do some (← text? document key, value)

/-- The value of a member, which must not be given twice. -/
def member? (entries : List (String × Node)) (name : String) : Option (Option Node) :=
  match entries.filter fun entry => entry.1 == name with
  | [] => some none
  | [(_, value)] => some (some value)
  | _ => none

def members? (document : Document) (names : List String) (node : Node) :
    Option (List (Option Node)) := do
  names.mapM (member? (← entries? document node))

/-- What a scalar stands for where anything may stand; none for a variant or for a text that its
tag does not fit. -/
def meaning? (tag : Option Tag) (style : Style) (text : String) : Option Meaning :=
  match tag with
  | none => some (if style = .plain then Yaml.meaning text else .text)
  | some tag =>
      if tag.isVariant then none
      else if tag = .null then
        if Yaml.isNullWord text then some .null else none
      else if tag = .bool then (Yaml.boolOf? text).map .bool
      else if tag = .integer then (Yaml.integer? text.toList).map .integer
      else if tag = .float then
        if Yaml.isFloat text then some .float else none
      else some (if tag.isLocal && style = .plain then Yaml.meaning text else .text)

/-- The name in the key of a mapping: its text, or its place among the names, which is written
without a minus sign. -/
def keyName? (document : Document) (node : Node) : Option KeyTypeName :=
  match document.resolve node with
  | .scalar tag style text =>
      match meaning? tag style text with
      | some .text => KeyTypeName.ofText? text
      | some (.integer _) =>
          (Yaml.natural? text.toList).bind fun place => KeyTypeName.all[place]?
      | _ => none
  | _ => none

def isNullValue (document : Document) (node : Node) : Bool :=
  match document.resolve node with
  | .scalar tag style text => meaning? tag style text == some .null
  | _ => false

/-- A setting is a code, a name, or a mapping from a name to nothing. -/
def setting? (document : Document) (node : Node) : Option KeyTypeSetting :=
  match document.resolve node with
  | .scalar tag style text =>
      match meaning? tag style text with
      | some (.integer value) => (Code.ofInt? value).map .code
      | some .text => (KeyTypeName.ofText? text).map .name
      | _ => none
  | .mapping tag [(key, value)] =>
      if (tag.map Tag.isVariant).getD false then none
      else if isNullValue document value then (keyName? document key).map .name
      else none
  | _ => none

/-- Whether a node stands for nothing, where that may be; none if its tag says so and its text
does not. -/
def isNothing? (document : Document) (node : Node) : Option Bool :=
  match document.resolve node with
  | .scalar tag .plain text =>
      if tag = some .null then
        if Yaml.isNullWord text then some true else none
      else if tag.isSome then some false
      else some (text = "" || Yaml.isNullWord text)
  | _ => some false

def form (document : Document) : Form Node :=
  ⟨text? document, flag? document, number? document, items? document, entries? document,
    members? document, setting? document, isNothing? document⟩

def ofText? (text : String) : Option Config :=
  (Document.ofText? text).bind fun document => (form document).config? document.root

/-! ## Writing -/

def plain (text : String) : Node := .scalar none .plain text

def ofSetting : KeyTypeSetting → Node
  | .code code => plain code.text
  | .name name => .ofText name.text

def ofNumber (value : UInt64) : Node := plain (toString value.toNat)

def ofFlag (value : Bool) : Node := plain (if value then "true" else "false")

def mapping (entries : List (String × Node)) : Node :=
  .mapping none (entries.map fun entry => (.ofText entry.1, entry.2))

def root (config : Config) : Node :=
  mapping
    [("agent", mapping
        [("socket_path", .ofText config.agent.socketPath),
         ("interactive", ofFlag config.agent.interactive)]),
     ("tpm", mapping
        [("helper_path", .ofText config.tpm.helperPath),
         ("timeout_secs", ofNumber config.tpm.timeoutSeconds)]),
     ("session", mapping
        [("reboot_command", .sequence none (config.session.rebootCommand.map .ofText))]),
     ("registry", mapping [("stale_window_ms", ofNumber config.jobs.staleWindow)]),
     ("devices", mapping
        [("default_key_type", (config.devices.default.map ofSetting).getD (plain "null")),
         ("key_types", mapping
          (config.devices.keyTypes.entries.map fun entry => (entry.1, ofSetting entry.2)))])]

def toText (config : Config) : String := (root config).render

end DiskWarden.Config.YamlForm
