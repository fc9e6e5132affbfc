import DiskWarden.Config.Basic
import DiskWarden.Json.Basic

/-!
The JSON schema of configuration files: what the sections and their members are called, what they
hold, and what stands in for them where they are missing.
-/

namespace DiskWarden.Config.Schema

/-! ## Parts of schemas -/

/-- A part of a schema: a rule and its argument. -/
abbrev Rule := String × Json

def schema (rules : List Rule) : Json := .object rules

def description (text : String) : Rule := ("description", .text text)

def standsIn (value : Json) : Rule := ("default", value)

def hasType (name : String) : Rule := ("type", .text name)

def properties (members : List (String × Json)) : Rule := ("properties", .object members)

/-- Integers of a width, which are not negative. -/
def unsigned (bits : Nat) : List Rule :=
  [hasType "integer", ("format", .text ("uint" ++ toString bits)), ("minimum", .float 0)]

def defined (name : String) : Json :=
  schema [("$ref", .text ("#/definitions/" ++ name))]

/-- A section of the configuration, whose schema is defined under a name. -/
def ofSection (name : String) (standard : Json) : Json :=
  schema [standsIn standard, ("allOf", .array [defined name])]

/-! ## The standard sections -/

def ofNumber (value : UInt64) : Json := .integer value.toNat

def ofTexts (texts : List String) : Json := .array (texts.map .text)

def standardAgent : Json :=
  .object [("interactive", .bool Agent.standard.interactive),
    ("socket_path", .text Agent.standard.socketPath)]

def standardTpm : Json :=
  .object [("helper_path", .text Tpm.standard.helperPath),
    ("timeout_secs", ofNumber Tpm.standard.timeoutSeconds)]

def standardSession : Json :=
  .object [("reboot_command", ofTexts Session.standard.rebootCommand)]

def standardJobs : Json :=
  .object [("stale_window_ms", ofNumber Jobs.standard.staleWindow)]

def standardDevices : Json :=
  .object [("default_key_type", .null), ("key_types", .object [])]

/-! ## Definitions -/

def agent : Json :=
  schema
    [description "Where the agent listens for daemon traffic and how it talks to the user.",
     hasType "object",
     properties
      [("interactive", schema
        [description "Ask before honouring reboot offers instead of always postponing them.",
         standsIn (.bool Agent.standard.interactive), hasType "boolean"]),
       ("socket_path", schema
        [standsIn (.text Agent.standard.socketPath), hasType "string"])]]

def devices : Json :=
  schema
    [description "Per-device key-protection modes.",
     hasType "object",
     properties
      [("default_key_type", schema
        [standsIn .null,
         ("anyOf", .array [defined "KeyTypeSetting", schema [hasType "null"]])]),
       ("key_types", schema
        [standsIn (.object []), hasType "object",
         ("additionalProperties", defined "KeyTypeSetting")])]]

def keyTypeName : Json :=
  schema [hasType "string", ("enum", ofTexts (KeyTypeName.all.map KeyTypeName.text))]

def keyTypeSetting : Json :=
  schema
    [description "Key type as written in configuration: a daemon integer code or a name.",
     ("anyOf", .array
      [schema [hasType "integer", ("format", .text "int32")], defined "KeyTypeName"])]

def jobs : Json :=
  schema
    [description "Job registry tuning.",
     hasType "object",
     properties
      [("stale_window_ms", schema
        (standsIn (ofNumber Jobs.standard.staleWindow) :: unsigned 64))]]

def session : Json :=
  schema
    [description "Session management knobs.",
     hasType "object",
     properties
      [("reboot_command", schema
        [standsIn (ofTexts Session.standard.rebootCommand), hasType "array",
         ("items", schema [hasType "string"])])]]

def tpm : Json :=
  schema
    [description "TPM unseal helper invocation.",
     hasType "object",
     properties
      [("helper_path", schema [standsIn (.text Tpm.standard.helperPath), hasType "string"]),
       ("timeout_secs", schema
        (standsIn (ofNumber Tpm.standard.timeoutSeconds) :: unsigned 64))]]

def document : Json :=
  schema
    [("$schema", .text "http://json-schema.org/draft-07/schema#"),
     ("title", .text "DiskencConfig"),
     description "Top-level configuration snapshot loaded from disk.",
     hasType "object",
     properties
      [("agent", ofSection "AgentCfg" standardAgent),
       ("devices", ofSection "DevicesCfg" standardDevices),
       ("registry", ofSection "RegistryCfg" standardJobs),
       ("session", ofSection "SessionCfg" standardSession),
       ("tpm", ofSection "TpmCfg" standardTpm)],
     ("definitions", .object
      [("AgentCfg", agent), ("DevicesCfg", devices), ("KeyTypeName", keyTypeName),
       ("KeyTypeSetting", keyTypeSetting), ("RegistryCfg", jobs), ("SessionCfg", session),
       ("TpmCfg", tpm)])]

end DiskWarden.Config.Schema
