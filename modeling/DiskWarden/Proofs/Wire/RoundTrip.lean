import DiskWarden.Proofs.Json.Printed
import DiskWarden.Proofs.Replay.Lines
import DiskWarden.Proofs.Text.Lines
import DiskWarden.Proofs.Wire.Acceptance

/-!
# What is sent is what arrives

Notifications and requests that are written one to a line are read back in order, whatever their
texts hold, and none of them is skipped.  Replies are written one to a line as well.
-/

namespace DiskWarden

/-- What a notification is read back as: the progress of a tick is what its digits stand for, and
all else is as it was. -/
def Signal.reread : Signal → Signal
  | encryptProgress device name progress =>
      encryptProgress device name (Json.rereadFloat progress)
  | decryptProgress device name progress =>
      decryptProgress device name (Json.rereadFloat progress)
  | result => result

/-- Whether the progress that a notification tells, if it does, is a finite number. -/
def Signal.IsFinite : Signal → Prop
  | encryptProgress _ _ progress | decryptProgress _ _ progress => progress.isFinite = true
  | _ => True

namespace Inbound

def reread : Inbound → Inbound
  | .signal notification => .signal notification.reread
  | passwordRequest device => passwordRequest device

def IsFinite : Inbound → Prop
  | .signal notification => notification.IsFinite
  | passwordRequest _ => True

end Inbound

namespace Wire

open Json (Rereadable depthLimit rereadItems)

/-! ## Objects of two members -/

variable {name other : String} {first second : Json} {depth : Nat}

theorem onlyMember?_first (different : other ≠ name) :
    Json.onlyMember? name [(name, first), (other, second)] = some first := by
  simp [Json.onlyMember?, Json.valuesOf, different]

theorem onlyMember?_second (different : other ≠ name) :
    Json.onlyMember? name [(other, first), (name, second)] = some second := by
  simp [Json.onlyMember?, Json.valuesOf, different]

theorem rereadable_text (depth : Nat) (value : String) : Rereadable depth (.text value) := by
  simp [Rereadable]

theorem rereadable_pair (one : Rereadable depth first) (two : Rereadable depth second) :
    Rereadable (depth + 1) (.object [(name, first), (other, second)]) := by
  intro entry member
  simp only [List.mem_cons, List.not_mem_nil, or_false] at member
  rcases member with rfl | rfl
  · exact one
  · exact two

/-! ## Notifications and requests -/

theorem rereadable_codeJson (depth : Nat) (code : Code) : Rereadable depth (codeJson code) := by
  have inRange : Json.InRange code.value := by
    have lower := code.lower
    have upper := code.upper
    constructor <;> omega
  simpa [Rereadable, codeJson] using inRange

theorem rereadable_arguments {signal : Signal} (finite : signal.IsFinite) :
    ∀ argument ∈ arguments signal, Rereadable depth argument := by
  have progress : ∀ {value : Float}, value.isFinite = true → Rereadable depth (.float value) := by
    intro value finite
    simpa [Rereadable] using finite
  cases signal with
  | encryptProgress device name value =>
      simp [arguments, rereadable_text, progress finite]
  | decryptProgress device name value =>
      simp [arguments, rereadable_text, progress finite]
  | prepareEncryptDiskResult device name reserved code =>
      simp [arguments, rereadable_text, rereadable_codeJson]
  | encryptDiskResult device name code =>
      simp [arguments, rereadable_text, rereadable_codeJson]
  | decryptDiskResult device name reserved code =>
      simp [arguments, rereadable_text, rereadable_codeJson]
  | changePassphraseResult device name reserved code =>
      simp [arguments, rereadable_text, rereadable_codeJson]

theorem rereadable_signalJson {signal : Signal} (finite : signal.IsFinite) :
    Rereadable (depth + 2) (signalJson signal) :=
  rereadable_pair (rereadable_text _ _) (rereadable_arguments finite)

theorem rereadable_requestJson (device : Device) : Rereadable (depth + 1) (requestJson device) :=
  rereadable_pair (rereadable_text _ _) (rereadable_text _ _)

theorem code?_codeJson (code : Code) : code? (codeJson code) = some code :=
  Code.ofInt?_eq_some_iff.mpr rfl

theorem signal?_arguments (signal : Signal) :
    signal? signal.channel (rereadItems (arguments signal)) = some signal.reread := by
  have code : ∀ code, code? (Json.reread (codeJson code)) = some code := code?_codeJson
  cases signal <;>
    simp [Signal.channel, arguments, rereadItems, Json.reread, signal?, Signal.reread, code,
      progress?]

theorem signalOf?_signalJson (signal : Signal) :
    signalOf? (Json.reread (signalJson signal)) = some signal.reread := by
  have members : Json.reread (signalJson signal) = .object
      [("signal", .text signal.channel.name), ("args", .array (rereadItems (arguments signal)))] :=
    rfl
  rw [members, signalOf?, onlyMember?_first (by decide), onlyMember?_second (by decide)]
  simp [taggedChannel?, Channel.ofName?_name, signal?_arguments]

theorem signalOf?_requestJson (device : Device) :
    signalOf? (Json.reread (requestJson device)) = none := by
  have members : Json.reread (requestJson device) = .object
      [("request", .text requestName), ("device", .text device.path)] := rfl
  have noSignal : Json.onlyMember? "signal"
      [("request", .text requestName), ("device", .text device.path)] = none := by
    simp [Json.onlyMember?, Json.valuesOf]
  rw [members, signalOf?, noSignal]
  rfl

theorem requestOf?_requestJson (device : Device) :
    requestOf? (Json.reread (requestJson device)) = some device := by
  have members : Json.reread (requestJson device) = .object
      [("request", .text requestName), ("device", .text device.path)] := rfl
  rw [members, requestOf?, onlyMember?_first (by decide), onlyMember?_second (by decide)]
  simp [namesRequest]

/-! ## Lines -/

theorem read_object {members : List (String × Json)}
    (rereadable : Rereadable depthLimit (.object members)) {arrived : Inbound}
    (means : inboundOf? (Json.reread (.object members)) = some arrived) :
    WireLine.read (Text.encode (Json.object members).compact) = .inbound arrived := by
  have line : ObjectLine (Json.object members).compact (Json.rereadMembers members) :=
    .of_standsFor (Json.standsFor_compact rereadable)
  have written : Text.isBlankText (Json.object members).compact = false := by
    have chars := Json.toList_compact_object members []
    rw [List.append_nil] at chars
    rw [Text.isBlankText, chars, List.all_cons]
    rfl
  have decoded : decodeLine (Json.object members).compact = .ok arrived :=
    (decodeLine_eq_ok_iff line).mpr means
  simp only [WireLine.read, Text.decode?_encode, written, Bool.false_eq_true, if_false, decoded]

theorem read_encode {message : Inbound} (finite : message.IsFinite) :
    WireLine.read (Text.encode (encode message)) = .inbound message.reread := by
  cases message with
  | signal notification =>
      apply read_object (rereadable_signalJson finite)
      have means := signalOf?_signalJson notification
      rw [signalJson] at means
      rw [inboundOf?, means]
      rfl
  | passwordRequest device =>
      apply read_object (rereadable_requestJson device)
      have noSignal := signalOf?_requestJson device
      have means := requestOf?_requestJson device
      rw [requestJson] at noSignal means
      rw [inboundOf?, noSignal, means]
      rfl

theorem printed_encode (message : Inbound) : ∀ c ∈ (encode message).toList, 32 ≤ c.toNat := by
  cases message with
  | signal notification => exact Json.printed_compact (signalJson notification)
  | passwordRequest device => exact Json.printed_compact (requestJson device)

theorem lines_messages (messages : List Inbound) :
    Text.lines (Text.stream (messages.map encode)) =
      messages.map fun message => Text.encode (encode message) := by
  rw [Text.lines_stream, List.map_map]
  · rfl
  · intro text member
    obtain ⟨message, -, rfl⟩ := List.mem_map.mp member
    exact printed_encode message

theorem lines_replies (replies : List Reply) :
    Text.lines (Text.stream (replies.map encodeReply)) =
      replies.map fun reply => Text.encode (encodeReply reply) := by
  rw [Text.lines_stream, List.map_map]
  · rfl
  · intro text member
    obtain ⟨reply, -, rfl⟩ := List.mem_map.mp member
    exact Json.printed_compact (replyJson reply)

theorem ofText_encodeReply (reply : Reply) :
    Json.ofText (encodeReply reply) = .ok (replyJson reply) := by
  have rereadable : Rereadable depthLimit (replyJson reply) := by
    intro entry member
    simp only [List.mem_cons, List.not_mem_nil, or_false] at member
    rcases member with rfl | rfl | rfl <;> simp [Rereadable]
  rw [encodeReply, Json.ofText, Json.ofTextAs_compact rereadable]
  rfl

/-- Messages that are sent one to a line arrive in order, each with every field as it was, the
progress of a tick aside, which arrives as the number that its digits stand for.  Replies are as
many lines as they are, whatever secrets they hold. -/
theorem messages_read_back :
    (∀ messages : List Inbound, (∀ message ∈ messages, message.IsFinite) →
      let sent := Text.stream (messages.map encode)
      (Text.lines sent).map WireLine.read =
        messages.map (fun message => .inbound message.reread) ∧
      ∀ {σ : Type} (desk : Desk σ) clock dispatcher host,
        (Replay.readAll desk clock dispatcher sent host).value.1.skipped = 0) ∧
    ∀ replies : List Reply,
      Text.lines (Text.stream (replies.map encodeReply)) =
        replies.map (fun reply => Text.encode (encodeReply reply)) ∧
      ∀ reply ∈ replies, Json.ofText (encodeReply reply) = .ok (replyJson reply) := by
  constructor
  · intro messages finite
    have read : ∀ message ∈ messages,
        WireLine.read (Text.encode (encode message)) = .inbound message.reread :=
      fun message member => read_encode (finite message member)
    constructor
    · rw [lines_messages, List.map_map]
      exact List.map_congr_left read
    · intro σ desk clock dispatcher host
      apply Replay.skipped_readLines
      rw [lines_messages]
      intro line member
      obtain ⟨message, source, rfl⟩ := List.mem_map.mp member
      exact ⟨message.reread, read message source⟩
  · intro replies
    exact ⟨lines_replies replies, fun reply _ => ofText_encodeReply reply⟩

/-- A tick of a device whose texts hold what has to be escaped, and a request for another one. -/
def oddMessages : List Inbound :=
  [.signal (.encryptProgress "/dev/\"a\\\n" "\x01é😀" 37.5), .passwordRequest ⟨"\r\n\t\x7d"⟩]

theorem odd_messages_read_back :
    (∀ message ∈ oddMessages, message.IsFinite) ∧
      (Text.lines (Text.stream (oddMessages.map encode))).map WireLine.read =
        oddMessages.map .inbound := by
  have finite : ∀ message ∈ oddMessages, message.IsFinite := by
    have progress : (37.5 : Float).isFinite = true := by decide +kernel
    simpa [oddMessages, Inbound.IsFinite, Signal.IsFinite] using progress
  have same : Json.rereadFloat 37.5 = 37.5 := by decide +kernel
  have reread : oddMessages.map (fun message => WireLine.inbound message.reread) =
      oddMessages.map .inbound := by
    simp [oddMessages, Inbound.reread, Signal.reread, same]
  exact ⟨finite, reread ▸ (messages_read_back.1 oddMessages finite).1⟩

end Wire

end DiskWarden
