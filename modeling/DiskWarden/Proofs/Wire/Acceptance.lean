import DiskWarden.Proofs.Json.RoundTrip
import DiskWarden.Wire

/-!
# Which objects are messages

A line that holds an object is a notification or a request by four of its members alone, wherever
they stand and whatever else the object holds.  The others have no say, and neither has white
space.
-/

namespace DiskWarden

namespace Json

/-! ## Members by name -/

/-- No member has a given name. -/
def Lacks (name : String) (members : List (String × Json)) : Prop :=
  ∀ member ∈ members, member.1 ≠ name

/-- Exactly one member has a given name, and it has a given value. -/
def Only (name : String) (value : Json) (members : List (String × Json)) : Prop :=
  ∃ before after, members = before ++ (name, value) :: after ∧ Lacks name before ∧
    Lacks name after

/-- The members with a given name, if there are any, are texts. -/
def OnlyTexts (name : String) (members : List (String × Json)) : Prop :=
  ∀ value, (name, value) ∈ members → ∃ written, value = .text written

variable {name : String} {value : Json} {members others before after : List (String × Json)}

theorem valuesOf_append (name : String) (before after : List (String × Json)) :
    valuesOf name (before ++ after) = valuesOf name before ++ valuesOf name after := by
  rw [valuesOf, List.filter_append, List.map_append]
  rfl

theorem valuesOf_cons_self (name : String) (value : Json) (members : List (String × Json)) :
    valuesOf name ((name, value) :: members) = value :: valuesOf name members := by
  simp [valuesOf]

theorem valuesOf_eq_nil_iff : valuesOf name members = [] ↔ Lacks name members := by
  simp [valuesOf, Lacks]

theorem onlyMember?_eq_some_iff_valuesOf :
    onlyMember? name members = some value ↔ valuesOf name members = [value] := by
  unfold onlyMember?
  split
  · next only => simp [only]
  · next several =>
      constructor
      · intro impossible
        cases impossible
      · intro only
        exact absurd only (several value)

theorem onlyMember?_eq_some_iff :
    onlyMember? name members = some value ↔ Only name value members := by
  rw [onlyMember?_eq_some_iff_valuesOf]
  constructor
  · intro only
    have some : (name, value) ∈ members := by
      have listed : value ∈ valuesOf name members := by
        rw [only]
        exact List.mem_singleton_self value
      simpa [valuesOf] using listed
    obtain ⟨before, after, rfl⟩ := List.append_of_mem some
    rw [valuesOf_append, valuesOf_cons_self, List.append_eq_singleton_iff] at only
    rcases only with ⟨front, back⟩ | ⟨-, back⟩
    · exact ⟨before, after, rfl, valuesOf_eq_nil_iff.mp front,
        valuesOf_eq_nil_iff.mp (List.cons.inj back).2⟩
    · cases back
  · rintro ⟨before, after, rfl, front, back⟩
    rw [valuesOf_append, valuesOf_cons_self, valuesOf_eq_nil_iff.mpr front,
      valuesOf_eq_nil_iff.mpr back, List.nil_append]

theorem Only.mem (only : Only name value members) : (name, value) ∈ members := by
  obtain ⟨before, after, rfl, -, -⟩ := only
  exact List.mem_append_right before List.mem_cons_self

theorem Lacks.not_only (lacks : Lacks name members) : ¬ Only name value members :=
  fun only => lacks (name, value) only.mem rfl

/-- Members that do not count, and the order of those that do, make no difference. -/
theorem onlyMember?_eq_of_perm {counts : String × Json → Bool}
    (perm : (members.filter counts).Perm (others.filter counts))
    (named : ∀ value, counts (name, value) = true) :
    onlyMember? name members = onlyMember? name others := by
  have kept : ∀ list : List (String × Json),
      valuesOf name (list.filter counts) = valuesOf name list := by
    intro list
    rw [valuesOf, valuesOf, List.filter_filter]
    congr 1
    apply List.filter_congr
    rintro ⟨other, value⟩ -
    by_cases same : other = name
    · simp [same, named]
    · simp [same]
  have values : (valuesOf name members).Perm (valuesOf name others) := by
    rw [← kept members, ← kept others]
    exact (perm.filter _).map _
  apply Option.ext
  intro value
  rw [onlyMember?_eq_some_iff_valuesOf, onlyMember?_eq_some_iff_valuesOf]
  constructor
  · intro only
    rw [only] at values
    exact List.perm_singleton.mp values.symm
  · intro only
    rw [only] at values
    exact List.perm_singleton.mp values

end Json

/-! ## What messages say -/

/-- The texts that name a channel: its name, and the misspelt one of older daemons. -/
def Channel.IsNamed (channel : Channel) (written : String) : Prop :=
  written = channel.name ∨ written = "ChangePassphressResult" ∧ channel = changePassphraseResult

theorem Channel.ofName?_eq_some_iff {channel : Channel} {written : String} :
    Channel.ofName? written = some channel ↔ channel.IsNamed written := by
  unfold Channel.ofName?
  split
  · next older =>
      have apart : ∀ channel : Channel, olderName ≠ channel.name := by
        intro channel
        cases channel <;> decide
      constructor
      · intro same
        exact .inr ⟨older, (Option.some.inj same).symm⟩
      · rintro (current | ⟨-, rfl⟩)
        · exact absurd (older.symm.trans current) (apart channel)
        · rfl
  · next other =>
      constructor
      · intro found
        have same := List.find?_some found
        rw [beq_iff_eq] at same
        exact .inl same.symm
      · rintro (rfl | ⟨older, -⟩)
        · cases channel <;> decide
        · exact absurd older other

namespace Wire

open Json (Lacks Only OnlyTexts StandsFor depthLimit onlyMember? Spaces LeafForm TextForm Bracketed
  MemberForm spaces_nil textForm_flatMap)

/-- The progress that a number tells: a double as it is, and an integer as the double that it is
converted to. -/
inductive Tells : Json → Float → Prop
  | unsigned (n : Nat) : Tells (.integer n) n.toUInt64.toFloat
  | negative (n : Nat) : Tells (.integer (-(n + 1 : Nat))) (-(n + 1).toUInt64.toFloat)
  | double (value : Float) : Tells (.float value) value

theorem progress?_eq_some_iff {number : Json} {value : Float} :
    progress? number = some value ↔ Tells number value := by
  constructor
  · intro holds
    match number with
    | .integer (.ofNat n) =>
        cases holds
        exact .unsigned n
    | .integer (.negSucc n) =>
        cases holds
        exact .negative n
    | .float _ =>
        cases holds
        exact .double value
    | .null | .bool _ | .text _ | .array _ | .object _ => cases holds
  · intro tells
    cases tells <;> rfl

theorem code?_eq_some_iff {number : Json} {code : Code} :
    code? number = some code ↔ number = .integer code.value := by
  cases number with
  | integer value =>
      rw [code?, Code.ofInt?_eq_some_iff, Json.integer.injEq]
      exact eq_comm
  | _ => simp [code?]

/-- The arguments of a notification: texts, and then the code of a result or the progress of a
tick.  The text called `reserved` is kept as well. -/
inductive Carries : Signal → List Json → Prop
  | prepareEncryptDiskResult (device name reserved : String) (code : Code) :
      Carries (.prepareEncryptDiskResult device name reserved code)
        [.text device, .text name, .text reserved, .integer code.value]
  | encryptDiskResult (device name : String) (code : Code) :
      Carries (.encryptDiskResult device name code)
        [.text device, .text name, .integer code.value]
  | encryptProgress (device name : String) {number : Json} {progress : Float}
      (tells : Tells number progress) :
      Carries (.encryptProgress device name progress) [.text device, .text name, number]
  | decryptDiskResult (device name reserved : String) (code : Code) :
      Carries (.decryptDiskResult device name reserved code)
        [.text device, .text name, .text reserved, .integer code.value]
  | decryptProgress (device name : String) {number : Json} {progress : Float}
      (tells : Tells number progress) :
      Carries (.decryptProgress device name progress) [.text device, .text name, number]
  | changePassphraseResult (device name reserved : String) (code : Code) :
      Carries (.changePassphraseResult device name reserved code)
        [.text device, .text name, .text reserved, .integer code.value]

theorem signal?_eq_some_iff {channel : Channel} {arguments : List Json} {signal : Signal} :
    signal? channel arguments = some signal ↔
      signal.channel = channel ∧ Carries signal arguments := by
  constructor
  · intro holds
    unfold signal? at holds
    split at holds
    · obtain ⟨code, number, rfl⟩ := Option.map_eq_some_iff.mp holds
      obtain rfl := code?_eq_some_iff.mp number
      exact ⟨rfl, .prepareEncryptDiskResult _ _ _ code⟩
    · obtain ⟨code, number, rfl⟩ := Option.map_eq_some_iff.mp holds
      obtain rfl := code?_eq_some_iff.mp number
      exact ⟨rfl, .encryptDiskResult _ _ code⟩
    · obtain ⟨progress, number, rfl⟩ := Option.map_eq_some_iff.mp holds
      exact ⟨rfl, .encryptProgress _ _ (progress?_eq_some_iff.mp number)⟩
    · obtain ⟨code, number, rfl⟩ := Option.map_eq_some_iff.mp holds
      obtain rfl := code?_eq_some_iff.mp number
      exact ⟨rfl, .decryptDiskResult _ _ _ code⟩
    · obtain ⟨progress, number, rfl⟩ := Option.map_eq_some_iff.mp holds
      exact ⟨rfl, .decryptProgress _ _ (progress?_eq_some_iff.mp number)⟩
    · obtain ⟨code, number, rfl⟩ := Option.map_eq_some_iff.mp holds
      obtain rfl := code?_eq_some_iff.mp number
      exact ⟨rfl, .changePassphraseResult _ _ _ code⟩
    · cases holds
  · rintro ⟨rfl, carries⟩
    have number : ∀ code : Code, code? (.integer code.value) = some code :=
      fun code => code?_eq_some_iff.mpr rfl
    cases carries with
    | encryptProgress device name tells | decryptProgress device name tells =>
        simp [Signal.channel, signal?, progress?_eq_some_iff.mpr tells]
    | _ => simp [Signal.channel, signal?, number]

/-- Whether an object is a notification: exactly one member `signal` names the channel, and exactly
one member `args` holds the arguments. -/
def Announces (members : List (String × Json)) (signal : Signal) : Prop :=
  ∃ written arguments, Only "signal" (.text written) members ∧ signal.channel.IsNamed written ∧
    Only "args" (.array arguments) members ∧ Carries signal arguments

/-- Whether an object is a request: exactly one member `request` names it, and exactly one member
`device` is the device. -/
def Requests (members : List (String × Json)) (device : Device) : Prop :=
  Only "request" (.text "AcquireDevicePassword") members ∧ Only "device" (.text device.path) members

theorem signalOf?_eq_some_iff {members : List (String × Json)} (texts : OnlyTexts "signal" members)
    {signal : Signal} :
    signalOf? (.object members) = some signal ↔ Announces members signal := by
  constructor
  · intro holds
    simp only [signalOf?, bind, Option.bind_eq_some_iff] at holds
    obtain ⟨channel, ⟨tag, tagged, named⟩, content, contents, holds⟩ := holds
    rw [Json.onlyMember?_eq_some_iff] at tagged contents
    obtain ⟨written, rfl⟩ := texts tag tagged.mem
    cases content with
    | array arguments =>
        obtain ⟨rfl, carries⟩ := signal?_eq_some_iff.mp holds
        exact ⟨written, arguments, tagged, Channel.ofName?_eq_some_iff.mp named, contents, carries⟩
    | _ => cases holds
  · rintro ⟨written, arguments, tagged, named, contents, carries⟩
    rw [← Json.onlyMember?_eq_some_iff] at tagged contents
    have channel := Channel.ofName?_eq_some_iff.mpr named
    have holds := signal?_eq_some_iff.mpr ⟨rfl, carries⟩
    simp [signalOf?, tagged, contents, taggedChannel?, channel, holds]

theorem requestOf?_eq_some_iff {members : List (String × Json)}
    (texts : OnlyTexts "request" members) {device : Device} :
    requestOf? (.object members) = some device ↔ Requests members device := by
  constructor
  · intro holds
    simp only [requestOf?, bind, Option.bind_eq_some_iff] at holds
    obtain ⟨tag, tagged, content, contents, holds⟩ := holds
    rw [Json.onlyMember?_eq_some_iff] at tagged contents
    obtain ⟨written, rfl⟩ := texts tag tagged.mem
    cases content with
    | text path =>
        simp only [namesRequest, beq_iff_eq] at holds
        split at holds
        · next same =>
            cases holds
            rw [same, requestName] at tagged
            exact ⟨tagged, contents⟩
        · cases holds
    | _ => cases holds
  · rintro ⟨tagged, contents⟩
    rw [← Json.onlyMember?_eq_some_iff] at tagged contents
    simp [requestOf?, tagged, contents, namesRequest, requestName]

/-! ## Lines -/

/-- A line that holds an object: a text that stands for it, and white space at both ends. -/
def ObjectLine (line : String) (members : List (String × Json)) : Prop :=
  ∃ before chars after, line.toList = before ++ (chars ++ after) ∧
    (∀ c ∈ before, Text.isBlank c = true) ∧ (∀ c ∈ after, Text.isBlank c = true) ∧
    StandsFor depthLimit chars (.object members)

theorem ObjectLine.of_standsFor {line : String} {members : List (String × Json)}
    (stands : StandsFor depthLimit line.toList (.object members)) : ObjectLine line members := by
  have none : ∀ c ∈ ([] : List Char), Text.isBlank c = true := fun _ member => nomatch member
  exact ⟨[], line.toList, [], by simp, none, none, stands⟩

/-- White space at both ends of what starts and ends with something else is trimmed. -/
theorem trimChars_enclosed {before chars after : List Char} {front back : Char}
    (blankBefore : ∀ c ∈ before, Text.isBlank c = true)
    (blankAfter : ∀ c ∈ after, Text.isBlank c = true) (opens : Text.isBlank front = false)
    (closes : Text.isBlank back = false) :
    Text.trimChars (before ++ (front :: (chars ++ [back]) ++ after)) =
      front :: (chars ++ [back]) := by
  have start : (before ++ (front :: (chars ++ [back]) ++ after)).dropWhile Text.isBlank =
      front :: (chars ++ [back]) ++ after := by
    rw [List.dropWhile_append_of_pos blankBefore, List.cons_append, List.dropWhile_cons_of_neg]
    simp [opens]
  have reversed : (front :: (chars ++ [back]) ++ after).reverse =
      after.reverse ++ (back :: (chars.reverse ++ [front])) := by
    simp
  have blankReverse : ∀ c ∈ after.reverse, Text.isBlank c = true := by
    simpa using blankAfter
  rw [Text.trimChars, start, Text.dropEndWhile, reversed,
    List.dropWhile_append_of_pos blankReverse, List.dropWhile_cons_of_neg]
  · simp
  · simp [closes]

theorem decodeLine_of_objectLine {line : String} {members : List (String × Json)}
    (holds : ObjectLine line members) :
    decodeLine line =
      match inboundOf? (.object members) with
      | none => .error .mismatched
      | some arrived => .ok arrived := by
  obtain ⟨before, chars, after, split, front, back, stands⟩ := holds
  have trimmed : (Text.trim line).toList = chars := by
    rw [Text.trim, String.toList_ofList, split]
    cases stands with
    | leaf form =>
        cases form with
        | number _ _ holds => cases holds
    | object form => exact trimChars_enclosed front back (by decide) (by decide)
  rw [← trimmed] at stands
  rw [decodeLine, Json.ofTextAs_of_standsFor stands]
  cases inboundOf? (.object members) <;> rfl

theorem decodeLine_eq_ok_iff {line : String} {members : List (String × Json)}
    (holds : ObjectLine line members) {arrived : Inbound} :
    decodeLine line = .ok arrived ↔ inboundOf? (.object members) = some arrived := by
  rw [decodeLine_of_objectLine holds]
  cases inboundOf? (.object members) <;> simp

theorem Announces.not_lacks {members : List (String × Json)} {signal : Signal}
    (announces : Announces members signal) : ¬ Lacks "signal" members := by
  obtain ⟨written, arguments, tagged, -⟩ := announces
  exact fun lacks => lacks.not_only tagged

theorem Requests.not_lacks {members : List (String × Json)} {device : Device}
    (requests : Requests members device) : ¬ Lacks "request" members :=
  fun lacks => lacks.not_only requests.1

/-- The names of the members that count. -/
def countedNames : List String := ["signal", "args", "request", "device"]

def counted (members : List (String × Json)) : List (String × Json) :=
  members.filter fun member => countedNames.contains member.1

theorem inboundOf?_eq_of_perm {members others : List (String × Json)}
    (perm : (counted members).Perm (counted others)) :
    inboundOf? (.object members) = inboundOf? (.object others) := by
  have same : ∀ name ∈ countedNames, onlyMember? name members = onlyMember? name others := by
    intro name member
    apply Json.onlyMember?_eq_of_perm perm
    intro value
    exact List.elem_eq_true_of_mem member
  have signals : signalOf? (.object members) = signalOf? (.object others) := by
    rw [signalOf?, signalOf?, same "signal" (by decide), same "args" (by decide)]
  have requests : requestOf? (.object members) = requestOf? (.object others) := by
    rw [requestOf?, requestOf?, same "request" (by decide), same "device" (by decide)]
  rw [inboundOf?, inboundOf?, signals, requests]

/-- Tags that name the same channel make no difference. -/
theorem inboundOf?_eq_of_tags {first second : Json}
    (same : taggedChannel? first = taggedChannel? second) (before after : List (String × Json)) :
    inboundOf? (.object (before ++ ("signal", first) :: after)) =
      inboundOf? (.object (before ++ ("signal", second) :: after)) := by
  have tagged : (onlyMember? "signal" (before ++ ("signal", first) :: after)).bind taggedChannel? =
      (onlyMember? "signal" (before ++ ("signal", second) :: after)).bind taggedChannel? := by
    unfold onlyMember?
    rw [Json.valuesOf_append, Json.valuesOf_append, Json.valuesOf_cons_self,
      Json.valuesOf_cons_self]
    cases Json.valuesOf "signal" before with
    | nil =>
        cases Json.valuesOf "signal" after with
        | nil => exact same
        | cons => rfl
    | cons value values => cases values <;> rfl
  have others : ∀ name, name ≠ "signal" → ∀ value,
      onlyMember? name (before ++ ("signal", value) :: after) =
        onlyMember? name (before ++ after) := by
    intro name different value
    simp [onlyMember?, Json.valuesOf, different.symm]
  have signals : signalOf? (.object (before ++ ("signal", first) :: after)) =
      signalOf? (.object (before ++ ("signal", second) :: after)) := by
    rw [signalOf?, signalOf?, tagged, others "args" (by decide), others "args" (by decide)]
  have requests : requestOf? (.object (before ++ ("signal", first) :: after)) =
      requestOf? (.object (before ++ ("signal", second) :: after)) := by
    rw [requestOf?, requestOf?, others "request" (by decide), others "request" (by decide),
      others "device" (by decide), others "device" (by decide)]
  rw [inboundOf?, inboundOf?, signals, requests]

/-- An object that asks for nothing is a notification exactly if its members say so. -/
theorem decodeLine_eq_signal_iff {line : String} {members : List (String × Json)}
    (holds : ObjectLine line members) (signalTexts : OnlyTexts "signal" members)
    (requestTexts : OnlyTexts "request" members) (noRequest : Lacks "request" members)
    (arrived : Inbound) :
    decodeLine line = .ok arrived ↔
      ∃ signal, arrived = .signal signal ∧ Announces members signal := by
  rw [decodeLine_eq_ok_iff holds, inboundOf?]
  constructor
  · intro means
    split at means
    · next signal announced =>
        cases means
        exact ⟨signal, rfl, (signalOf?_eq_some_iff signalTexts).mp announced⟩
    · obtain ⟨device, requested, -⟩ := Option.map_eq_some_iff.mp means
      have requests := (requestOf?_eq_some_iff requestTexts).mp requested
      exact absurd noRequest requests.not_lacks
  · rintro ⟨signal, rfl, announces⟩
    rw [(signalOf?_eq_some_iff signalTexts).mpr announces]

/-- An object that announces nothing is a request exactly if its members say so. -/
theorem decodeLine_eq_request_iff {line : String} {members : List (String × Json)}
    (holds : ObjectLine line members) (signalTexts : OnlyTexts "signal" members)
    (requestTexts : OnlyTexts "request" members) (noSignal : Lacks "signal" members)
    (arrived : Inbound) :
    decodeLine line = .ok arrived ↔
      ∃ device, arrived = .passwordRequest device ∧ Requests members device := by
  have unannounced : signalOf? (.object members) = none := by
    rw [Option.eq_none_iff_forall_ne_some]
    intro signal announced
    exact ((signalOf?_eq_some_iff signalTexts).mp announced).not_lacks noSignal
  rw [decodeLine_eq_ok_iff holds, inboundOf?, unannounced, Option.map_eq_some_iff]
  constructor
  · rintro ⟨device, requested, rfl⟩
    exact ⟨device, rfl, (requestOf?_eq_some_iff requestTexts).mp requested⟩
  · rintro ⟨device, rfl, requests⟩
    exact ⟨device, (requestOf?_eq_some_iff requestTexts).mpr requests, rfl⟩

/-- An object whose members `signal` and `request` are texts is a notification or a request exactly
if the members that count say so, each of them once.  The order of the members, the other members
and white space make no difference, and the misspelt name of a channel is as good as the right
one. -/
theorem object_lines_decoded :
    (∀ line members, ObjectLine line members →
      OnlyTexts "signal" members → OnlyTexts "request" members →
      (Lacks "request" members → Lacks "device" members → ∀ arrived,
        decodeLine line = .ok arrived ↔
          ∃ signal, arrived = .signal signal ∧ Announces members signal) ∧
      (Lacks "signal" members → Lacks "args" members → ∀ arrived,
        decodeLine line = .ok arrived ↔
          ∃ device, arrived = .passwordRequest device ∧ Requests members device)) ∧
    (∀ line other members others, ObjectLine line members → ObjectLine other others →
      (counted members).Perm (counted others) → decodeLine line = decodeLine other) ∧
    ∀ line other before after,
      ObjectLine line (before ++ ("signal", .text "ChangePassphressResult") :: after) →
      ObjectLine other (before ++ ("signal", .text "ChangePassphraseResult") :: after) →
      decodeLine line = decodeLine other := by
  refine ⟨?_, ?_, ?_⟩
  · intro line members holds signalTexts requestTexts
    exact ⟨fun noRequest _ => decodeLine_eq_signal_iff holds signalTexts requestTexts noRequest,
      fun noSignal _ => decodeLine_eq_request_iff holds signalTexts requestTexts noSignal⟩
  · intro line other members others holds otherHolds perm
    rw [decodeLine_of_objectLine holds, decodeLine_of_objectLine otherHolds,
      inboundOf?_eq_of_perm perm]
  · intro line other before after holds otherHolds
    have same : taggedChannel? (.text "ChangePassphressResult") =
        taggedChannel? (.text "ChangePassphraseResult") := by decide
    rw [decodeLine_of_objectLine holds, decodeLine_of_objectLine otherHolds,
      inboundOf?_eq_of_tags same]

/-- A line with white space between its parts, an escaped letter, the arguments before their tag, a
member that does not count, and the misspelt name. -/
def oddLine : String :=
  "\u2003\x7b \"args\": [\"/dev/sdb2\",\"h\\u006fme\" ,\"\", -4],\"seq\" :null, " ++
    "\"signal\":\"ChangePassphressResult\"\x7d\r\n"

def oddArguments : List Json := [.text "/dev/sdb2", .text "home", .text "", .integer (-4)]

def oddMembers : List (String × Json) :=
  [("args", .array oddArguments), ("seq", .null), ("signal", .text "ChangePassphressResult")]

theorem objectLine_oddLine : ObjectLine oddLine oddMembers := by
  have space : Spaces [' '] := by simp [Spaces, Json.isSpace]
  have home : TextForm "h\\u006fme".toList "home".toList :=
    .cons (.plain (by decide) (by decide) (by decide)) <|
      .cons (@Json.CharForm.unit "006f".toList 'o' ⟨by decide, by decide⟩)
        (textForm_flatMap ['m', 'e'])
  have code : LeafForm ['-', '4'] (.integer (-4)) :=
    @LeafForm.number ⟨true, ['4'], [], none⟩ [] (.integer (-4))
      ⟨⟨by simp, .inr ⟨'4', [], rfl, by decide⟩⟩, by simp⟩ .absent
      (.integer ⟨rfl, rfl, by decide, by decide, by decide⟩)
  have quoted : ∀ value : String,
      LeafForm ('"' :: (value.toList.flatMap Json.escapeChar ++ ['"'])) (.text value) :=
    fun value => .text (textForm_flatMap value.toList)
  have arguments : Bracketed (StandsFor 125) _ oddArguments := .some <|
    .more spaces_nil ((quoted "/dev/sdb2").standsFor 125) spaces_nil <|
      .more spaces_nil ((LeafForm.text home).standsFor 125) space <|
        .more spaces_nil ((quoted "").standsFor 125) spaces_nil <|
          .last space (code.standsFor 125) spaces_nil
  have tag := (quoted "ChangePassphressResult").standsFor 126
  have members : Bracketed (MemberForm (StandsFor 126)) _ oddMembers := .some <|
    .more space (.pair (textForm_flatMap "args".toList) spaces_nil space (.array arguments))
        spaces_nil <|
      .more spaces_nil (.pair (textForm_flatMap "seq".toList) space spaces_nil
          (LeafForm.null.standsFor 126)) spaces_nil <|
        .last space (.pair (textForm_flatMap "signal".toList) spaces_nil spaces_nil tag) spaces_nil
  exact ⟨['\u2003'], _, ['\r', '\n'], by decide +kernel, by simp [Text.isBlank],
    by simp [Text.isBlank], .object members⟩

/-- A request with its device first. -/
def lateRequest : List (String × Json) :=
  [("device", .text "/dev/sda1"), ("request", .text "AcquireDevicePassword")]

theorem objectLine_lateRequest : ObjectLine (Json.object lateRequest).compact lateRequest := by
  apply ObjectLine.of_standsFor
  apply Json.standsFor_compact
  intro member listed
  simp only [lateRequest, List.mem_cons, List.not_mem_nil, or_false] at listed
  rcases listed with rfl | rfl <;> simp [Json.Rereadable]

theorem odd_lines_decoded :
    decodeLine oddLine =
        .ok (.signal (.changePassphraseResult "/dev/sdb2" "home" "" ⟨-4, by decide, by decide⟩)) ∧
      decodeLine (Json.object lateRequest).compact = .ok (.passwordRequest ⟨"/dev/sda1"⟩) := by
  have oddTexts : OnlyTexts "signal" oddMembers ∧ OnlyTexts "request" oddMembers := by
    simp [OnlyTexts, oddMembers]
  have oddLacks : Lacks "request" oddMembers ∧ Lacks "device" oddMembers := by
    simp [Lacks, oddMembers]
  have requestTexts : OnlyTexts "signal" lateRequest ∧ OnlyTexts "request" lateRequest := by
    simp [OnlyTexts, lateRequest]
  have requestLacks : Lacks "signal" lateRequest ∧ Lacks "args" lateRequest := by
    simp [Lacks, lateRequest]
  constructor
  · have decoded := object_lines_decoded.1 oddLine oddMembers objectLine_oddLine oddTexts.1
      oddTexts.2
    apply (decoded.1 oddLacks.1 oddLacks.2 _).mpr
    refine ⟨_, rfl, "ChangePassphressResult", oddArguments, ?_, .inr ⟨rfl, rfl⟩, ?_,
      .changePassphraseResult _ _ _ ⟨-4, by decide, by decide⟩⟩
    · exact ⟨[("args", .array oddArguments), ("seq", .null)], [], rfl, by simp [Lacks],
        by simp [Lacks]⟩
    · exact ⟨[], [("seq", .null), ("signal", .text "ChangePassphressResult")], rfl,
        by simp [Lacks], by simp [Lacks]⟩
  · have decoded := object_lines_decoded.1 _ lateRequest objectLine_lateRequest requestTexts.1
      requestTexts.2
    apply (decoded.2 requestLacks.1 requestLacks.2 _).mpr
    refine ⟨_, rfl, ?_, ?_⟩
    · exact ⟨[("device", .text "/dev/sda1")], [], rfl, by simp [Lacks], by simp [Lacks]⟩
    · exact ⟨[], [("request", .text "AcquireDevicePassword")], rfl, by simp [Lacks],
        by simp [Lacks]⟩

end Wire

end DiskWarden
