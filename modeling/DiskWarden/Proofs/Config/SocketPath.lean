import DiskWarden.Proofs.Config.Starter
import DiskWarden.Proofs.Toml.Leaves
import DiskWarden.Proofs.Toml.Spliced

/-!
# The path of the socket in a starter file

A starter file gets the path of the socket as it is, between the double quotes of one of its
lines.  It is read back exactly if every character of it is plain.
-/

namespace DiskWarden.Config.Starter

open Toml (IsPlain Statement)

/-! ## The lines around the path -/

/-- The text of a starter file before the path. -/
def opening : String := String.join ((lines.take 4).map Prod.fst) ++ "socket_path = \""

/-- The lines of a starter file behind the path. -/
def closing : String := String.join ((lines.drop 5).map Prod.fst)

theorem template_eq (socketPath : String) :
    template socketPath = opening ++ socketPath ++ ("\"\n" ++ closing) := by
  unfold template
  simp only [@String.append_assoc (_ ++ socketPath)]
  refine congrArg₂ (· ++ ·) (congrArg (· ++ socketPath) ?_) ?_
  · decide +kernel
  · decide +kernel

theorem toList_template (socketPath : String) :
    (template socketPath).toList =
      opening.toList ++ (socketPath.toList ++ '"' :: '\n' :: closing.toList) := by
  have feed : "\"\n".toList = ['"', '\n'] := by decide
  rw [template_eq, String.toList_append, String.toList_append, String.toList_append, feed,
    List.append_assoc]
  rfl

theorem toList_opening :
    opening.toList = (String.join ((lines.take 4).map Prod.fst)).toList ++
      "socket_path = \"".toList := by
  rw [opening, String.toList_append]

theorem head?_template (socketPath : String) :
    (template socketPath).toList.head? ≠ some Toml.byteOrderMark := by
  rw [toList_template, toList_opening, String.toList_join, lines, List.take_succ_cons,
    List.map_cons, List.flatMap_cons, String.toList_ofList]
  change some '#' ≠ some Toml.byteOrderMark
  decide

/-! ## Plain paths -/

/-- The standard settings with another path of the socket. -/
def standardAt (socketPath : String) : Config :=
  { Config.standard with agent := { Agent.standard with socketPath } }

theorem isBlock_socketPath {chars : List Char} (plain : ∀ c ∈ chars, IsPlain c) :
    Toml.IsBlock ("socket_path = \"".toList ++ chars ++ ['"', '\n'])
      [.assignment ["socket_path"] (.text (String.ofList chars))] := by
  have reads (rest : List Char) (ends : Toml.EndsValue rest) :
      Toml.readValue Toml.depthLimit ('"' :: chars ++ ['"'] ++ rest) =
        some (.text (String.ofList chars), rest) := by
    have read := Toml.readText_plain plain (ends.ne_of_head? (by decide))
    have split : '"' :: chars ++ ['"'] ++ rest = '"' :: (chars ++ '"' :: rest) := by simp
    rw [split]
    change (Toml.readText _).map _ = _
    rw [read]
    rfl
  have block := Toml.isBlock_assignment "socket_path" (fun _ => rfl) reads
  have key : (Toml.keyText "socket_path").toList ++ " = ".toList ++ ['"'] =
      "socket_path = \"".toList := by decide +kernel
  have split : "socket_path = \"".toList ++ chars ++ ['"', '\n'] =
      (Toml.keyText "socket_path").toList ++ " = ".toList ++ ('"' :: chars ++ ['"']) ++ ['\n'] := by
    rw [← key]
    simp only [List.append_assoc, List.cons_append, List.nil_append]
  rw [split]
  exact block

theorem isBlock_of_subset {part : List Line} (subset : part ⊆ lines) :
    Toml.IsBlock (String.join (part.map Prod.fst)).toList (part.flatMap Prod.snd) :=
  isBlock_join fun line member => isRead_of_mem_lines line (subset member)

theorem ofText?_template_of_plain {socketPath : String}
    (plain : ∀ c ∈ socketPath.toList, IsPlain c) :
    TomlForm.ofText? (template socketPath) = some (standardAt socketPath) := by
  have block := ((isBlock_of_subset (List.take_subset 4 lines)).append
    (isBlock_socketPath plain)).append (isBlock_of_subset (List.drop_subset 5 lines))
  have split : (template socketPath).toList =
      (String.join ((lines.take 4).map Prod.fst)).toList ++
        ("socket_path = \"".toList ++ socketPath.toList ++ ['"', '\n']) ++ closing.toList := by
    rw [toList_template, toList_opening]
    simp only [List.append_assoc, List.cons_append, List.nil_append]
  have reads := block.readsAs
  rw [closing] at split
  rw [← split] at reads
  rw [TomlForm.ofText?, Toml.ofText?_of_readsAs reads (head?_template socketPath),
    String.ofList_toList]
  rfl

/-! ## Any paths -/

theorem readStatements_front (fuel : Nat) (input : List Char) :
    Toml.readStatements (fuel + 4)
        ((String.join ((lines.take 4).map Prod.fst)).toList ++ input) =
      (Toml.readStatements fuel input).bind fun later => some (.header ["agent"] :: later) := by
  simp only [lines, List.take, List.map, String.toList_join, List.flatMap_cons, List.flatMap_nil,
    String.reduceToList, List.cons_append, List.nil_append, List.append_nil]
  rfl

theorem readStatements_socketPath (fuel : Nat) (input : List Char) :
    Toml.readStatements (fuel + 1) ("socket_path = \"".toList ++ input) =
      (Toml.readText ('"' :: input)).bind fun read =>
        (Toml.endLine? (Toml.skipSpace read.2)).bind fun rest =>
          (Toml.readStatements fuel rest).bind fun later =>
            some (.assignment ["socket_path"] (.text read.1) :: later) := by
  have step : Toml.readStatements (fuel + 1) ("socket_path = \"".toList ++ input) =
      ((((Toml.readText ('"' :: input)).map fun read => (Toml.text read.1, read.2)).bind
        fun read => some ((["socket_path"], read.1), Toml.skipSpace read.2)).bind
          fun read => (Toml.endLine? read.2).bind
            fun rest => some (Statement.assignment read.1.1 read.1.2, rest)).bind
              fun read => (Toml.readStatements fuel read.2).bind
                fun later => some (read.1 :: later) := by
    simp only [String.reduceToList, List.cons_append, List.nil_append]
    rfl
  simp only [step, Option.bind_map, Option.bind_assoc, Option.bind_some, Function.comp_def]

/-- A value that the first lines give is that of the finished document. -/
theorem socketPath_of_leaf {members : Toml.Members} {value : String} {config : Config}
    (leaf : Toml.leafAt? ["agent", "socket_path"] members = some (.text value))
    (read : TomlForm.form.config? (.table (Toml.Item.finishMembers members)) = some config) :
    config.agent.socketPath = value := by
  rw [Toml.leafAt?] at leaf
  split at leaf
  · cases leaf
  · next inner open' =>
      rw [Toml.leafAt?] at leaf
      split at leaf
      · next found =>
          cases leaf
          have agent := Toml.lookup_finishMembers members "agent"
          have socketPath := Toml.lookup_finishMembers inner "socket_path"
          rw [open', Option.map_some, Toml.Item.finish] at agent
          rw [found, Option.map_some, Toml.Item.finish] at socketPath
          simp only [Form.config?, TomlForm.form, TomlForm.members?, List.map, agent, Form.member,
            Form.agent?, socketPath, TomlForm.text?, Option.bind_eq_bind, Option.bind_some,
            Option.bind_eq_some_iff] at read
          obtain ⟨_, ⟨_, -, ofAgent⟩, _, -, _, -, _, -, _, -, whole⟩ := read
          cases ofAgent
          cases whole
          rfl
      · cases leaf
      · cases leaf
      · cases leaf
  · cases leaf
  · cases leaf

theorem leafAt?_draft {statements : List Statement} {draft : Toml.Draft} {value : Toml}
    (added : Toml.Draft.empty.addAll
      (.header ["agent"] :: .assignment ["socket_path"] value :: statements) = some draft) :
    Toml.leafAt? ["agent", "socket_path"] draft.members = some value := by
  have header : Toml.Draft.empty.add (.header ["agent"]) =
      some ⟨[("agent", .table .header [])], ["agent"]⟩ :=
    Toml.Draft.add_header (Toml.View.ofRoot []) rfl []
  have assignment : (⟨[("agent", .table .header [])], ["agent"]⟩ : Toml.Draft).add
      (.assignment ["socket_path"] value) =
      some ⟨[("agent", .table .header [("socket_path", .closed value)])], ["agent"]⟩ :=
    Toml.Draft.add_assignment ((Toml.View.ofRoot []).opened "agent") rfl value
  rw [Toml.Draft.addAll, header, Option.bind_eq_bind, Option.bind_some, Toml.Draft.addAll,
    assignment, Option.bind_eq_bind, Option.bind_some] at added
  exact Toml.Draft.leafAt?_addAll added rfl

/-- The path of the socket is what the quotes around it are read as. -/
theorem readText_of_template {socketPath : String} {config : Config}
    (read : TomlForm.ofText? (template socketPath) = some config) :
    ∃ rest, Toml.readText ('"' :: (socketPath.toList ++ '"' :: '\n' :: closing.toList)) =
      some (config.agent.socketPath, rest) := by
  obtain ⟨document, built, taken⟩ := Option.bind_eq_some_iff.mp read
  rw [Toml.ofText?_eq (head?_template socketPath)] at built
  obtain ⟨statements, parsed, built⟩ := Option.bind_eq_some_iff.mp built
  obtain ⟨draft, added, rfl⟩ := Option.map_eq_some_iff.mp built
  obtain ⟨fuel, same⟩ : ∃ fuel, (template socketPath).toList.length + 1 = fuel + 1 + 4 := by
    have long : 4 ≤ opening.toList.length := by decide +kernel
    refine ⟨(template socketPath).toList.length - 4, ?_⟩
    rw [toList_template, List.length_append]
    omega
  rw [same, toList_template, toList_opening, List.append_assoc, readStatements_front,
    readStatements_socketPath] at parsed
  obtain ⟨later, parsed, all⟩ := Option.bind_eq_some_iff.mp parsed
  obtain ⟨⟨value, rest⟩, text, parsed⟩ := Option.bind_eq_some_iff.mp parsed
  obtain ⟨behind, -, parsed⟩ := Option.bind_eq_some_iff.mp parsed
  obtain ⟨remaining, -, given⟩ := Option.bind_eq_some_iff.mp parsed
  cases given
  cases all
  have carried := socketPath_of_leaf (leafAt?_draft added) taken
  rw [carried]
  exact ⟨rest, text⟩

/-- No text of several lines that is opened by the path is closed behind it. -/
theorem not_infix_closing : ¬ ['"', '"', '"'] <:+: closing.toList := by
  simp only [closing, lines, List.drop, List.map, String.toList_join, List.flatMap_cons,
    List.flatMap_nil, String.reduceToList, List.cons_append, List.nil_append, List.append_nil]
  decide +kernel

/-- A starter file carries the path of its socket, with the standard settings otherwise, exactly if
every character of the path is plain.  With any other path it is no document, or one that gives
another path. -/
theorem template_carries_iff (socketPath : String) :
    (TomlForm.ofText? (template socketPath) = some (standardAt socketPath) ↔
        ∀ c ∈ socketPath.toList, IsPlain c) ∧
      ∀ config, TomlForm.ofText? (template socketPath) = some config →
        (config.agent.socketPath = socketPath ↔ ∀ c ∈ socketPath.toList, IsPlain c) := by
  have plain {config : Config} (read : TomlForm.ofText? (template socketPath) = some config)
      (carried : config.agent.socketPath = socketPath) : ∀ c ∈ socketPath.toList, IsPlain c := by
    obtain ⟨rest, text⟩ := readText_of_template read
    rw [carried] at text
    apply (Toml.readText_spliced_iff not_infix_closing).mp
    exact ⟨rest, by rw [text, String.ofList_toList]⟩
  refine ⟨⟨fun read => plain read rfl, ofText?_template_of_plain⟩, fun config read =>
    ⟨plain read, fun plain => ?_⟩⟩
  cases (ofText?_template_of_plain plain).symm.trans read
  rfl

/-- Of a path in a runtime directory and one with a quote in it, only the first is carried. -/
theorem quoted_path_not_carried :
    (standardAt "/run/user/1000/agent.sock").agent.socketPath = "/run/user/1000/agent.sock" ∧
      TomlForm.ofText? (template "/run/user/1000/agent.sock") =
        some (standardAt "/run/user/1000/agent.sock") ∧
      TomlForm.ofText? (template "a\"b") ≠ some (standardAt "a\"b") := by
  have plain : ∀ c ∈ "/run/user/1000/agent.sock".toList, IsPlain c := by
    simp only [String.reduceToList, List.forall_mem_cons, List.not_mem_nil, false_implies,
      implies_true]
    decide
  obtain ⟨carries, samePath⟩ := template_carries_iff "/run/user/1000/agent.sock"
  have read := carries.mpr plain
  refine ⟨(samePath _ read).mpr plain, read, fun quoted => ?_⟩
  have quotePlain := (template_carries_iff "a\"b").1.mp quoted '"' (by decide +kernel)
  exact absurd quotePlain (by decide)

end DiskWarden.Config.Starter
