import DiskWarden.Proofs.Text.Cuts
import DiskWarden.Terminal

/-!
# Prompts take their lines in order

Prompts that read from an input go through its lines from left to right.  Each takes one line, or
two if the first is an empty PIN and a passphrase may stand in for it, and the next prompt goes on
behind that.  A line that is no text is lost to the prompt that takes it and to no other.
-/

namespace DiskWarden.Terminal

/-- The lines that a prompt takes, those behind them, and its answer. -/
inductive Serves (fallback : Bool) :
    PromptMode → List Text.Octets → List Text.Octets → Except Fault PromptResponse → Prop
  | entered {mode : PromptMode} {line : Text.Octets} {later : List Text.Octets} {text : String}
      (holds : Text.Holds line text) (kept : ¬ (mode = .pin ∧ fallback = true ∧ text = "")) :
      Serves fallback mode [line] later (.ok ⟨mode, text, true⟩)
  | broken {mode : PromptMode} {line : Text.Octets} {later : List Text.Octets}
      (noText : Text.decode? line = none) :
      Serves fallback mode [line] later (.error (.prompt Text.notUtf8))
  | ended {mode : PromptMode} : Serves fallback mode [] [] (.ok ⟨mode, "", false⟩)
  /-- An empty PIN makes the lines behind it answer for a passphrase. -/
  | fallsBack {line : Text.Octets} {taken later : List Text.Octets}
      {answer : Except Fault PromptResponse} (falls : fallback = true)
      (empty : Text.Holds line "") (serves : Serves fallback .password taken later answer) :
      Serves fallback .pin (line :: taken) later answer

/-- The lines that some prompts take one after the other, those that are left, and the answers. -/
inductive ServesAll (fallback : Bool) :
    List PromptMode → List (List Text.Octets) → List Text.Octets →
      List (Except Fault PromptResponse) → Prop
  | done {left : List Text.Octets} : ServesAll fallback [] [] left []
  | next {mode : PromptMode} {modes : List PromptMode} {taken : List Text.Octets}
      {rest : List (List Text.Octets)} {left : List Text.Octets}
      {answer : Except Fault PromptResponse} {answers : List (Except Fault PromptResponse)}
      (serves : Serves fallback mode taken (rest.flatten ++ left) answer)
      (later : ServesAll fallback modes rest left answers) :
      ServesAll fallback (mode :: modes) (taken :: rest) left (answer :: answers)

/-- Prompts one after the other, each with the input that the one before has left. -/
def promptAll (fallback : Bool) :
    List PromptMode → Text.Octets → List (Except Fault PromptResponse) × Text.Octets
  | [], input => ([], input)
  | mode :: modes, input =>
      let (answer, later) := promptForSecret fallback mode input
      let (answers, left) := promptAll fallback modes later
      (answer :: answers, left)

variable {fallback : Bool} {mode : PromptMode} {input line later : Text.Octets}
  {lines : List Text.Octets}

/-! ## Reading a line -/

/-- A line is a text or it is none. -/
theorem exists_holds_or_broken (line : Text.Octets) :
    (∃ text, Text.Holds line text) ∨ Text.decode? line = none := by
  cases decoded : Text.decode? line with
  | none => exact .inr rfl
  | some whole =>
      refine .inl ⟨Text.trimLineEnd whole, Text.holds_iff.mpr ?_⟩
      rw [decoded, Option.map_some]

theorem respond_of_end (cuts : Text.Cuts input []) :
    respond mode input = (.ok ⟨mode, "", false⟩, input) := by
  simp only [respond, readLine, cuts.takeLine_nil]

theorem respond_of_text {text : String} (taken : Text.takeLine input = some (line, later))
    (holds : Text.Holds line text) :
    respond mode input = (.ok ⟨mode, text, true⟩, later) := by
  have trimmed := Text.holds_iff.mp holds
  rw [Option.map_eq_some_iff] at trimmed
  obtain ⟨whole, decoded, same⟩ := trimmed
  simp only [respond, readLine, taken, decoded, same]

theorem respond_of_broken (taken : Text.takeLine input = some (line, later))
    (noText : Text.decode? line = none) :
    respond mode input = (.error (.prompt Text.notUtf8), later) := by
  simp only [respond, readLine, taken, noText]

/-! ## Prompts -/

theorem promptForSecret_of_end (cuts : Text.Cuts input []) :
    promptForSecret fallback mode input = (.ok ⟨mode, "", false⟩, input) := by
  cases mode <;> simp [promptForSecret, respond_of_end cuts]

theorem promptForSecret_of_broken (taken : Text.takeLine input = some (line, later))
    (noText : Text.decode? line = none) :
    promptForSecret fallback mode input = (.error (.prompt Text.notUtf8), later) := by
  cases mode <;> simp [promptForSecret, respond_of_broken taken noText]

theorem promptForSecret_of_text {text : String}
    (taken : Text.takeLine input = some (line, later)) (holds : Text.Holds line text)
    (kept : ¬ (mode = .pin ∧ fallback = true ∧ text = "")) :
    promptForSecret fallback mode input = (.ok ⟨mode, text, true⟩, later) := by
  cases mode with
  | password => exact respond_of_text taken holds
  | pin =>
      simp only [promptForSecret, respond_of_text taken holds]
      rw [if_neg]
      simpa using kept

/-- An empty PIN asks for a passphrase in its place, as if that had been asked for. -/
theorem promptForSecret_of_empty (taken : Text.takeLine input = some (line, later))
    (empty : Text.Holds line "") :
    promptForSecret true .pin input = promptForSecret true .password later := by
  simp [promptForSecret, respond_of_text taken empty]

/-- A prompt takes lines from the front of an input and leaves the others. -/
structure Reads (fallback : Bool) (mode : PromptMode) (lines : List Text.Octets)
    (prompted : Except Fault PromptResponse × Text.Octets) (taken left : List Text.Octets) :
    Prop where
  lines_eq : lines = taken ++ left
  serves : Serves fallback mode taken left prompted.1
  cuts : Text.Cuts prompted.2 left

theorem reads_of_end (cuts : Text.Cuts input []) :
    Reads fallback mode [] (promptForSecret fallback mode input) [] [] := by
  rw [promptForSecret_of_end cuts]
  exact ⟨rfl, .ended, cuts⟩

theorem reads_of_kept (taken : Text.takeLine input = some (line, later))
    (cuts : Text.Cuts later lines)
    (kept : ¬ (mode = .pin ∧ fallback = true ∧ Text.Holds line "")) :
    Reads fallback mode (line :: lines) (promptForSecret fallback mode input) [line] lines := by
  rcases exists_holds_or_broken line with ⟨text, holds⟩ | noText
  · have notEmpty : ¬ (mode = .pin ∧ fallback = true ∧ text = "") := by
      rintro ⟨isPin, falls, rfl⟩
      exact kept ⟨isPin, falls, holds⟩
    rw [promptForSecret_of_text taken holds notEmpty]
    exact ⟨rfl, .entered holds notEmpty, cuts⟩
  · rw [promptForSecret_of_broken taken noText]
    exact ⟨rfl, .broken noText, cuts⟩

theorem exists_reads_password (fallback : Bool) (cuts : Text.Cuts input lines) :
    ∃ taken left,
      Reads fallback .password lines (promptForSecret fallback .password input) taken left := by
  cases lines with
  | nil => exact ⟨[], [], reads_of_end cuts⟩
  | cons line lines =>
      obtain ⟨later, taken, cutsLater⟩ := cuts.takeLine_cons
      exact ⟨[line], lines, reads_of_kept taken cutsLater fun falls => nomatch falls.1⟩

theorem exists_reads (fallback : Bool) (mode : PromptMode) (cuts : Text.Cuts input lines) :
    ∃ taken left, Reads fallback mode lines (promptForSecret fallback mode input) taken left := by
  cases lines with
  | nil => exact ⟨[], [], reads_of_end cuts⟩
  | cons line lines =>
      obtain ⟨later, taken, cutsLater⟩ := cuts.takeLine_cons
      by_cases falls : mode = .pin ∧ fallback = true ∧ Text.Holds line ""
      · obtain ⟨rfl, rfl, empty⟩ := falls
        obtain ⟨behind, left, reads⟩ := exists_reads_password true cutsLater
        rw [promptForSecret_of_empty taken empty]
        refine ⟨line :: behind, left, ?_, .fallsBack rfl empty reads.serves, reads.cuts⟩
        rw [reads.lines_eq, List.cons_append]
      · exact ⟨[line], lines, reads_of_kept taken cutsLater falls⟩

/-- The lines of an input settle what a prompt is answered. -/
theorem Serves.promptForSecret_eq {taken left : List Text.Octets}
    {answer : Except Fault PromptResponse} (serves : Serves fallback mode taken left answer)
    (cuts : Text.Cuts input (taken ++ left)) : (promptForSecret fallback mode input).1 = answer := by
  induction serves generalizing input with
  | entered holds kept =>
      have ⟨later, taken, _⟩ := cuts.takeLine_cons
      rw [promptForSecret_of_text taken holds kept]
  | broken noText =>
      have ⟨later, taken, _⟩ := cuts.takeLine_cons
      rw [promptForSecret_of_broken taken noText]
  | ended => rw [promptForSecret_of_end cuts]
  | fallsBack falls empty _ inductionHypothesis =>
      subst falls
      have ⟨later, taken, cutsLater⟩ := cuts.takeLine_cons
      rw [promptForSecret_of_empty taken empty]
      exact inductionHypothesis cutsLater

/-- A passphrase that was asked for is no PIN. -/
theorem Serves.mode_of_password {taken left : List Text.Octets} {response : PromptResponse}
    (serves : Serves fallback .password taken left (.ok response)) :
    response.mode = .password := by
  cases serves <;> rfl

/-- Where a passphrase may stand in for it, a PIN is what its line holds and not empty. -/
theorem Serves.holds_pin {taken left : List Text.Octets} {response : PromptResponse}
    (serves : Serves true .pin taken left (.ok response)) (accepted : response.accepted = true)
    (isPin : response.mode = .pin) :
    response.entered ≠ "" ∧ ∃ line, taken = [line] ∧ Text.Holds line response.entered := by
  cases serves with
  | entered holds kept => exact ⟨fun empty => kept ⟨rfl, rfl, empty⟩, _, rfl, holds⟩
  | ended => cases accepted
  | fallsBack falls empty serves =>
      rw [serves.mode_of_password] at isPin
      cases isPin

/-! ## Runs -/

theorem exists_servesAll (fallback : Bool) (modes : List PromptMode)
    (cuts : Text.Cuts input lines) :
    ∃ taken left, lines = taken.flatten ++ left ∧
      Text.Cuts (promptAll fallback modes input).2 left ∧
      ServesAll fallback modes taken left (promptAll fallback modes input).1 := by
  induction modes generalizing input lines with
  | nil => exact ⟨[], lines, rfl, cuts, .done⟩
  | cons mode modes inductionHypothesis =>
      obtain ⟨front, behind, reads⟩ := exists_reads fallback mode cuts
      obtain ⟨rest, left, rfl, cutsLeft, serves⟩ := inductionHypothesis reads.cuts
      refine ⟨front :: rest, left, ?_, cutsLeft, .next reads.serves serves⟩
      rw [reads.lines_eq, List.flatten_cons, List.append_assoc]

/-- A run of prompts goes through the lines of an input from left to right: each takes what it
needs from the front of those that the ones before have left, and nothing is taken twice or passed
over. -/
theorem prompts_take_lines_in_order (fallback : Bool) (modes : List PromptMode)
    (input : Text.Octets) :
    let prompted := promptAll fallback modes input
    ∃ taken left, Text.Cuts input (taken.flatten ++ left) ∧ Text.Cuts prompted.2 left ∧
      ServesAll fallback modes taken left prompted.1 := by
  intro prompted
  obtain ⟨lines, cuts⟩ := Text.exists_cuts input
  obtain ⟨taken, left, rfl, cutsLeft, serves⟩ := exists_servesAll fallback modes cuts
  exact ⟨taken, left, cuts, cutsLeft, serves⟩

-- An empty PIN, a passphrase, a line that is no text, and a PIN without a line feed.
example :
    (promptAll true [.pin, .password, .pin, .pin]
      (Text.encode "\r\nsecret\r\n" ++ [0xFF, 0x0A] ++ Text.encode "4321")).1 =
    [.ok ⟨.password, "secret", true⟩, .error (.prompt Text.notUtf8), .ok ⟨.pin, "4321", true⟩,
      .ok ⟨.pin, "", false⟩] := by
  decide +kernel

end DiskWarden.Terminal
