import DiskWarden.Proofs.Connection.Lines
import DiskWarden.Proofs.Dispatch.Offers
import DiskWarden.Proofs.Registry.Keys
import DiskWarden.Proofs.Text.Encoded
import Mathlib.Logic.Relation

/-!
# The account of a replay

A text is replayed to its end.  Each of its lines that are not blank is counted once: as a
notification, as a request or as skipped.  The results are those of the notifications that report
the end of an operation, and neither they nor the jobs that are left nor what is shown depends on
any other line.
-/

namespace DiskWarden

/-! ## Lines -/

namespace WireLine

/-- Whether a line is a text of blanks. -/
def isBlank (line : Text.Octets) : Bool := (Text.decode? line).any Text.isBlankText

/-- Whether a line is a text that asks for a password. -/
def isRequest (line : Text.Octets) : Bool :=
  match (Text.decode? line).map Wire.decodeLine with
  | some (.ok (.passwordRequest _)) => true
  | _ => false

/-- Whether a line is a text, not of blanks, that holds no message. -/
def isMalformed (line : Text.Octets) : Bool :=
  match (Text.decode? line).map Wire.decodeLine with
  | some (.error _) => !isBlank line
  | _ => false

variable {line : Text.Octets} {rest : List Text.Octets}

theorem isText_of_isEncoded (encoded : Text.IsEncoded line) : IsText line := by
  have some := encoded.isSome_decode?
  unfold IsText read
  cases decoded : Text.decode? line with
  | none =>
      rw [decoded] at some
      cases some
  | some text =>
      simp only
      split
      · exact WireLine.noConfusion
      · split <;> exact WireLine.noConfusion

/-- What kind of line is read, told by what the line is. -/
theorem kinds_of_read (line : Text.Octets) :
    isBlank line = (match read line with | .blank => true | _ => false) ∧
    isRequest line = (match read line with | .inbound (.passwordRequest _) => true | _ => false) ∧
    isMalformed line = (match read line with | .malformed _ => true | _ => false) := by
  unfold isMalformed isRequest isBlank read
  cases Text.decode? line with
  | none => exact ⟨rfl, rfl, rfl⟩
  | some text =>
      by_cases blank : Text.isBlankText text = true
      · simp [blank, decodeLine_of_isBlankText blank]
      · simp only [Option.map_some, Option.any_some, blank]
        cases Wire.decodeLine text with
        | error cause => simp
        | ok arrived => cases arrived <;> simp

/-- A line with a notification is of no other kind. -/
theorem kinds_of_signal? {sent : Signal} (holds : signal? line = some sent) :
    read line = .inbound (.signal sent) ∧ isBlank line = false ∧ isRequest line = false ∧
      isMalformed line = false := by
  have ⟨blank_eq, request_eq, malformed_eq⟩ := kinds_of_read line
  rw [signal?_eq] at holds
  split at holds
  · next read_eq =>
      cases holds
      rw [blank_eq, request_eq, malformed_eq, read_eq]
      exact ⟨rfl, rfl, rfl, rfl⟩
  · cases holds

theorem signals_cons (line : Text.Octets) (rest : List Text.Octets) :
    signals (line :: rest) = (signal? line).toList ++ signals rest := by
  unfold signals
  rw [List.filterMap_cons]
  cases signal? line <;> rfl

/-- A text that is not blank is of one kind, and a blank one of none. -/
theorem count_kinds_eq (text : IsText line) :
    (signal? line).toList.length + (isRequest line).toNat + (isMalformed line).toNat =
      (!isBlank line).toNat := by
  have ⟨blank_eq, request_eq, malformed_eq⟩ := kinds_of_read line
  rw [blank_eq, request_eq, malformed_eq, signal?_eq]
  cases holds : read line with
  | broken => exact absurd holds text
  | blank => rfl
  | malformed cause => rfl
  | inbound arrived => cases arrived <;> rfl

theorem countP_cons_toNat (kind : Text.Octets → Bool) :
    (line :: rest).countP kind = (kind line).toNat + rest.countP kind := by
  rw [List.countP_cons, Nat.add_comm]
  cases kind line <;> rfl

theorem countP_not_isBlank {lines : List Text.Octets} (text : ∀ line ∈ lines, IsText line) :
    (signals lines).length + lines.countP isRequest + lines.countP isMalformed =
      lines.countP fun line => !isBlank line := by
  induction lines with
  | nil => rfl
  | cons line rest inductionHypothesis =>
      rw [List.forall_mem_cons] at text
      have first := count_kinds_eq text.1
      have later := inductionHypothesis text.2
      rw [signals_cons, List.length_append, countP_cons_toNat, countP_cons_toNat,
        countP_cons_toNat]
      omega

/-! ## Lines that are passed over -/

/-- One more line, which is blank, a request or malformed. -/
inductive AddsLine : List Text.Octets → List Text.Octets → Prop
  | intro (front rest : List Text.Octets) {line : Text.Octets}
      (passedOver : isBlank line = true ∨ isRequest line = true ∨ isMalformed line = true) :
      AddsLine (front ++ rest) (front ++ line :: rest)

/-- A line is added where a line of the input ends, or in front of all of them. -/
theorem addsLine_lines {front rest : Text.Octets} (ended : ∀ octet ∈ front.getLast?, octet = 0x0A)
    (isLine : Text.IsLine line)
    (passedOver : isBlank line = true ∨ isRequest line = true ∨ isMalformed line = true) :
    AddsLine (Text.lines (front ++ rest)) (Text.lines (front ++ (line ++ 0x0A :: rest))) := by
  rw [Text.lines_append ended, Text.lines_append ended, Text.lines_append_cons isLine]
  exact .intro _ _ passedOver

theorem signal?_of_passedOver
    (passedOver : isBlank line = true ∨ isRequest line = true ∨ isMalformed line = true) :
    signal? line = none := by
  cases holds : signal? line with
  | none => rfl
  | some sent =>
      have ⟨_, notBlank, noRequest, notMalformed⟩ := kinds_of_signal? holds
      simp [notBlank, noRequest, notMalformed] at passedOver

theorem AddsLine.signals_eq {first second : List Text.Octets} (adds : AddsLine first second) :
    signals first = signals second := by
  cases adds with
  | @intro front rest line passedOver =>
      unfold signals
      rw [List.filterMap_append, List.filterMap_append, List.filterMap_cons,
        signal?_of_passedOver passedOver]

/-- Adding and deleting such lines leaves the notifications as they are. -/
theorem signals_eq_of_edited {first second : List Text.Octets}
    (edited : Relation.EqvGen AddsLine first second) : signals first = signals second := by
  induction edited with
  | rel first second adds => exact adds.signals_eq
  | refl lines => rfl
  | symm first second _ inductionHypothesis => exact inductionHypothesis.symm
  | trans first second third _ _ earlier later => exact earlier.trans later

end WireLine

/-! ## Results -/

/-- What a notification reports of an operation that came to its end. -/
def Signal.reported? (sent : Signal) : Option (Device × Operation × Outcome) :=
  match sent.notification with
  | .progress .. => none
  | .result operation code => some (sent.device, operation, classify operation code)

/-- What a result is about, and what came of it. -/
def ReplayedResult.summary (result : ReplayedResult) : Device × Operation × Outcome :=
  (result.device, result.operation, result.outcome)

namespace Replay

open Dispatcher WireLine

variable {σ : Type} (desk : Desk σ) (clock : Nat → Instant) (dispatcher : Dispatcher) (host : σ)

/-- The results of some notifications with their times. -/
def resultsFrom (dispatcher : Dispatcher) : List (Instant × Signal) → σ → List ReplayedResult
  | [], _ => []
  | (now, sent) :: later, host =>
      let handled := (Dispatcher.dispatch desk dispatcher now sent host).value
      resultOf handled.1.1 ++ resultsFrom handled.1.2 later handled.2

theorem summary_resultOf_dispatch (now : Instant) (sent : Signal) :
    (resultOf (Dispatcher.dispatch desk dispatcher now sent host).value.1.1).map
      ReplayedResult.summary = sent.reported?.toList := by
  unfold Dispatcher.dispatch Signal.reported?
  cases sent.notification with
  | progress kind value =>
      rw [onTick_value]
      rfl
  | result operation code =>
      rw [(onResult_eq desk dispatcher host now sent.device sent.displayName operation code).1]
      rfl

/-- There is one result for each notification that reports one, whatever the registry holds. -/
theorem summaries_resultsFrom (sent : List (Instant × Signal)) :
    (resultsFrom desk dispatcher sent host).map ReplayedResult.summary =
      (sent.map Prod.snd).filterMap Signal.reported? := by
  induction sent generalizing dispatcher host with
  | nil => rfl
  | cons first later inductionHypothesis =>
      rw [resultsFrom, List.map_append, summary_resultOf_dispatch, inductionHypothesis,
        List.map_cons, List.filterMap_cons]
      cases first.2.reported? <;> rfl

theorem map_snd_timed (count : Nat) (signals : List Signal) :
    (timed clock count signals).map Prod.snd = signals := by
  induction signals generalizing count with
  | nil => rfl
  | cons signal signals inductionHypothesis =>
      rw [timed, List.map_cons, inductionHypothesis]

/-! ## The account -/

variable {desk clock dispatcher host} {line : Text.Octets} {lines rest : List Text.Octets}
  {replay reached : Replay} {number : Nat}

/-- A line without a notification is counted by its kind, and that is all. -/
theorem value_readLines_cons (text : IsText line) (none : signal? line = none) :
    (readLines desk clock number (line :: rest) replay host).value =
      (readLines desk clock (number + 1) rest
        { replay with
          requests := replay.requests + (isRequest line).toNat
          skipped := replay.skipped + (isMalformed line).toNat } host).value := by
  have ⟨_, request_eq, malformed_eq⟩ := kinds_of_read line
  rw [signal?_eq] at none
  rw [request_eq, malformed_eq, readLines]
  cases holds : WireLine.read line with
  | broken => exact absurd holds text
  | blank => rfl
  | malformed cause => rfl
  | inbound arrived =>
      cases arrived with
      | passwordRequest device => rfl
      | signal sent =>
          rw [holds] at none
          cases none

theorem readLines_cons_of_signal {sent : Signal} (holds : signal? line = some sent) :
    readLines desk clock number (line :: rest) replay =
      dispatch desk (clock replay.signals) sent replay >>=
        readLines desk clock (number + 1) rest := by
  rw [readLines, (kinds_of_signal? holds).1]

/-- What the lines of a text add to an account. -/
structure Tallies (desk : Desk σ) (clock : Nat → Instant) (lines : List Text.Octets)
    (replay reached : Replay) (host : σ) : Prop where
  requests_eq : reached.requests = replay.requests + lines.countP isRequest
  skipped_eq : reached.skipped = replay.skipped + lines.countP isMalformed
  results_eq : reached.results = replay.results ++
    resultsFrom desk replay.dispatcher (timed clock replay.signals (WireLine.signals lines)) host

theorem Tallies.cons (none : signal? line = none)
    (tallies : Tallies desk clock rest
      { replay with
        requests := replay.requests + (isRequest line).toNat
        skipped := replay.skipped + (isMalformed line).toNat } reached host) :
    Tallies desk clock (line :: rest) replay reached host where
  requests_eq := by rw [tallies.requests_eq, countP_cons_toNat, Nat.add_assoc]
  skipped_eq := by rw [tallies.skipped_eq, countP_cons_toNat, Nat.add_assoc]
  results_eq := by
    rw [tallies.results_eq, signals_cons, none]
    rfl

/-- A notification is dispatched, and may add a result. -/
theorem Tallies.dispatch {sent : Signal} (holds : signal? line = some sent)
    (tallies :
      let handled := Replay.dispatch desk (clock replay.signals) sent replay host
      Tallies desk clock rest handled.value.1 reached handled.value.2) :
    Tallies desk clock (line :: rest) replay reached host := by
  have ⟨_, _, noRequest, notMalformed⟩ := kinds_of_signal? holds
  have ⟨requests_eq, skipped_eq, results_eq⟩ := tallies
  refine ⟨?_, ?_, ?_⟩
  · rw [requests_eq, countP_cons_toNat, noRequest, Bool.toNat_false, Nat.zero_add]
    rfl
  · rw [skipped_eq, countP_cons_toNat, notMalformed, Bool.toNat_false, Nat.zero_add]
    rfl
  · rw [results_eq, signals_cons, holds]
    exact List.append_assoc _ _ _

theorem tallies_readLines (number : Nat) (text : ∀ line ∈ lines, IsText line) :
    Tallies desk clock lines replay (readLines desk clock number lines replay host).value.1
      host := by
  induction lines generalizing number replay host with
  | nil => exact ⟨rfl, rfl, (List.append_nil _).symm⟩
  | cons line rest inductionHypothesis =>
      rw [List.forall_mem_cons] at text
      cases holds : signal? line with
      | none =>
          rw [value_readLines_cons text.1 holds]
          exact .cons holds (inductionHypothesis (number + 1) text.2)
      | some sent =>
          rw [readLines_cons_of_signal holds, Act.bind_apply]
          exact .dispatch holds (inductionHypothesis (number + 1) text.2)

/-- What a replay of a text comes to, told by the notifications of its lines alone but for the
two other counts. -/
structure Accounts (desk : Desk σ) (clock : Nat → Instant) (dispatcher : Dispatcher)
    (lines : List Text.Octets) (host : σ) (replayed : Traced DeskEvent (Option Replay × σ))
    (account : Replay) : Prop where
  account_eq : replayed.value.1 = some account
  signals_eq : account.signals = (WireLine.signals lines).length
  requests_eq : account.requests = lines.countP isRequest
  skipped_eq : account.skipped = lines.countP isMalformed
  results_eq : account.results =
    resultsFrom desk dispatcher (timed clock 0 (WireLine.signals lines)) host
  left_eq : (account.dispatcher, replayed.value.2) =
    (dispatchAll desk dispatcher (timed clock 0 (WireLine.signals lines)) host).value
  events_eq : replayed.events =
    (dispatchAll desk dispatcher (timed clock 0 (WireLine.signals lines)) host).events

theorem exists_accounts (desk : Desk σ) (clock : Nat → Instant) (dispatcher : Dispatcher)
    (capture : String) (host : σ) :
    ∃ account, Accounts desk clock dispatcher (Text.lines (Text.encode capture)) host
      (run desk clock dispatcher (Text.encode capture) host) account := by
  have text : ∀ line ∈ Text.lines (Text.encode capture), IsText line :=
    fun line member => isText_of_isEncoded (Text.isEncoded_lines capture line member)
  have dispatches := dispatches_readAll desk clock dispatcher (Text.encode capture) host
  have whole := dispatches.whole_iff.mpr text
  have tallies : Tallies desk clock _ (start dispatcher) _ host := tallies_readLines 1 text
  have ⟨left_eq, events_eq, signals_eq, _⟩ := dispatches
  -- no line ends the replay before the last, so none of the notifications is cut off
  rw [Connection.textOf_eq_self text] at left_eq events_eq signals_eq
  refine ⟨(readAll desk clock dispatcher (Text.encode capture) host).value.1, ?_, ?_, ?_, ?_, ?_,
    left_eq, ?_⟩
  · simp only [run, Act.bind_apply, Act.pure_apply, whole]
    rfl
  · rw [signals_eq, Nat.zero_add]
  · exact tallies.requests_eq.trans (Nat.zero_add _)
  · exact tallies.skipped_eq.trans (Nat.zero_add _)
  · exact tallies.results_eq
  · rw [← events_eq]
    exact List.append_nil _

theorem registryAfter_after (window : Nat) (calls : List RegistryCall)
    (sent : List (Instant × Signal)) :
    registryAfter (.after window calls) sent =
      .after window (calls ++ sent.filterMap fun entry => entry.2.call? entry.1) := by
  induction sent generalizing calls with
  | nil => exact congrArg _ (List.append_nil calls).symm
  | cons first later inductionHypothesis =>
      rw [registryAfter, List.filterMap_cons]
      cases first.2.call? first.1 with
      | none => exact inductionHypothesis calls
      | some call =>
          rw [Option.elim_some, ← Registry.after_concat, inductionHypothesis, List.append_assoc]
          rfl

/-- The registry that is left has come about by the calls before the replay and those of the
notifications. -/
theorem Accounts.registry_eq {window : Nat} {calls : List RegistryCall} {defers : Bool}
    {replayed : Traced DeskEvent (Option Replay × σ)} {account : Replay}
    (accounts : Accounts desk clock ⟨.after window calls, defers⟩ lines host replayed account) :
    account.dispatcher.registry = .after window
      (calls ++ (timed clock 0 (WireLine.signals lines)).filterMap fun entry =>
        entry.2.call? entry.1) := by
  have left := (dispatchAll_left desk ⟨.after window calls, defers⟩ host
    (timed clock 0 (WireLine.signals lines))).1
  rw [← accounts.left_eq] at left
  rw [← registryAfter_after]
  exact congrArg Dispatcher.registry left

/-- Lines with the same notifications come to the same results, jobs and events. -/
theorem Accounts.agree {others : List Text.Octets}
    {replayed again : Traced DeskEvent (Option Replay × σ)} {account account' : Replay}
    (accounts : Accounts desk clock dispatcher lines host replayed account)
    (accounts' : Accounts desk clock dispatcher others host again account')
    (same : WireLine.signals lines = WireLine.signals others) :
    account'.results = account.results ∧ account'.activeJobs = account.activeJobs ∧
      again.events = replayed.events ∧ again.value.2 = replayed.value.2 := by
  have left_eq := accounts.left_eq
  rw [same, ← accounts'.left_eq] at left_eq
  have ⟨dispatcher_eq, host_eq⟩ := Prod.mk.inj left_eq
  refine ⟨?_, ?_, ?_, host_eq.symm⟩
  · rw [accounts.results_eq, accounts'.results_eq, same]
  · rw [activeJobs, activeJobs, dispatcher_eq]
  · rw [accounts.events_eq, accounts'.events_eq, same]

/-- Whatever calls have made up the registry, a text is replayed to its end, with each line that
is not blank counted once, a result for each notification that reports one, and the jobs that are
then tracked in the strict order of their keys.  Blank lines, requests and malformed lines can be
added and deleted, and nothing but their numbers changes. -/
theorem account_of_text (desk : Desk σ) (clock : Nat → Instant) (window : Nat)
    (calls : List RegistryCall) (defers : Bool) (capture : String) (host : σ) :
    let dispatcher : Dispatcher := ⟨.after window calls, defers⟩
    let lines := Text.lines (Text.encode capture)
    let replayed := run desk clock dispatcher (Text.encode capture) host
    ∃ account, replayed.value.1 = some account ∧
      (account.signals = (WireLine.signals lines).length ∧
        account.requests = lines.countP isRequest ∧
        account.skipped = lines.countP isMalformed ∧
        account.signals + account.requests + account.skipped =
          lines.countP fun line => !isBlank line) ∧
      account.results.map ReplayedResult.summary =
        (WireLine.signals lines).filterMap Signal.reported? ∧
      (account.dispatcher.registry = .after window
          (calls ++ (timed clock 0 (WireLine.signals lines)).filterMap fun entry =>
            entry.2.call? entry.1) ∧
        (account.activeJobs.Pairwise fun first second => first.key.Precedes second.key) ∧
        ∀ job, job ∈ account.activeJobs ↔
          account.dispatcher.registry.job? job.key = some job) ∧
      ∀ edited : String,
        Relation.EqvGen AddsLine lines (Text.lines (Text.encode edited)) →
        let again := run desk clock dispatcher (Text.encode edited) host
        ∃ account', again.value.1 = some account' ∧ account'.results = account.results ∧
          account'.activeJobs = account.activeJobs ∧ again.events = replayed.events ∧
          again.value.2 = replayed.value.2 := by
  intro dispatcher lines replayed
  have ⟨account, accounts⟩ := exists_accounts desk clock dispatcher capture host
  have text : ∀ line ∈ lines, IsText line :=
    fun line member => isText_of_isEncoded (Text.isEncoded_lines capture line member)
  have keyed : account.dispatcher.registry.IsKeyed :=
    accounts.registry_eq ▸ Registry.isKeyed_after window _
  refine ⟨account, accounts.account_eq, ⟨accounts.signals_eq, accounts.requests_eq,
    accounts.skipped_eq, ?_⟩, ?_, ⟨accounts.registry_eq, ?_, ?_⟩, ?_⟩
  · rw [accounts.signals_eq, accounts.requests_eq, accounts.skipped_eq]
    exact countP_not_isBlank text
  · rw [accounts.results_eq, summaries_resultsFrom, map_snd_timed]
  · exact keyed.pairwise_sortedJobs
  · exact fun job => keyed.mem_sortedJobs_iff
  · intro edited same again
    have ⟨account', accounts'⟩ := exists_accounts desk clock dispatcher edited host
    exact ⟨account', accounts'.account_eq, accounts.agree accounts' (signals_eq_of_edited same)⟩

/-- The result of an encryption that was not tracked. -/
def resultText : String :=
  "\x7b\"signal\":\"EncryptDiskResult\",\"args\":[\"/dev/sda1\",\"root\",0]\x7d\n"

/-- A malformed line in front of a result is counted, and deleting it leaves the result and the
jobs as they are. -/
theorem account_without_garbage :
    let lines := Text.lines (Text.encode ("garbage\n" ++ resultText))
    let replay := fun capture : String =>
      run Connection.quietDesk id ⟨.after 3 [], false⟩ (Text.encode capture) ()
    Relation.EqvGen AddsLine lines (Text.lines (Text.encode resultText)) ∧
      ∃ account, (replay ("garbage\n" ++ resultText)).value.1 = some account ∧
        account.signals + account.requests + account.skipped = 2 ∧
        account.results.map ReplayedResult.summary = [(⟨"/dev/sda1"⟩, .encrypt, .success)] ∧
        ∃ account', (replay resultText).value.1 = some account' ∧
          account'.results = account.results ∧ account'.activeJobs = account.activeJobs := by
  intro lines replay
  have octets : Text.encode ("garbage\n" ++ resultText) =
      [] ++ (Text.encode "garbage" ++ 0x0A :: Text.encode resultText) := by
    decide +kernel
  have isLine : Text.IsLine (Text.encode "garbage") :=
    ⟨by decide +kernel, by decide +kernel⟩
  have garbage : isMalformed (Text.encode "garbage") = true := by decide +kernel
  have adds := @addsLine_lines _ [] (Text.encode resultText) (by simp) isLine (.inr (.inr garbage))
  rw [← octets, List.nil_append] at adds
  have edited : Relation.EqvGen AddsLine lines (Text.lines (Text.encode resultText)) :=
    .symm _ _ (.rel _ _ adds)
  have ⟨account, account_eq, counts, summaries, _, law⟩ :=
    account_of_text Connection.quietDesk id 3 [] false ("garbage\n" ++ resultText) ()
  have ⟨account', account'_eq, results_eq, jobs_eq, _⟩ := law _ edited
  refine ⟨edited, account, account_eq, ?_, ?_, account', account'_eq, results_eq, jobs_eq⟩
  · rw [counts.2.2.2]
    decide +kernel
  · rw [summaries]
    decide +kernel

end Replay

end DiskWarden
