import DiskWarden.Proofs.Dispatch.Lines
import DiskWarden.Replay

/-!
# What a replay dispatches

A replay dispatches the notifications of the lines before the first that is no text, and comes
to an account exactly if there is no such line.
-/

namespace DiskWarden.Replay

open Dispatcher WireLine

variable {σ : Type} (desk : Desk σ) (clock : Nat → Instant) (dispatcher : Dispatcher)
  (host : σ)

/-- Notifications with their times, where some have been dispatched before. -/
def timed (clock : Nat → Instant) : Nat → List Signal → List (Instant × Signal)
  | _, [] => []
  | count, signal :: signals => (clock count, signal) :: timed clock (count + 1) signals

/-- What goes through the lines dispatches the notifications of those that come before the
first that is no text. -/
structure Dispatches (dispatcher : Dispatcher) (count : Nat) (host : σ)
    (lines : List Text.Octets) (value : Replay × σ) (events : List DeskEvent) : Prop where
  value_eq : (value.1.dispatcher, value.2) =
    (dispatchAll desk dispatcher (timed clock count (WireLine.signals (textOf lines))) host).value
  events_eq : events =
    (dispatchAll desk dispatcher (timed clock count (WireLine.signals (textOf lines))) host).events
  signals_eq : value.1.signals = count + (WireLine.signals (textOf lines)).length
  whole_iff : value.1.isBroken = false ↔ ∀ line ∈ lines, IsText line

variable {desk clock dispatcher host} {count : Nat} {line : Text.Octets}
  {rest : List Text.Octets} {value : Replay × σ} {events : List DeskEvent}

/-- A line that holds no notification leaves all to the lines behind it. -/
theorem Dispatches.skip (dispatches : Dispatches desk clock dispatcher count host rest value events)
    (text : IsText line) (same : WireLine.signals (textOf (line :: rest)) =
      WireLine.signals (textOf rest)) :
    Dispatches desk clock dispatcher count host (line :: rest) value events where
  value_eq := by rw [same, dispatches.value_eq]
  events_eq := by rw [same, dispatches.events_eq]
  signals_eq := by rw [same, dispatches.signals_eq]
  whole_iff := by
    rw [dispatches.whole_iff, List.forall_mem_cons]
    exact ⟨fun whole => ⟨text, whole⟩, fun whole => whole.2⟩

theorem dispatches_readLines (number : Nat) (lines : List Text.Octets) (replay : Replay)
    (host : σ) (whole : replay.isBroken = false) :
    Dispatches desk clock replay.dispatcher replay.signals host lines
      (readLines desk clock number lines replay host).value
      (readLines desk clock number lines replay host).events := by
  induction lines generalizing number replay host with
  | nil => exact ⟨rfl, rfl, rfl, by simp [readLines, whole]⟩
  | cons line rest inductionHypothesis =>
      have signals := signals_textOf_cons line rest
      unfold readLines
      cases holds : WireLine.read line with
      | blank =>
          rw [holds] at signals
          exact (inductionHypothesis _ replay host whole).skip (by simp [IsText, holds]) signals
      | malformed cause =>
          rw [holds] at signals
          exact (inductionHypothesis _ { replay with skipped := replay.skipped + 1 } host whole).skip
            (by simp [IsText, holds]) signals
      | broken =>
          rw [holds] at signals
          refine ⟨by rw [signals]; rfl, by rw [signals]; rfl, by rw [signals]; rfl, ?_⟩
          simp [IsText, holds]
      | inbound arrived =>
          cases arrived with
          | passwordRequest device =>
              rw [holds] at signals
              exact (inductionHypothesis _ { replay with requests := replay.requests + 1 } host
                whole).skip (by simp [IsText, holds]) signals
          | signal signal =>
              rw [holds] at signals
              have next := inductionHypothesis (number + 1)
                (dispatch desk (clock replay.signals) signal replay host).value.1
                (dispatch desk (clock replay.signals) signal replay host).value.2 whole
              simp only [Act.bind_apply]
              refine ⟨?_, ?_, ?_, ?_⟩
              · rw [signals, timed, dispatchAll_cons, Act.bind_apply]
                exact next.value_eq
              · rw [signals, timed, dispatchAll_cons, Act.bind_apply, next.events_eq]
                rw [dispatch, Act.bind_apply]
                exact congrArg (· ++ _) (List.append_nil _)
              · rw [signals, next.signals_eq]
                exact Nat.succ_add_eq_add_succ _ _
              · rw [next.whole_iff, List.forall_mem_cons]
                exact ⟨fun text => ⟨by simp [IsText, holds], text⟩, fun text => text.2⟩

theorem dispatches_readAll (desk : Desk σ) (clock : Nat → Instant) (dispatcher : Dispatcher)
    (capture : Text.Octets) (host : σ) :
    Dispatches desk clock dispatcher 0 host (Text.lines capture)
      (readAll desk clock dispatcher capture host).value
      (readAll desk clock dispatcher capture host).events :=
  dispatches_readLines 1 (Text.lines capture) (start dispatcher) host rfl

/-- Lines that all hold a notification or a request are not counted as skipped. -/
theorem skipped_readLines (desk : Desk σ) (clock : Nat → Instant) (number : Nat)
    {lines : List Text.Octets} (replay : Replay) (host : σ)
    (hold : ∀ line ∈ lines, ∃ arrived, WireLine.read line = .inbound arrived) :
    (readLines desk clock number lines replay host).value.1.skipped = replay.skipped := by
  induction lines generalizing number replay host with
  | nil => rfl
  | cons line rest inductionHypothesis =>
      rw [List.forall_mem_cons] at hold
      obtain ⟨⟨arrived, holds⟩, later⟩ := hold
      rw [readLines, holds]
      cases arrived with
      | signal signal =>
          simp only [Act.bind_apply]
          rw [inductionHypothesis _ _ _ later]
          rfl
      | passwordRequest device => exact inductionHypothesis _ _ _ later

theorem isSome_run_iff (desk : Desk σ) (clock : Nat → Instant) (dispatcher : Dispatcher)
    (capture : Text.Octets) (host : σ) :
    (run desk clock dispatcher capture host).value.1.isSome ↔
      ∀ line ∈ Text.lines capture, IsText line := by
  rw [← (dispatches_readAll desk clock dispatcher capture host).whole_iff]
  simp only [run, Act.bind_apply, Act.pure_apply]
  cases (readAll desk clock dispatcher capture host).value.1.isBroken <;> simp

end DiskWarden.Replay
