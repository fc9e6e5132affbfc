import DiskWarden.Proofs.Dispatch.Steps
import DiskWarden.WireLine
import Mathlib.Data.List.TakeWhile

/-!
# The notifications of lines

A line may hold a notification, and is read on its own.  What follows is said by lists of
notifications with the times at which they are dispatched.
-/

namespace DiskWarden

namespace WireLine

/-- The notification that a line decodes to, on its own. -/
def signal? (line : Text.Octets) : Option Signal :=
  match Text.decode? line with
  | none => none
  | some text =>
      match Wire.decodeLine text with
      | .ok (.signal signal) => some signal
      | _ => none

theorem decodeLine_of_isBlankText {text : String} (blank : Text.isBlankText text = true) :
    Wire.decodeLine text = .error .unfinished := by
  have none : text.toList.dropWhile Text.isBlank = [] :=
    List.dropWhile_eq_nil_iff.mpr (List.all_eq_true.mp blank)
  have trimmed : Text.trim text = "" := by
    rw [Text.trim, Text.trimChars, none]
    rfl
  rw [Wire.decodeLine, trimmed]
  rfl

/-- Lines that are skipped as blank decode to nothing. -/
theorem signal?_eq (line : Text.Octets) :
    signal? line =
      match read line with
      | .inbound (.signal signal) => some signal
      | _ => none := by
  unfold signal? read
  cases Text.decode? line with
  | none => rfl
  | some text =>
      by_cases blank : Text.isBlankText text = true
      · simp only [blank, if_true, decodeLine_of_isBlankText blank]
      · simp only [blank]
        cases Wire.decodeLine text with
        | error cause => rfl
        | ok arrived => cases arrived <;> rfl

def IsText (line : Text.Octets) : Prop := read line ≠ .broken

instance (line : Text.Octets) : Decidable (IsText line) :=
  inferInstanceAs (Decidable (read line ≠ .broken))

theorem signal?_of_not_isText {line : Text.Octets} (broken : ¬ IsText line) :
    signal? line = none := by
  have holds : read line = .broken := Decidable.not_not.mp broken
  rw [signal?_eq, holds]

/-- The lines up to the first that is no text. -/
def textOf (lines : List Text.Octets) : List Text.Octets :=
  lines.takeWhile fun line => decide (IsText line)

def signals (lines : List Text.Octets) : List Signal := lines.filterMap signal?

theorem signals_textOf_cons (line : Text.Octets) (rest : List Text.Octets) :
    signals (textOf (line :: rest)) =
      match read line with
      | .broken => []
      | .inbound (.signal signal) => signal :: signals (textOf rest)
      | _ => signals (textOf rest) := by
  unfold signals textOf
  cases holds : read line with
  | broken => simp [IsText, holds]
  | blank => simp [IsText, signal?_eq, holds]
  | malformed cause => simp [IsText, signal?_eq, holds]
  | inbound arrived =>
      cases arrived with
      | signal signal => simp [IsText, signal?_eq, holds]
      | passwordRequest device => simp [IsText, signal?_eq, holds]

end WireLine

namespace Dispatcher

variable {σ : Type} (desk : Desk σ) (dispatcher : Dispatcher)

/-- Dispatches notifications in order, each at a time of its own. -/
def dispatchAll (signals : List (Instant × Signal)) : Act DeskEvent σ Dispatcher :=
  performAll desk dispatcher (signals.map fun entry => .signal entry.1 entry.2)

theorem dispatchAll_append (earlier later : List (Instant × Signal)) :
    dispatchAll desk dispatcher (earlier ++ later) =
      dispatchAll desk dispatcher earlier >>= fun reached => dispatchAll desk reached later := by
  simp only [dispatchAll, List.map_append, performAll_append]

theorem dispatchAll_cons (now : Instant) (signal : Signal) (later : List (Instant × Signal)) :
    dispatchAll desk dispatcher ((now, signal) :: later) =
      dispatch desk dispatcher now signal >>= fun reached => dispatchAll desk reached.2 later := by
  simp only [dispatchAll, List.map_cons, performAll, List.foldlM_cons, perform, bind_map_left]

theorem exists_evict_eq (registry : Registry) (now : Instant) (device : Device)
    (operation : Operation) :
    ∃ evicted events, ∀ host : σ,
      (evict registry now device operation host).value = (evicted, host) ∧
        (evict registry now device operation host).events = events := by
  cases about : operation.jobKind? with
  | some kind => exact ⟨_, _, fun host => evict_of_jobKind host now device operation _ about⟩
  | none =>
      refine ⟨(none, registry), [], fun host => ?_⟩
      rw [evict_of_none host now device operation registry about]
      exact ⟨rfl, rfl⟩

/-- A dispatcher that defers its questions asks nobody, so it does not matter who would
answer. -/
theorem dispatch_of_defers (defers : dispatcher.defersReboots = true) (now : Instant)
    (signal : Signal) :
    ∃ dispatched left events, left.defersReboots = true ∧ ∀ host,
      (dispatch desk dispatcher now signal host).value = ((dispatched, left), host) ∧
        (dispatch desk dispatcher now signal host).events = events := by
  unfold dispatch
  cases signal.notification with
  | progress kind value =>
      refine ⟨_, _, _, ?_, fun host => ⟨onTick_value .., onTick_events ..⟩⟩
      exact defers
  | result operation code =>
      obtain ⟨evicted, events, evict_eq⟩ :=
        exists_evict_eq (σ := σ) dispatcher.registry now signal.device operation
      simp only [onResult, Act.bind_apply, Act.ite_apply, Act.emit_apply, Act.record_apply,
        Act.pure_apply, evict_eq]
      split
      · simp only [List.append_nil]
        refine ⟨_, _, _, ?_, fun host => ⟨rfl, rfl⟩⟩
        exact defers
      · next told =>
        have noOffer : ((judge operation code).decision
            (signal.device.label signal.displayName)).offersReboot = false := by
          simpa [defers] using told
        simp only [Desk.present, noOffer, Bool.false_eq_true, if_false, Act.bind_apply,
          Act.emit_apply, Act.pure_apply]
        refine ⟨_, _, _, ?_, fun host => ⟨rfl, rfl⟩⟩
        exact defers

end Dispatcher

end DiskWarden
