import DiskWarden.Dispatch
import DiskWarden.Proofs.Registry.Calls

/-!
# Runs of a dispatcher

A run is a list of steps: a notification with the reading of the clock, the closing of an
indicator, and a change of what becomes of questions about a reboot.
-/

namespace DiskWarden

/-- A step of a dispatcher. -/
inductive DispatcherStep
  | signal (now : Instant) (signal : Signal)
  | close (key : JobKey)
  | defer (defers : Bool)

namespace Dispatcher

variable {σ : Type} (desk : Desk σ) (dispatcher : Dispatcher) (host : σ)

def perform (dispatcher : Dispatcher) : DispatcherStep → Act DeskEvent σ Dispatcher
  | .signal now signal => Prod.snd <$> dispatch desk dispatcher now signal
  | .close key => Prod.snd <$> dispatcher.close key
  | .defer defers => pure { dispatcher with defersReboots := defers }

def performAll (steps : List DispatcherStep) : Act DeskEvent σ Dispatcher :=
  steps.foldlM (perform desk) dispatcher

/-- The dispatcher after a run from its beginning. -/
def run (window : Nat) (steps : List DispatcherStep) : Act DeskEvent σ Dispatcher :=
  performAll desk (new window) steps

theorem performAll_append (earlier later : List DispatcherStep) :
    performAll desk dispatcher (earlier ++ later) =
      performAll desk dispatcher earlier >>= fun reached => performAll desk reached later :=
  List.foldlM_append

theorem performAll_singleton (step : DispatcherStep) :
    performAll desk dispatcher [step] = perform desk dispatcher step := by
  simp only [performAll, List.foldlM_cons, List.foldlM_nil, bind_pure]

theorem run_concat (window : Nat) (steps : List DispatcherStep) (step : DispatcherStep) :
    run desk window (steps ++ [step]) =
      run desk window steps >>= fun reached => perform desk reached step := by
  simp only [run, performAll_append, performAll_singleton]

/-! ## Ticks -/

section Tick

variable (now : Instant) (device : Device) (displayName : String) (kind : JobKind)
  (progress : Float)

theorem onTick_value :
    (dispatcher.onTick now device displayName kind progress host).value =
      let (tick, registry) := dispatcher.registry.tick now ⟨device, kind⟩ displayName progress
      ((.progress ⟨device, kind⟩ tick, { dispatcher with registry }), host) := by
  unfold onTick
  rcases dispatcher.registry.tick now ⟨device, kind⟩ displayName progress with ⟨tick, registry⟩
  cases effect : tick.effect <;> simp [effect]

theorem onTick_events :
    (dispatcher.onTick now device displayName kind progress host).events =
      let tick := (dispatcher.registry.tick now ⟨device, kind⟩ displayName progress).1
      match tick.effect with
      | .started =>
          [.cursorRestored, .opened ⟨device, kind⟩ (kind.activity ++ device.label displayName),
            .updated ⟨device, kind⟩ tick.progress]
      | .advanced => [.updated ⟨device, kind⟩ tick.progress]
      | .stale => [] := by
  unfold onTick
  rcases dispatcher.registry.tick now ⟨device, kind⟩ displayName progress with ⟨tick, registry⟩
  cases effect : tick.effect <;> simp [effect]

end Tick

/-! ## Results and closings -/

section Result

variable (now : Instant) (device : Device) (displayName : String) (operation : Operation)
  (code : Code)

theorem evict_of_jobKind (registry : Registry) {kind : JobKind}
    (about : operation.jobKind? = some kind) :
    (evict registry now device operation host).value =
        (registry.finish now ⟨device, kind⟩, host) ∧
      (evict registry now device operation host).events =
        if (registry.jobs.get? ⟨device, kind⟩).isSome then [.closed ⟨device, kind⟩] else [] := by
  unfold evict
  rw [about]
  cases found : registry.jobs.get? ⟨device, kind⟩ <;>
    simp [Registry.finish, found]

theorem evict_of_none (registry : Registry) (about : operation.jobKind? = none) :
    evict registry now device operation host = ⟨((none, registry), host), [], []⟩ := by
  unfold evict
  rw [about]
  rfl

theorem onResult_value :
    ∃ report, (onResult desk dispatcher now device displayName operation code host).value.1 =
      (.result report,
        { dispatcher with
          registry := (evict dispatcher.registry now device operation host).value.1.2 }) := by
  simp only [onResult, Act.bind_apply]
  split <;> exact ⟨_, rfl⟩

end Result

theorem close_value (key : JobKey) :
    (dispatcher.close key host).value =
      ((dispatcher.registry.jobs.get? key,
        { dispatcher with registry := (dispatcher.registry.close key).2 }), host) := by
  unfold close
  cases found : dispatcher.registry.jobs.get? key <;> simp [Registry.close, found]

theorem close_events (key : JobKey) :
    (dispatcher.close key host).events =
      if (dispatcher.registry.jobs.get? key).isSome then [.closed key] else [] := by
  unfold close
  cases found : dispatcher.registry.jobs.get? key <;> simp [Registry.close, found]

end Dispatcher

end DiskWarden
