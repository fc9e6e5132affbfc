/-!
Actions that leave a trace: events for the outside, in order, and log entries.
-/

namespace DiskWarden

inductive LogLevel
  | error
  | warn
  | info
  | debug
deriving DecidableEq, Repr

namespace LogLevel

def text : LogLevel → String
  | error => "error"
  | warn => "warn"
  | info => "info"
  | debug => "debug"

end LogLevel

structure LogEntry where
  level : LogLevel
  text : String
deriving DecidableEq, Repr

/-- A value with the events and log entries that its making left, oldest first. -/
structure Traced (ε α : Type) where
  value : α
  events : List ε
  log : List LogEntry
deriving Repr

namespace Traced

variable {ε α β : Type}

instance : Monad (Traced ε) where
  pure value := ⟨value, [], []⟩
  bind first next :=
    let second := next first.value
    ⟨second.value, first.events ++ second.events, first.log ++ second.log⟩

@[simp]
theorem pure_def (value : α) : (pure value : Traced ε α) = ⟨value, [], []⟩ := rfl

@[simp]
theorem bind_def (first : Traced ε α) (next : α → Traced ε β) :
    first >>= next =
      ⟨(next first.value).value, first.events ++ (next first.value).events,
        first.log ++ (next first.value).log⟩ := rfl

instance : LawfulMonad (Traced ε) :=
  LawfulMonad.mk' (Traced ε)
    (by intro α x; simp [Functor.map])
    (by intro α β x f; simp)
    (by intro α β γ x f g; simp)

end Traced

/-- A traced action on the state `σ` of a collaborator. -/
abbrev Act (ε σ α : Type) := StateT σ (Traced ε) α

/-- What is asked of a collaborator. It may leave log entries, but no events of its own. -/
abbrev Consult (σ α : Type) := Act Empty σ α

namespace Act

variable {ε σ α β : Type}

def emit (event : ε) : Act ε σ Unit :=
  fun state => ⟨((), state), [event], []⟩

def record (level : LogLevel) (text : String) : Act ε σ Unit :=
  fun state => ⟨((), state), [], [⟨level, text⟩]⟩

def consult (asked : Consult σ α) : Act ε σ α :=
  fun state =>
    let traced := asked state
    ⟨traced.value, [], traced.log⟩

/-- An action on a part of a state, as an action on the whole of it. -/
def onPart {τ : Type} (part : σ → τ) (replace : σ → τ → σ) (action : Act ε τ α) : Act ε σ α :=
  fun state =>
    let traced := action (part state)
    ⟨(traced.value.1, replace state traced.value.2), traced.events, traced.log⟩

/-- The same action, with its events seen as events of another kind. -/
def mapEvents {ε' : Type} (embed : ε → ε') (action : Act ε σ α) : Act ε' σ α :=
  fun state =>
    let traced := action state
    ⟨traced.value, traced.events.map embed, traced.log⟩

/-! ## What an action leaves, step by step -/

@[simp]
theorem pure_apply (value : α) (state : σ) :
    (pure value : Act ε σ α) state = ⟨(value, state), [], []⟩ := rfl

@[simp]
theorem bind_apply (action : Act ε σ α) (next : α → Act ε σ β) (state : σ) :
    (action >>= next) state =
      ⟨(next (action state).value.1 (action state).value.2).value,
        (action state).events ++ (next (action state).value.1 (action state).value.2).events,
        (action state).log ++ (next (action state).value.1 (action state).value.2).log⟩ := rfl

@[simp]
theorem map_apply (f : α → β) (action : Act ε σ α) (state : σ) :
    (f <$> action) state =
      ⟨(f (action state).value.1, (action state).value.2), (action state).events,
        (action state).log⟩ := by
  rw [map_eq_pure_bind]
  simp

@[simp]
theorem ite_apply (condition : Prop) [Decidable condition] (first second : Act ε σ α)
    (state : σ) :
    (if condition then first else second : Act ε σ α) state =
      if condition then first state else second state := by
  split <;> rfl

@[simp]
theorem emit_apply (event : ε) (state : σ) :
    (emit event : Act ε σ Unit) state = ⟨((), state), [event], []⟩ := rfl

@[simp]
theorem record_apply (level : LogLevel) (text : String) (state : σ) :
    (record level text : Act ε σ Unit) state = ⟨((), state), [], [⟨level, text⟩]⟩ := rfl

@[simp]
theorem consult_apply (asked : Consult σ α) (state : σ) :
    (consult asked : Act ε σ α) state = ⟨(asked state).value, [], (asked state).log⟩ := rfl

@[simp]
theorem mapEvents_apply {ε' : Type} (embed : ε → ε') (action : Act ε σ α) (state : σ) :
    mapEvents embed action state =
      ⟨(action state).value, (action state).events.map embed, (action state).log⟩ := rfl

end Act

end DiskWarden
