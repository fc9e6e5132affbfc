import DiskWarden.Device
import DiskWarden.Percent
import DiskWarden.Table

/-!
The jobs in flight. A result ends its job and leaves a tombstone, so that ticks that arrive
late within a window do not bring the job back.
-/

namespace DiskWarden

/-- A point in time, in milliseconds. -/
abbrev Instant := Nat

/-- What a job is known by. -/
structure JobKey where
  device : Device
  kind : JobKind
deriving DecidableEq, Repr, Inhabited

namespace JobKey

/-- Keys are ordered by the path of the device, then by the kind. -/
def isBefore (first second : JobKey) : Bool :=
  if first.device = second.device then first.kind.rank ≤ second.kind.rank
  else first.device.path < second.device.path

end JobKey

inductive JobState
  | pending
  | active
  | terminal
deriving DecidableEq, Repr, Inhabited

namespace JobState

def text : JobState → String
  | pending => "pending"
  | active => "active"
  | terminal => "terminal"

end JobState

structure Job where
  key : JobKey
  displayName : String
  progress : Percent
  state : JobState
deriving DecidableEq, Repr, Inhabited

namespace Job

def label (job : Job) : String := job.key.device.label job.displayName

end Job

/-- What is remembered of a result: when it came, and the progress of the job it ended. -/
structure Tombstone where
  finalProgress : Percent
  buriedAt : Instant
deriving DecidableEq, Repr

/-- The jobs in flight, the tombstones, and how long a tombstone counts. -/
structure Registry where
  window : Nat
  jobs : Table JobKey Job
  tombstones : Table JobKey Tombstone
deriving Repr

inductive TickEffect
  | started
  | advanced
  | stale
deriving DecidableEq, Repr

namespace TickEffect

def text : TickEffect → String
  | started => "started"
  | advanced => "advanced"
  | stale => "stale"

end TickEffect

/-- The answer to a tick: its effect, and the progress that the job has or had at last. -/
structure Tick where
  effect : TickEffect
  progress : Percent
deriving DecidableEq, Repr

namespace Registry

def empty (window : Nat) : Registry := ⟨window, [], []⟩

/-- Drops the tombstones that are as old as the window. The age of one from the future
is zero. -/
def prune (registry : Registry) (now : Instant) : Registry :=
  { registry with
    tombstones := registry.tombstones.filter fun entry =>
      now - entry.2.buriedAt < registry.window }

/-- Notes the progress of a job, which starts with its first tick. A value that is no number
leaves the progress of a job as it is. -/
def tick (registry : Registry) (now : Instant) (key : JobKey) (displayName : String)
    (progress : Float) : Tick × Registry :=
  let registry := registry.prune now
  let value := Percent.ofFloat? progress
  match registry.jobs.get? key with
  | some job =>
      let reached :=
        match value with
        | some value => job.progress.max value
        | none => job.progress
      (⟨.advanced, reached⟩,
        { registry with jobs := registry.jobs.put key { job with progress := reached } })
  | none =>
      match registry.tombstones.get? key with
      | some tombstone => (⟨.stale, tombstone.finalProgress⟩, registry)
      | none =>
          let reached := value.getD .zero
          (⟨.started, reached⟩,
            { registry with
              jobs := registry.jobs.put key ⟨key, displayName, reached, .active⟩ })

/-- Ends a job by its result. The tombstone is set even if there is no job, as a job can fail
before its first tick. -/
def finish (registry : Registry) (now : Instant) (key : JobKey) : Option Job × Registry :=
  let registry := registry.prune now
  let evicted := (registry.jobs.get? key).map fun job => { job with state := .terminal }
  let tombstone : Tombstone := ⟨(evicted.map Job.progress).getD .zero, now⟩
  (evicted,
    { registry with
      jobs := registry.jobs.erase key
      tombstones := registry.tombstones.put key tombstone })

/-- Drops a job without a result. -/
def close (registry : Registry) (key : JobKey) : Option Job × Registry :=
  (registry.jobs.get? key, { registry with jobs := registry.jobs.erase key })

def job? (registry : Registry) (key : JobKey) : Option Job := registry.jobs.get? key

def size (registry : Registry) : Nat := registry.jobs.length

def hasJobs (registry : Registry) : Bool := !registry.jobs.isEmpty

/-- The jobs in the order of their keys. -/
def sortedJobs (registry : Registry) : List Job :=
  registry.jobs.values.mergeSort fun first second => first.key.isBefore second.key

end Registry

end DiskWarden
