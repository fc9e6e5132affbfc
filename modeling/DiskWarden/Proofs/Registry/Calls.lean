import DiskWarden.Registry
import Mathlib.Data.List.Basic

/-!
# Runs of a registry

A run is a list of calls on a fresh registry: ticks and results with the reading of the clock,
and closings.  Each operation has its effect on the two tables stated once here; the laws about
whole runs use these statements only.
-/

namespace DiskWarden

/-- A call on a registry. -/
inductive RegistryCall
  | tick (now : Instant) (key : JobKey) (displayName : String) (progress : Float)
  | finish (now : Instant) (key : JobKey)
  | close (key : JobKey)

namespace RegistryCall

/-- The reading of the clock at a call. -/
def time? : RegistryCall → Option Instant
  | tick now .. => some now
  | finish now _ => some now
  | close _ => none

/-- Whether a call ends the job at a key: by its result, or by closing it. -/
def Ends (key : JobKey) : RegistryCall → Prop
  | tick .. => False
  | finish _ ended => ended = key
  | close ended => ended = key

/-- The registry that a call leaves. -/
def apply (registry : Registry) : RegistryCall → Registry
  | tick now key displayName progress => (registry.tick now key displayName progress).2
  | finish now key => (registry.finish now key).2
  | close key => (registry.close key).2

/-- The readings of the clock during a run. -/
def times (calls : List RegistryCall) : List Instant := calls.filterMap time?

/-- The readings of the clock never decrease. -/
def ClockAdvances (calls : List RegistryCall) : Prop := (times calls).Pairwise (· ≤ ·)

instance (calls : List RegistryCall) : Decidable (ClockAdvances calls) :=
  inferInstanceAs (Decidable ((times calls).Pairwise (· ≤ ·)))

theorem times_append (earlier later : List RegistryCall) :
    times (earlier ++ later) = times earlier ++ times later :=
  List.filterMap_append

theorem mem_times {calls : List RegistryCall} {call : RegistryCall} {now : Instant}
    (member : call ∈ calls) (timed : call.time? = some now) : now ∈ times calls :=
  List.mem_filterMap.mpr ⟨call, member, timed⟩

theorem ClockAdvances.of_append {earlier later : List RegistryCall}
    (advances : ClockAdvances (earlier ++ later)) : ClockAdvances earlier := by
  unfold ClockAdvances at advances
  rw [times_append] at advances
  exact (List.pairwise_append.mp advances).1

/-- No reading before a call is later than the reading at that call. -/
theorem ClockAdvances.le_now {earlier later : List RegistryCall} {call : RegistryCall}
    {time now : Instant} (advances : ClockAdvances (earlier ++ call :: later))
    (timed : call.time? = some now) (read : time ∈ times earlier) : time ≤ now := by
  unfold ClockAdvances at advances
  rw [times_append] at advances
  exact (List.pairwise_append.mp advances).2.2 time read now
    (mem_times List.mem_cons_self timed)

end RegistryCall

namespace Registry

/-- The registry after a run. -/
def after (window : Nat) (calls : List RegistryCall) : Registry :=
  calls.foldl RegistryCall.apply (empty window)

theorem after_concat (window : Nat) (calls : List RegistryCall) (call : RegistryCall) :
    after window (calls ++ [call]) = call.apply (after window calls) := by
  simp only [after, List.foldl_append, List.foldl_cons, List.foldl_nil]

variable (registry : Registry) (now : Instant) (key : JobKey) (displayName : String)
  (progress : Float)

/-! ## Pruning -/

@[simp]
theorem prune_jobs : (registry.prune now).jobs = registry.jobs := rfl

theorem mem_prune_tombstones {entry : JobKey × Tombstone} :
    entry ∈ (registry.prune now).tombstones ↔
      entry ∈ registry.tombstones ∧ now - entry.2.buriedAt < registry.window := by
  simp [prune]

/-! ## Ticks -/

theorem tick_effect :
    (registry.tick now key displayName progress).1.effect =
      if (registry.jobs.get? key).isSome then .advanced
      else if ((registry.prune now).tombstones.get? key).isSome then .stale
      else .started := by
  unfold tick
  simp only [prune_jobs]
  cases registry.jobs.get? key with
  | some job => rfl
  | none =>
      cases (registry.prune now).tombstones.get? key with
      | some tombstone => rfl
      | none => rfl

@[simp]
theorem tick_tombstones :
    (registry.tick now key displayName progress).2.tombstones =
      (registry.prune now).tombstones := by
  unfold tick
  simp only [prune_jobs]
  cases registry.jobs.get? key with
  | some job => rfl
  | none => cases (registry.prune now).tombstones.get? key <;> rfl

@[simp]
theorem tick_window :
    (registry.tick now key displayName progress).2.window = registry.window := by
  unfold tick
  simp only [prune_jobs]
  cases registry.jobs.get? key with
  | some job => rfl
  | none => cases (registry.prune now).tombstones.get? key <;> rfl

/-- A tick advances the job at its key, or it is late, or it starts a job. The progress of a
job never falls. -/
theorem tick_cases {answer : Tick} {left : Registry}
    (ticked : registry.tick now key displayName progress = (answer, left)) :
    (∃ job, registry.jobs.get? key = some job ∧ answer.effect = .advanced ∧
      job.progress.rank ≤ answer.progress.rank ∧
      left.jobs = registry.jobs.put key { job with progress := answer.progress }) ∨
    (registry.jobs.get? key = none ∧ answer.effect = .stale ∧ left.jobs = registry.jobs) ∨
    (registry.jobs.get? key = none ∧ answer.effect = .started ∧
      left.jobs = registry.jobs.put key ⟨key, displayName, answer.progress, .active⟩) := by
  unfold tick at ticked
  simp only [prune_jobs] at ticked
  cases found : registry.jobs.get? key with
  | some job =>
      rw [found] at ticked
      cases ticked
      refine .inl ⟨job, rfl, rfl, ?_, rfl⟩
      cases Percent.ofFloat? progress with
      | some value =>
          exact (Percent.rank_max job.progress value).symm ▸ Nat.le_max_left _ _
      | none => exact Nat.le_refl _
  | none =>
      rw [found] at ticked
      cases buried : (registry.prune now).tombstones.get? key with
      | some tombstone =>
          rw [buried] at ticked
          cases ticked
          exact .inr (.inl ⟨rfl, rfl, rfl⟩)
      | none =>
          rw [buried] at ticked
          cases ticked
          exact .inr (.inr ⟨rfl, rfl, rfl⟩)

theorem isSome_get?_put_iff (jobs : Table JobKey Job) (job : Job) (other : JobKey) :
    ((jobs.put key job).get? other).isSome ↔ (jobs.get? other).isSome ∨ other = key := by
  rw [Table.get?_put]
  by_cases same : key = other
  · simp [same]
  · simp [same, Ne.symm same]

theorem isSome_tick_jobs_iff (other : JobKey) :
    ((registry.tick now key displayName progress).2.jobs.get? other).isSome ↔
      (registry.jobs.get? other).isSome ∨
        (other = key ∧ (registry.tick now key displayName progress).1.effect ≠ .stale) := by
  rcases ticked : registry.tick now key displayName progress with ⟨answer, left⟩
  rcases registry.tick_cases now key displayName progress ticked with
    ⟨job, -, effect, -, jobs⟩ | ⟨-, effect, jobs⟩ | ⟨-, effect, jobs⟩
  · rw [jobs, isSome_get?_put_iff, effect]
    simp
  · rw [jobs, effect]
    simp
  · rw [jobs, isSome_get?_put_iff, effect]
    simp

/-! ## Results and closings -/

@[simp]
theorem finish_jobs : (registry.finish now key).2.jobs = registry.jobs.erase key := rfl

@[simp]
theorem finish_window : (registry.finish now key).2.window = registry.window := rfl

/-- A result leaves a tombstone of its own time, whether or not there was a job. -/
theorem finish_tombstones :
    ∃ reached, (registry.finish now key).2.tombstones =
      (registry.prune now).tombstones.put key ⟨reached, now⟩ :=
  ⟨_, rfl⟩

@[simp]
theorem close_jobs : (registry.close key).2.jobs = registry.jobs.erase key := rfl

@[simp]
theorem close_window : (registry.close key).2.window = registry.window := rfl

@[simp]
theorem close_tombstones : (registry.close key).2.tombstones = registry.tombstones := rfl

theorem isSome_erase_iff (jobs : Table JobKey Job) (other : JobKey) :
    ((jobs.erase key).get? other).isSome ↔ (jobs.get? other).isSome ∧ other ≠ key := by
  rw [Table.get?_erase]
  by_cases same : key = other
  · simp [same]
  · simp [same, Ne.symm same]

theorem hasJobs_iff : registry.hasJobs = true ↔ ∃ key, (registry.jobs.get? key).isSome := by
  unfold hasJobs
  constructor
  · intro some
    obtain ⟨⟨key, job⟩, member⟩ : ∃ entry, entry ∈ registry.jobs := by
      apply List.exists_mem_of_ne_nil
      intro none
      simp [none] at some
    exact ⟨key, Table.isSome_get?_iff.mpr ⟨job, member⟩⟩
  · rintro ⟨key, found⟩
    obtain ⟨job, member⟩ := Table.isSome_get?_iff.mp found
    have nonempty : registry.jobs ≠ [] := List.ne_nil_of_mem member
    simpa using nonempty

/-! ## What every call keeps -/

theorem window_apply (registry : Registry) (call : RegistryCall) :
    (call.apply registry).window = registry.window := by
  cases call with
  | tick => exact tick_window ..
  | finish => rfl
  | close => rfl

/-- No key has both a job and a tombstone. -/
def Apart (registry : Registry) : Prop :=
  ∀ key, (registry.jobs.get? key).isSome → ∀ tombstone, (key, tombstone) ∉ registry.tombstones

namespace Apart

variable {registry} (apart : registry.Apart)
include apart

theorem tick : (registry.tick now key displayName progress).2.Apart := by
  intro other job tombstone member
  rw [tick_tombstones] at member
  have old := ((mem_prune_tombstones registry now).mp member).1
  rcases (isSome_tick_jobs_iff registry now key displayName progress other).mp job with
    had | ⟨rfl, live⟩
  · exact apart other had tombstone old
  · -- the tick was not late, so there was a job already or no tombstone was left
    rw [tick_effect] at live
    by_cases had : (registry.jobs.get? other).isSome
    · exact apart other had tombstone old
    · have found : ((registry.prune now).tombstones.get? other).isSome :=
        Table.isSome_get?_iff.mpr ⟨tombstone, member⟩
      simp [had, found] at live

theorem finish : (registry.finish now key).2.Apart := by
  intro other job tombstone member
  obtain ⟨reached, tombstones⟩ := finish_tombstones registry now key
  rw [tombstones] at member
  obtain ⟨had, different⟩ := (isSome_erase_iff key registry.jobs other).mp job
  rcases Table.eq_or_mem_of_mem_put member with same | old
  · exact different (congrArg Prod.fst same)
  · exact apart other had tombstone ((mem_prune_tombstones registry now).mp old).1

theorem close : (registry.close key).2.Apart := by
  intro other job
  exact apart other ((isSome_erase_iff key registry.jobs other).mp job).1

end Apart

end Registry

end DiskWarden
