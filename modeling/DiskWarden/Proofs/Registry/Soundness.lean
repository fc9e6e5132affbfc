import DiskWarden.Proofs.Registry.Keys

/-!
# What the tables of a registry hold

However a registry comes about, and whatever its clock reads, its tables keep to some rules: a job
in them is active and stands under its own key, and a key has one job or one tombstone but not
both.  A tick or a result drops every tombstone that is as old as the window before it looks at
any, so that none of them is left behind the call.
-/

namespace DiskWarden

/-- Where no key occurs twice, an entry that is put takes the place of that at its key, and the
others stay. -/
theorem Table.mem_put_iff {κ ν : Type} [DecidableEq κ] {table : Table κ ν} {key : κ} {value : ν}
    {entry : κ × ν} (distinct : (table.map Prod.fst).Nodup) :
    entry ∈ table.put key value ↔ entry = (key, value) ∨ (entry ∈ table ∧ entry.1 ≠ key) := by
  constructor
  · exact eq_or_ne_of_mem_put distinct
  · rintro (rfl | ⟨old, different⟩)
    · exact mem_put_self table key value
    · exact mem_put_of_ne old different

namespace Registry

/-- The rules that the tables of a registry keep to. -/
structure IsSound (registry : Registry) : Prop where
  keyed : registry.IsKeyed
  active : ∀ entry ∈ registry.jobs, entry.2.state = .active
  buriedOnce : (registry.tombstones.map Prod.fst).Nodup
  apart : registry.Apart

variable {registry : Registry} {key : JobKey} {now : Instant} {displayName : String}
  {progress : Float} {job : Job} {entry : JobKey × Tombstone}

/-! ## Jobs -/

theorem active_of_put {jobs : Table JobKey Job} (active : ∀ entry ∈ jobs, entry.2.state = .active)
    (put : job.state = .active) : ∀ entry ∈ jobs.put key job, entry.2.state = .active := by
  intro entry member
  rcases Table.eq_or_mem_of_mem_put member with new | old
  · rw [new, put]
  · exact active entry old

theorem active_of_erase {jobs : Table JobKey Job}
    (active : ∀ entry ∈ jobs, entry.2.state = .active) :
    ∀ entry ∈ jobs.erase key, entry.2.state = .active :=
  fun entry member => active entry (List.mem_of_mem_filter member)

/-- A tick starts active jobs only, and advances a job without changing its state. -/
theorem active_tick (active : ∀ entry ∈ registry.jobs, entry.2.state = .active) :
    ∀ entry ∈ (registry.tick now key displayName progress).2.jobs, entry.2.state = .active := by
  rcases ticked : registry.tick now key displayName progress with ⟨answer, left⟩
  rcases registry.tick_cases now key displayName progress ticked with
    ⟨job, found, -, -, jobs⟩ | ⟨-, -, jobs⟩ | ⟨-, -, jobs⟩
  · rw [jobs]
    exact active_of_put active (active _ (Table.mem_of_get?_eq_some found))
  · rw [jobs]
    exact active
  · rw [jobs]
    exact active_of_put active rfl

/-- What a result hands out is the job at its key, which is over then. -/
theorem finish_evicted_iff (keyed : registry.IsKeyed) :
    (registry.finish now key).1 = some job ↔
      ∃ stored, (key, stored) ∈ registry.jobs ∧
        job = ⟨key, stored.displayName, stored.progress, .terminal⟩ := by
  have evicted : (registry.finish now key).1 =
      (registry.jobs.get? key).map fun stored => { stored with state := .terminal } := rfl
  rw [evicted, Option.map_eq_some_iff]
  refine exists_congr fun stored => ?_
  rw [Table.get?_eq_some_iff keyed.distinct, eq_comm (a := job)]
  refine and_congr_right fun member => ?_
  have own : stored.key = key := keyed.key_eq (key, stored) member
  rw [own]

/-! ## Tombstones -/

theorem nodup_prune_tombstones (now : Instant)
    (buriedOnce : (registry.tombstones.map Prod.fst).Nodup) :
    ((registry.prune now).tombstones.map Prod.fst).Nodup :=
  buriedOnce.sublist (List.filter_sublist.map Prod.fst)

theorem mem_tick_tombstones_iff :
    entry ∈ (registry.tick now key displayName progress).2.tombstones ↔
      entry ∈ registry.tombstones ∧ now - entry.2.buriedAt < registry.window := by
  rw [tick_tombstones, mem_prune_tombstones]

/-- Behind a result stand its own tombstone and those of other keys that are young enough. -/
theorem mem_finish_tombstones_iff (buriedOnce : (registry.tombstones.map Prod.fst).Nodup)
    (now : Instant) (key : JobKey) (entry : JobKey × Tombstone) :
    let finished := registry.finish now key
    entry ∈ finished.2.tombstones ↔
      entry = (key, ⟨(finished.1.map Job.progress).getD .zero, now⟩) ∨
        (entry.1 ≠ key ∧ entry ∈ registry.tombstones ∧
          now - entry.2.buriedAt < registry.window) := by
  intro finished
  have tombstones : finished.2.tombstones = (registry.prune now).tombstones.put key
      ⟨(finished.1.map Job.progress).getD .zero, now⟩ := rfl
  rw [tombstones, Table.mem_put_iff (nodup_prune_tombstones now buriedOnce),
    mem_prune_tombstones, and_comm (b := entry.1 ≠ key)]

/-! ## Every call keeps the rules -/

theorem isSound_empty (window : Nat) : (empty window).IsSound where
  keyed := isKeyed_empty window
  active := nofun
  buriedOnce := List.nodup_nil
  apart := fun _ _ _ => nofun

theorem IsSound.apply (sound : registry.IsSound) (call : RegistryCall) :
    (call.apply registry).IsSound := by
  have keyed := sound.keyed.apply call
  cases call with
  | tick now key displayName progress =>
      refine ⟨keyed, active_tick sound.active, ?_, sound.apart.tick now key displayName progress⟩
      rw [RegistryCall.apply, tick_tombstones]
      exact nodup_prune_tombstones now sound.buriedOnce
  | finish now key =>
      have pruned := nodup_prune_tombstones now sound.buriedOnce
      exact ⟨keyed, active_of_erase sound.active, Table.nodup_put pruned, sound.apart.finish now key⟩
  | close key =>
      exact ⟨keyed, active_of_erase sound.active, sound.buriedOnce, sound.apart.close key⟩

theorem isSound_after (window : Nat) (calls : List RegistryCall) :
    (after window calls).IsSound := by
  induction calls using List.reverseRecOn with
  | nil => exact isSound_empty window
  | append_singleton calls call inductionHypothesis =>
      rw [after_concat]
      exact inductionHypothesis.apply call

theorem window_after (window : Nat) (calls : List RegistryCall) :
    (after window calls).window = window := by
  induction calls using List.reverseRecOn with
  | nil => rfl
  | append_singleton calls call inductionHypothesis =>
      rw [after_concat, window_apply, inductionHypothesis]

/-- The tables are sound after any calls, in whatever order the clock reads.  From there a tick
leaves exactly the tombstones younger than the window; a result hands out the job of its key, which
is over then, and leaves its own tombstone besides such ones of other keys. -/
theorem tables_of_calls (window : Nat) (calls : List RegistryCall) :
    let registry := after window calls
    registry.IsSound ∧
    (∀ now key displayName progress entry,
      entry ∈ (registry.tick now key displayName progress).2.tombstones ↔
        entry ∈ registry.tombstones ∧ now - entry.2.buriedAt < window) ∧
    (∀ now key job, (registry.finish now key).1 = some job ↔
      ∃ stored, (key, stored) ∈ registry.jobs ∧
        job = ⟨key, stored.displayName, stored.progress, .terminal⟩) ∧
    (∀ now key entry,
      let finished := registry.finish now key
      entry ∈ finished.2.tombstones ↔
        entry = (key, ⟨(finished.1.map Job.progress).getD .zero, now⟩) ∨
          (entry.1 ≠ key ∧ entry ∈ registry.tombstones ∧ now - entry.2.buriedAt < window)) := by
  intro registry
  have sound : registry.IsSound := isSound_after window calls
  have same : registry.window = window := window_after window calls
  refine ⟨sound, ?_, ?_, ?_⟩
  · intro now key displayName progress entry
    rw [mem_tick_tombstones_iff, same]
  · exact fun now key job => finish_evicted_iff sound.keyed
  · intro now key entry
    have left := mem_finish_tombstones_iff sound.buriedOnce now key entry
    rw [same] at left
    exact left

-- With a window of zero each call drops all tombstones before it, and a tombstone from the future is
-- young.
example :
    let sda1 : JobKey := ⟨⟨"/dev/sda1"⟩, .encrypt⟩
    let sdb1 : JobKey := ⟨⟨"/dev/sdb1"⟩, .decrypt⟩
    (after 0 [.finish 9 sda1, .finish 4 sdb1]).tombstones = [(sdb1, ⟨.zero, 4⟩)] ∧
      (after 3 [.finish 9 sda1, .finish 4 sdb1, .finish 8 sdb1]).tombstones =
        [(sda1, ⟨.zero, 9⟩), (sdb1, ⟨.zero, 8⟩)] := by
  decide

end Registry

end DiskWarden
