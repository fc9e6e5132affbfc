import DiskWarden.Proofs.Registry.Calls
import Mathlib.Data.List.Induction

/-!
# What a run tells of one key

The registry decides from tables that it prunes as it goes.  The law of this module speaks of
the whole history of a key instead:

* a tick is late exactly if a result for its key came less than a window ago;
* any other tick advances the job that an earlier tick has started, or starts one;
* a key has a job exactly if some tick for it was not late and nothing has ended the job since.

The invariant `Reflects` ties the tables to the history.  A tombstone may be gone, but then
some reading of the clock has come a whole window after it.
-/

namespace DiskWarden.Registry

open RegistryCall

variable {window : Nat} {calls earlier : List RegistryCall} {registry : Registry}
  {call : RegistryCall} {key : JobKey} {now : Instant} {displayName : String}
  {progress : Float}

/-- The effect of a tick that follows some calls on a fresh registry. -/
def effectAfter (window : Nat) (calls : List RegistryCall) (now : Instant) (key : JobKey)
    (displayName : String) (progress : Float) : TickEffect :=
  ((after window calls).tick now key displayName progress).1.effect

/-- A result for the key came less than a window ago. -/
def FinishedWithin (window : Nat) (calls : List RegistryCall) (now : Instant) (key : JobKey) :
    Prop :=
  ∃ finished, .finish finished key ∈ calls ∧ now - finished < window

/-- Some tick for the key was not late, and no call has ended the job since. -/
def Tracked (window : Nat) (calls : List RegistryCall) (key : JobKey) : Prop :=
  ∃ earlier now displayName progress later,
    calls = earlier ++ .tick now key displayName progress :: later ∧
      effectAfter window earlier now key displayName progress ≠ .stale ∧
        ∀ call ∈ later, ¬ call.Ends key

theorem not_tracked_nil : ¬ Tracked window [] key := by
  rintro ⟨earlier, now, displayName, progress, later, equality, -⟩
  exact List.append_ne_nil_of_right_ne_nil earlier (List.cons_ne_nil _ _) equality.symm

theorem Tracked.concat (tracked : Tracked window calls key) (kept : ¬ call.Ends key) :
    Tracked window (calls ++ [call]) key := by
  obtain ⟨earlier, now, displayName, progress, later, rfl, live, quiet⟩ := tracked
  refine ⟨earlier, now, displayName, progress, later ++ [call], ?_, live, ?_⟩
  · rw [List.append_assoc, List.cons_append]
  · intro other member
    rcases List.mem_append.mp member with old | new
    · exact quiet other old
    · rw [List.mem_singleton.mp new]
      exact kept

theorem tracked_concat_tick
    (live : effectAfter window calls now key displayName progress ≠ .stale) :
    Tracked window (calls ++ [.tick now key displayName progress]) key :=
  ⟨calls, now, displayName, progress, [], rfl, live, fun _ member => by cases member⟩

/-- The last call decides: it is the tick that set the job, or it has left the job alone. -/
theorem tracked_concat_iff :
    Tracked window (calls ++ [call]) key ↔
      (∃ now displayName progress, call = .tick now key displayName progress ∧
        effectAfter window calls now key displayName progress ≠ .stale) ∨
      (Tracked window calls key ∧ ¬ call.Ends key) := by
  constructor
  · rintro ⟨earlier, now, displayName, progress, later, equality, live, quiet⟩
    rcases List.eq_nil_or_concat later with rfl | ⟨body, last, rfl⟩
    · obtain ⟨sameCalls, sameCall⟩ := List.append_inj' equality rfl
      cases sameCall
      exact .inl ⟨now, displayName, progress, rfl, sameCalls ▸ live⟩
    · rw [List.concat_eq_append, ← List.cons_append, ← List.append_assoc] at equality
      obtain ⟨sameCalls, sameCall⟩ := List.append_inj' equality rfl
      cases sameCall
      rw [List.concat_eq_append] at quiet
      refine .inr ⟨⟨earlier, now, displayName, progress, body, sameCalls, live, ?_⟩, ?_⟩
      · exact fun other member => quiet other (List.mem_append_left _ member)
      · exact quiet call (List.mem_append_right _ List.mem_cons_self)
  · rintro (⟨now, displayName, progress, rfl, live⟩ | ⟨tracked, kept⟩)
    · exact tracked_concat_tick live
    · exact tracked.concat kept

/-! ## The tables and the history -/

/-- The tables of a registry reflect the calls that it has had. -/
structure Reflects (window : Nat) (calls : List RegistryCall) (registry : Registry) : Prop where
  window_eq : registry.window = window
  jobs_iff : ∀ key, (registry.jobs.get? key).isSome ↔ Tracked window calls key
  buried : ∀ entry ∈ registry.tombstones, .finish entry.2.buriedAt entry.1 ∈ calls
  remembered : ∀ key finished, .finish finished key ∈ calls →
    (∃ tombstone, (key, tombstone) ∈ registry.tombstones ∧ finished ≤ tombstone.buriedAt) ∨
      ∃ time ∈ times calls, window ≤ time - finished
  apart : ∀ key, (registry.jobs.get? key).isSome →
    ∀ tombstone, (key, tombstone) ∉ registry.tombstones

namespace Reflects

theorem empty : Reflects window [] (Registry.empty window) where
  window_eq := rfl
  jobs_iff key := by
    simp [Registry.empty, not_tracked_nil]
  buried := by
    intro entry member
    cases member
  remembered := by
    intro key finished member
    cases member
  apart := by
    intro key _ tombstone member
    cases member

/-- After pruning, the tombstones left at a key are those of results within the window. -/
theorem exists_mem_prune_iff (reflects : Reflects window calls registry)
    (latest : ∀ time ∈ times calls, time ≤ now) :
    (∃ tombstone, (key, tombstone) ∈ (registry.prune now).tombstones) ↔
      FinishedWithin window calls now key := by
  constructor
  · rintro ⟨tombstone, member⟩
    obtain ⟨kept, young⟩ := (mem_prune_tombstones registry now).mp member
    exact ⟨tombstone.buriedAt, reflects.buried _ kept, reflects.window_eq ▸ young⟩
  · rintro ⟨finished, member, young⟩
    rcases reflects.remembered key finished member with
      ⟨tombstone, kept, later⟩ | ⟨time, read, expired⟩
    · refine ⟨tombstone, (mem_prune_tombstones registry now).mpr ⟨kept, ?_⟩⟩
      rw [reflects.window_eq]
      exact Nat.lt_of_le_of_lt (Nat.sub_le_sub_left later now) young
    · have older : time - finished ≤ now - finished :=
        Nat.sub_le_sub_right (latest time read) finished
      exact absurd (Nat.le_trans expired older) (Nat.not_le.mpr young)

/-- What is remembered of the results survives pruning at a later time. -/
theorem remembered_prune (reflects : Reflects window calls registry) (now : Instant)
    {finished : Instant} (member : .finish finished key ∈ calls) :
    (∃ tombstone, (key, tombstone) ∈ (registry.prune now).tombstones ∧
        finished ≤ tombstone.buriedAt) ∨
      (∃ time ∈ times calls, window ≤ time - finished) ∨ window ≤ now - finished := by
  rcases reflects.remembered key finished member with ⟨tombstone, kept, later⟩ | expired
  · by_cases young : now - tombstone.buriedAt < registry.window
    · exact .inl ⟨tombstone, (mem_prune_tombstones registry now).mpr ⟨kept, young⟩, later⟩
    · rw [reflects.window_eq] at young
      have older : now - tombstone.buriedAt ≤ now - finished := Nat.sub_le_sub_left later now
      exact .inr (.inr (Nat.le_trans (Nat.not_lt.mp young) older))
  · exact .inr (.inl expired)

theorem tick_stale_iff (reflects : Reflects window calls registry)
    (latest : ∀ time ∈ times calls, time ≤ now) (key : JobKey) (displayName : String)
    (progress : Float) :
    (registry.tick now key displayName progress).1.effect = .stale ↔
      FinishedWithin window calls now key := by
  rw [← reflects.exists_mem_prune_iff latest, ← Table.isSome_get?_iff, tick_effect]
  by_cases job : (registry.jobs.get? key).isSome
  · -- a key with a job has no tombstone, and pruning makes none
    have none : ((registry.prune now).tombstones.get? key).isSome = false := by
      rw [Option.isSome_eq_false_iff, Option.isNone_iff_eq_none, Table.get?_eq_none_iff]
      intro tombstone member
      exact reflects.apart key job tombstone ((mem_prune_tombstones registry now).mp member).1
    simp [job, none]
  · cases found : ((registry.prune now).tombstones.get? key).isSome
    · simp [job]
    · simp [job]

theorem tick_advanced_iff (reflects : Reflects window calls registry) (now : Instant)
    (key : JobKey) (displayName : String) (progress : Float) :
    (registry.tick now key displayName progress).1.effect = .advanced ↔
      Tracked window calls key := by
  rw [← reflects.jobs_iff, tick_effect]
  by_cases job : (registry.jobs.get? key).isSome
  · simp [job]
  · cases ((registry.prune now).tombstones.get? key).isSome
    · simp [job]
    · simp [job]

/-! ## Each call keeps the tables in step -/

theorem tick (reflects : Reflects window calls registry)
    (same : registry = after window calls) :
    Reflects window (calls ++ [.tick now key displayName progress])
      (registry.tick now key displayName progress).2 where
  window_eq := by
    rw [tick_window, reflects.window_eq]
  jobs_iff other := by
    rw [isSome_tick_jobs_iff, tracked_concat_iff, reflects.jobs_iff, or_comm]
    subst same
    constructor
    · rintro (⟨rfl, live⟩ | tracked)
      · exact .inl ⟨now, displayName, progress, rfl, live⟩
      · exact .inr ⟨tracked, id⟩
    · rintro (⟨_, _, _, equality, live⟩ | ⟨tracked, -⟩)
      · cases equality
        exact .inl ⟨rfl, live⟩
      · exact .inr tracked
  buried := by
    intro entry member
    rw [tick_tombstones] at member
    obtain ⟨kept, -⟩ := (mem_prune_tombstones registry now).mp member
    exact List.mem_append_left _ (reflects.buried entry kept)
  remembered := by
    intro other finished member
    rw [tick_tombstones, times_append]
    have old : .finish finished other ∈ calls := by
      simpa using member
    rcases reflects.remembered_prune now old with kept | ⟨time, read, expired⟩ | expired
    · exact .inl kept
    · exact .inr ⟨time, List.mem_append_left _ read, expired⟩
    · exact .inr ⟨now, List.mem_append_right _ List.mem_cons_self, expired⟩
  apart := Apart.tick now key displayName progress reflects.apart

theorem finish (reflects : Reflects window calls registry)
    (latest : ∀ time ∈ times calls, time ≤ now) :
    Reflects window (calls ++ [.finish now key]) (registry.finish now key).2 where
  window_eq := by
    rw [finish_window, reflects.window_eq]
  jobs_iff other := by
    rw [finish_jobs, isSome_erase_iff, tracked_concat_iff, reflects.jobs_iff]
    simp [Ends, eq_comm]
  buried := by
    intro entry member
    obtain ⟨reached, tombstones⟩ := finish_tombstones registry now key
    rw [tombstones] at member
    rcases Table.eq_or_mem_of_mem_put member with rfl | old
    · exact List.mem_append_right _ List.mem_cons_self
    · obtain ⟨kept, -⟩ := (mem_prune_tombstones registry now).mp old
      exact List.mem_append_left _ (reflects.buried entry kept)
  remembered := by
    intro other finished member
    obtain ⟨reached, tombstones⟩ := finish_tombstones registry now key
    rw [tombstones, times_append]
    by_cases same : other = key
    · -- the new tombstone stands for every result of its key so far
      subst same
      refine .inl ⟨⟨reached, now⟩, Table.mem_put_self _ _ _, ?_⟩
      rcases List.mem_append.mp member with old | new
      · exact latest finished (mem_times old rfl)
      · cases List.mem_singleton.mp new
        exact Nat.le_refl now
    · have old : .finish finished other ∈ calls := by
        simpa [same] using member
      rcases reflects.remembered_prune now old with
        ⟨tombstone, kept, later⟩ | ⟨time, read, expired⟩ | expired
      · exact .inl ⟨tombstone, Table.mem_put_of_ne kept same, later⟩
      · exact .inr ⟨time, List.mem_append_left _ read, expired⟩
      · exact .inr ⟨now, List.mem_append_right _ List.mem_cons_self, expired⟩
  apart := Apart.finish now key reflects.apart

theorem close (reflects : Reflects window calls registry) :
    Reflects window (calls ++ [.close key]) (registry.close key).2 where
  window_eq := by
    rw [close_window, reflects.window_eq]
  jobs_iff other := by
    rw [close_jobs, isSome_erase_iff, tracked_concat_iff, reflects.jobs_iff]
    simp [Ends, eq_comm]
  buried := by
    intro entry member
    exact List.mem_append_left _ (reflects.buried entry member)
  remembered := by
    intro other finished member
    rw [close_tombstones, times_append]
    have old : .finish finished other ∈ calls := by
      simpa using member
    rcases reflects.remembered other finished old with kept | ⟨time, read, expired⟩
    · exact .inl kept
    · exact .inr ⟨time, List.mem_append_left _ read, expired⟩
  apart := Apart.close key reflects.apart

end Reflects

/-- After every run with an advancing clock the tables reflect the calls. -/
theorem reflects_after (window : Nat) (calls : List RegistryCall)
    (advances : ClockAdvances calls) : Reflects window calls (after window calls) := by
  induction calls using List.reverseRecOn with
  | nil => exact Reflects.empty
  | append_singleton calls call inductionHypothesis =>
      have reflects := inductionHypothesis advances.of_append
      rw [after_concat]
      cases call with
      | tick now key displayName progress =>
          exact reflects.tick rfl
      | finish now key =>
          exact reflects.finish fun time read => advances.le_now rfl read
      | close key =>
          exact reflects.close

/-! ## The law -/

/-- Ticks, jobs and the question whether there is any job, told from the history of each key. -/
theorem effects_and_jobs_of_history (window : Nat) (calls : List RegistryCall)
    (advances : ClockAdvances calls) :
    (∀ earlier now key displayName progress later,
      calls = earlier ++ .tick now key displayName progress :: later →
        (effectAfter window earlier now key displayName progress = .stale ↔
          FinishedWithin window earlier now key) ∧
        (¬ FinishedWithin window earlier now key →
          (effectAfter window earlier now key displayName progress = .advanced ↔
            Tracked window earlier key) ∧
          (effectAfter window earlier now key displayName progress = .started ↔
            ¬ Tracked window earlier key))) ∧
    (∀ key, ((after window calls).job? key).isSome ↔ Tracked window calls key) ∧
    ((after window calls).hasJobs = true ↔ ∃ key, Tracked window calls key) := by
  have reflects := reflects_after window calls advances
  refine ⟨?_, reflects.jobs_iff, ?_⟩
  · rintro earlier now key displayName progress later rfl
    have reflectsEarlier := reflects_after window earlier advances.of_append
    have latest : ∀ time ∈ times earlier, time ≤ now :=
      fun time read => advances.le_now rfl read
    have stale := reflectsEarlier.tick_stale_iff latest key displayName progress
    have advanced := reflectsEarlier.tick_advanced_iff now key displayName progress
    refine ⟨stale, fun notFinished => ⟨advanced, ?_⟩⟩
    have live : effectAfter window earlier now key displayName progress ≠ .stale :=
      fun late => notFinished (stale.mp late)
    rw [← advanced]
    change effectAfter window earlier now key displayName progress = .started ↔
      ¬ effectAfter window earlier now key displayName progress = .advanced
    cases effect : effectAfter window earlier now key displayName progress with
    | started => simp
    | advanced => simp
    | stale => exact absurd effect live
  · rw [hasJobs_iff]
    exact exists_congr reflects.jobs_iff

def expiringKey : JobKey := ⟨⟨"/dev/sda1"⟩, .encrypt⟩

/-- A job that ends at time 2, and ticks at the last moment of a window of 3 and just after. -/
def expiringRun : List RegistryCall :=
  [.tick 0 expiringKey "sda1" 40, .finish 2 expiringKey, .tick 4 expiringKey "sda1" 40,
    .tick 5 expiringKey "sda1" 0]

theorem effects_at_expiry :
    ClockAdvances expiringRun ∧
    effectAfter 3 (expiringRun.take 2) 4 expiringKey "sda1" 40 = .stale ∧
    ¬ FinishedWithin 3 (expiringRun.take 3) 5 expiringKey ∧
    ¬ Tracked 3 (expiringRun.take 3) expiringKey ∧
    Tracked 3 expiringRun expiringKey := by
  have advances : ClockAdvances expiringRun := by decide
  obtain ⟨ticks, jobs, -⟩ := effects_and_jobs_of_history 3 expiringRun advances
  obtain ⟨within, -⟩ :=
    ticks (expiringRun.take 2) 4 expiringKey "sda1" 40 (expiringRun.drop 3) rfl
  obtain ⟨beyond, otherwise⟩ :=
    ticks (expiringRun.take 3) 5 expiringKey "sda1" 0 [] rfl
  have late : effectAfter 3 (expiringRun.take 2) 4 expiringKey "sda1" 40 = .stale :=
    within.mpr ⟨2, List.mem_cons_of_mem _ List.mem_cons_self, by decide⟩
  have notFinished : ¬ FinishedWithin 3 (expiringRun.take 3) 5 expiringKey :=
    fun finished => absurd (beyond.mpr finished) (by decide)
  have notTracked : ¬ Tracked 3 (expiringRun.take 3) expiringKey :=
    (otherwise notFinished).2.mp (by decide)
  exact ⟨advances, late, notFinished, notTracked, (jobs expiringKey).mp (by decide)⟩

end DiskWarden.Registry
