import DiskWarden.Proofs.Percent.Clamp
import DiskWarden.Proofs.Registry.History

/-!
# The progress that a run reports

A tick is answered with the largest value of the job so far, in whatever order the values came.
A late tick is answered with what the last result of its key left behind.  Neither depends on
the readings of the clock.
-/

namespace DiskWarden

namespace Registry

open RegistryCall Percent

variable {window : Nat} {calls earlier later : List RegistryCall} {registry : Registry}
  {call : RegistryCall} {key other : JobKey} {now : Instant} {displayName : String}
  {progress : Float} {values : List Float} {job : Job} {evicted : Option Job}

/-! ## The history of a job -/

/-- The value that a call is a tick with for a key. -/
def valueAt? (key : JobKey) : RegistryCall → Option Float
  | .tick _ ticked _ progress => if ticked = key then some progress else none
  | .finish _ _ => none
  | .close _ => none

/-- The values of the ticks for a key. -/
def valuesAt (key : JobKey) (calls : List RegistryCall) : List Float :=
  calls.filterMap (valueAt? key)

/-- The first of some values has started a job, the others have come since, and no call has
ended the job. -/
def Running (window : Nat) (calls : List RegistryCall) (key : JobKey) (values : List Float) :
    Prop :=
  ∃ earlier now displayName progress later,
    calls = earlier ++ .tick now key displayName progress :: later ∧
      effectAfter window earlier now key displayName progress = .started ∧
      (∀ call ∈ later, ¬ call.Ends key) ∧ values = progress :: valuesAt key later

/-- What the latest result for a key has evicted. -/
def LastResult (window : Nat) (calls : List RegistryCall) (key : JobKey)
    (evicted : Option Job) : Prop :=
  ∃ earlier now later, calls = earlier ++ .finish now key :: later ∧
    (∀ finished, .finish finished key ∉ later) ∧
    ((after window earlier).finish now key).1 = evicted

theorem not_running_nil : ¬ Running window [] key values := by
  rintro ⟨earlier, now, displayName, progress, later, equality, -⟩
  exact List.append_ne_nil_of_right_ne_nil earlier (List.cons_ne_nil _ _) equality.symm

theorem running_concat_tick
    (started : effectAfter window calls now key displayName progress = .started) :
    Running window (calls ++ [.tick now key displayName progress]) key [progress] :=
  ⟨calls, now, displayName, progress, [], rfl, started, nofun, rfl⟩

theorem Running.append (running : Running window calls key values)
    (kept : ∀ call ∈ later, ¬ call.Ends key) :
    Running window (calls ++ later) key (values ++ valuesAt key later) := by
  obtain ⟨earlier, now, displayName, progress, between, rfl, started, quiet, rfl⟩ := running
  refine ⟨earlier, now, displayName, progress, between ++ later, ?_, started, ?_, ?_⟩
  · rw [List.append_assoc, List.cons_append]
  · intro call member
    rcases List.mem_append.mp member with old | new
    · exact quiet call old
    · exact kept call new
  · rw [valuesAt, valuesAt, valuesAt, List.filterMap_append, List.cons_append]

/-- The last call decides: it is the tick that started the job, or it has left the job alone. -/
theorem running_concat_iff :
    Running window (calls ++ [call]) key values ↔
      (∃ now displayName progress, call = .tick now key displayName progress ∧
        effectAfter window calls now key displayName progress = .started ∧
        values = [progress]) ∨
      (∃ before, Running window calls key before ∧ ¬ call.Ends key ∧
        values = before ++ valuesAt key [call]) := by
  constructor
  · rintro ⟨earlier, now, displayName, progress, later, equality, started, quiet, rfl⟩
    rcases List.eq_nil_or_concat later with rfl | ⟨body, last, rfl⟩
    · obtain ⟨sameCalls, sameCall⟩ := List.append_inj' equality rfl
      cases sameCall
      exact .inl ⟨now, displayName, progress, rfl, sameCalls ▸ started, rfl⟩
    · rw [List.concat_eq_append, ← List.cons_append, ← List.append_assoc] at equality
      obtain ⟨sameCalls, sameCall⟩ := List.append_inj' equality rfl
      cases sameCall
      rw [List.concat_eq_append] at quiet ⊢
      refine .inr ⟨progress :: valuesAt key body,
        ⟨earlier, now, displayName, progress, body, sameCalls, started, ?_, rfl⟩, ?_, ?_⟩
      · exact fun other member => quiet other (List.mem_append_left _ member)
      · exact quiet call (List.mem_append_right _ List.mem_cons_self)
      · rw [valuesAt, valuesAt, valuesAt, List.filterMap_append, List.cons_append]
  · rintro (⟨now, displayName, progress, rfl, started, rfl⟩ | ⟨before, running, kept, rfl⟩)
    · exact running_concat_tick started
    · exact running.append fun other member => List.mem_singleton.mp member ▸ kept

theorem LastResult.concat (last : LastResult window calls key evicted)
    (noResult : ∀ finished, call ≠ .finish finished key) :
    LastResult window (calls ++ [call]) key evicted := by
  obtain ⟨earlier, now, later, rfl, latest, same⟩ := last
  refine ⟨earlier, now, later ++ [call], ?_, ?_, same⟩
  · rw [List.append_assoc, List.cons_append]
  · intro finished member
    rcases List.mem_append.mp member with old | new
    · exact latest finished old
    · exact noResult finished (List.mem_singleton.mp new).symm

/-! ## What a tick answers and leaves -/

theorem tick_of_job (found : registry.jobs.get? key = some job) :
    registry.tick now key displayName progress =
      (⟨.advanced, job.progress.raise progress⟩,
        { registry.prune now with
          jobs := registry.jobs.put key
            { job with progress := job.progress.raise progress } }) := by
  rw [tick, prune_jobs, found]
  rfl

theorem tick_of_started
    (started : (registry.tick now key displayName progress).1.effect = .started) :
    registry.tick now key displayName progress =
      (⟨.started, reach [progress]⟩,
        { registry.prune now with
          jobs := registry.jobs.put key ⟨key, displayName, reach [progress], .active⟩ }) := by
  have first : reach [progress] = (ofFloat? progress).getD .zero := raise_zero progress
  rw [tick_effect] at started
  split at started
  · cases started
  next noJob =>
    split at started
    · cases started
    next noTombstone =>
      rw [Option.not_isSome_iff_eq_none] at noJob noTombstone
      unfold tick
      simp only [prune_jobs, noJob, noTombstone, first]

theorem tick_of_stale (stale : (registry.tick now key displayName progress).1.effect = .stale) :
    ∃ tombstone, (registry.prune now).tombstones.get? key = some tombstone ∧
      registry.tick now key displayName progress =
        (⟨.stale, tombstone.finalProgress⟩, registry.prune now) := by
  rw [tick_effect] at stale
  split at stale
  · cases stale
  next noJob =>
    split at stale
    next buried =>
      rw [Option.not_isSome_iff_eq_none] at noJob
      obtain ⟨tombstone, found⟩ := Option.isSome_iff_exists.mp buried
      refine ⟨tombstone, found, ?_⟩
      unfold tick
      simp only [prune_jobs, noJob, found]
    · cases stale

theorem get?_tick_of_ne (different : other ≠ key) :
    (registry.tick now key displayName progress).2.jobs.get? other =
      registry.jobs.get? other := by
  rcases ticked : registry.tick now key displayName progress with ⟨answer, left⟩
  rcases registry.tick_cases now key displayName progress ticked with
    ⟨job, -, -, -, jobs⟩ | ⟨-, -, jobs⟩ | ⟨-, -, jobs⟩
  · rw [jobs, Table.get?_put, if_neg different.symm]
  · rw [jobs]
  · rw [jobs, Table.get?_put, if_neg different.symm]

/-! ## The tables and the history -/

/-- The jobs of a registry have reached what their ticks reach, and its tombstones tell of the
latest results. -/
structure Recalls (window : Nat) (calls : List RegistryCall) (registry : Registry) : Prop where
  running : ∀ key, (registry.jobs.get? key).isSome → ∃ values, Running window calls key values
  reached : ∀ key values, Running window calls key values →
    ∃ job, registry.jobs.get? key = some job ∧ job.progress = reach values
  buried : ∀ entry ∈ registry.tombstones, ∃ evicted, LastResult window calls entry.1 evicted ∧
    entry.2.finalProgress = (evicted.map Job.progress).getD .zero
  distinct : (registry.tombstones.map Prod.fst).Nodup

namespace Recalls

theorem empty : Recalls window [] (Registry.empty window) where
  running := nofun
  reached _ _ running := absurd running not_running_nil
  buried := nofun
  distinct := List.nodup_nil

theorem prune (recalls : Recalls window calls registry) (now : Instant) :
    Recalls window calls (registry.prune now) where
  running := recalls.running
  reached := recalls.reached
  buried entry member :=
    recalls.buried entry ((mem_prune_tombstones registry now).mp member).1
  distinct := recalls.distinct.sublist (List.filter_sublist.map Prod.fst)

theorem tick (recalls : Recalls window calls registry) (same : registry = after window calls) :
    Recalls window (calls ++ [.tick now key displayName progress])
      (registry.tick now key displayName progress).2 where
  running other found := by
    by_cases had : (registry.jobs.get? other).isSome
    · obtain ⟨values, running⟩ := recalls.running other had
      exact ⟨_, running.append fun _ member => List.mem_singleton.mp member ▸ id⟩
    · rcases (isSome_tick_jobs_iff registry now key displayName progress other).mp found with
        old | ⟨rfl, live⟩
      · exact absurd old had
      · subst same
        refine ⟨_, running_concat_tick ?_⟩
        rw [tick_effect, if_neg had] at live
        rw [effectAfter, tick_effect, if_neg had]
        split at live
        · exact absurd rfl live
        · next noTombstone => exact if_neg noTombstone
  reached other values running := by
    rcases running_concat_iff.mp running with
      ⟨_, _, _, equality, started, rfl⟩ | ⟨before, ran, -, rfl⟩
    · cases equality
      rw [effectAfter, ← same] at started
      rw [tick_of_started started]
      exact ⟨_, (Table.get?_put _ _ _ _).trans (if_pos rfl), rfl⟩
    · obtain ⟨job, found, reached⟩ := recalls.reached other before ran
      by_cases own : key = other
      · subst own
        have value : valuesAt key [.tick now key displayName progress] = [progress] := by
          simp [valuesAt, valueAt?]
        rw [tick_of_job found, value, reach_concat, ← reached]
        exact ⟨_, (Table.get?_put _ _ _ _).trans (if_pos rfl), rfl⟩
      · have none : valuesAt other [.tick now key displayName progress] = [] := by
          simp [valuesAt, valueAt?, own]
        rw [get?_tick_of_ne (Ne.symm own), none, List.append_nil]
        exact ⟨job, found, reached⟩
  buried entry member := by
    rw [tick_tombstones] at member
    obtain ⟨evicted, last, same⟩ := (recalls.prune now).buried entry member
    exact ⟨evicted, last.concat fun _ => RegistryCall.noConfusion, same⟩
  distinct := by
    rw [tick_tombstones]
    exact (recalls.prune now).distinct

/-- A call that ends the job of a key has no part in the jobs of other keys. -/
theorem erase (recalls : Recalls window calls registry) (call : RegistryCall)
    (ends : ∀ other, call.Ends other ↔ key = other) (silent : ∀ other, valueAt? other call = none) :
    (∀ other, ((registry.jobs.erase key).get? other).isSome →
      ∃ values, Running window (calls ++ [call]) other values) ∧
    (∀ other values, Running window (calls ++ [call]) other values →
      ∃ job, (registry.jobs.erase key).get? other = some job ∧ job.progress = reach values) := by
  constructor
  · intro other found
    obtain ⟨had, different⟩ := (isSome_erase_iff key registry.jobs other).mp found
    obtain ⟨values, running⟩ := recalls.running other had
    refine ⟨_, running.append fun _ member => ?_⟩
    rw [List.mem_singleton.mp member, ends]
    exact different.symm
  · intro other values running
    rcases running_concat_iff.mp running with ⟨_, _, progress, rfl, -⟩ | ⟨before, ran, kept, rfl⟩
    · have value := silent other
      simp [valueAt?] at value
    · obtain ⟨job, found, reached⟩ := recalls.reached other before ran
      rw [ends] at kept
      have none : valuesAt other [call] = [] := by
        simp [valuesAt, silent]
      rw [Table.get?_erase, if_neg kept, none, List.append_nil]
      exact ⟨job, found, reached⟩

theorem finish (recalls : Recalls window calls registry)
    (same : registry = after window calls) :
    Recalls window (calls ++ [.finish now key]) (registry.finish now key).2 := by
  obtain ⟨running, reached⟩ := recalls.erase (.finish now key) (fun _ => Iff.rfl)
    (fun _ => rfl)
  refine ⟨running, reached, ?_, Table.nodup_put (recalls.prune now).distinct⟩
  intro entry member
  rcases Table.eq_or_ne_of_mem_put (recalls.prune now).distinct member with
    rfl | ⟨old, different⟩
  · exact ⟨(registry.finish now key).1, ⟨calls, now, [], rfl, nofun, same ▸ rfl⟩, rfl⟩
  · obtain ⟨evicted, last, left⟩ := (recalls.prune now).buried entry old
    refine ⟨evicted, last.concat fun _ equality => ?_, left⟩
    cases equality
    exact different rfl

theorem close (recalls : Recalls window calls registry) :
    Recalls window (calls ++ [.close key]) (registry.close key).2 := by
  obtain ⟨running, reached⟩ := recalls.erase (.close key) (fun _ => Iff.rfl)
    (fun _ => rfl)
  refine ⟨running, reached, ?_, recalls.distinct⟩
  intro entry member
  obtain ⟨evicted, last, left⟩ := recalls.buried entry member
  exact ⟨evicted, last.concat nofun, left⟩

end Recalls

theorem recalls_after (window : Nat) (calls : List RegistryCall) :
    Recalls window calls (after window calls) := by
  induction calls using List.reverseRecOn with
  | nil => exact Recalls.empty
  | append_singleton calls call inductionHypothesis =>
      rw [after_concat]
      cases call with
      | tick now key displayName progress => exact inductionHypothesis.tick rfl
      | finish now key => exact inductionHypothesis.finish rfl
      | close key => exact inductionHypothesis.close

/-! ## The law -/

/-- The answer to a tick that follows some calls on a fresh registry. -/
def answerAfter (window : Nat) (calls : List RegistryCall) (now : Instant) (key : JobKey)
    (displayName : String) (progress : Float) : Tick :=
  ((after window calls).tick now key displayName progress).1

/-- A job is running at a key, and some progress is the largest of the values of its ticks. -/
def IsReached (window : Nat) (calls : List RegistryCall) (key : JobKey) (progress : Percent) :
    Prop :=
  (∃ values, Running window calls key values) ∧
    ∀ values, Running window calls key values → IsLargest values progress.toFloat

theorem eq_reach_of_job (found : (after window calls).jobs.get? key = some job)
    (running : Running window calls key values) : job.progress = reach values := by
  obtain ⟨held, same, reached⟩ := (recalls_after window calls).reached key values running
  cases found.symm.trans same
  exact reached

theorem isReached_of_job (found : (after window calls).jobs.get? key = some job) :
    IsReached window calls key job.progress := by
  refine ⟨(recalls_after window calls).running key (Option.isSome_iff_exists.mpr ⟨job, found⟩), ?_⟩
  intro values running
  rw [eq_reach_of_job found running]
  exact isLargest_reach values

/-- A tick that is not late leaves a job with the progress that it is answered with. -/
theorem exists_job_of_live
    (live : (answerAfter window calls now key displayName progress).effect ≠ .stale) :
    ∃ job, (after window (calls ++ [.tick now key displayName progress])).jobs.get? key = some job ∧
      job.progress = (answerAfter window calls now key displayName progress).progress := by
  rw [after_concat]
  rcases ticked : (after window calls).tick now key displayName progress with ⟨answer, left⟩
  rw [answerAfter, ticked] at live ⊢
  rw [RegistryCall.apply, ticked]
  rcases (after window calls).tick_cases now key displayName progress ticked with
    ⟨job, -, -, -, jobs⟩ | ⟨-, stale, -⟩ | ⟨-, -, jobs⟩
  · rw [jobs]
    exact ⟨_, (Table.get?_put _ _ _ _).trans (if_pos rfl), rfl⟩
  · exact absurd stale live
  · rw [jobs]
    exact ⟨_, (Table.get?_put _ _ _ _).trans (if_pos rfl), rfl⟩

theorem lastResult_of_stale
    (stale : (answerAfter window calls now key displayName progress).effect = .stale) :
    ∃ evicted, LastResult window calls key evicted ∧
      (answerAfter window calls now key displayName progress).progress =
        (evicted.map Job.progress).getD .zero := by
  obtain ⟨tombstone, found, ticked⟩ := tick_of_stale stale
  rw [answerAfter, ticked]
  exact ((recalls_after window calls).prune now).buried _ (Table.mem_of_get?_eq_some found)

theorem live_of_running (running : Running window calls key values) (now : Instant)
    (displayName : String) (progress : Float) :
    (answerAfter window calls now key displayName progress).effect ≠ .stale := by
  obtain ⟨job, found, -⟩ := (recalls_after window calls).reached key values running
  rw [answerAfter, tick_effect, found]
  nofun

/-- While a job goes on, the answers to its ticks never decrease. -/
theorem answer_le_answer {laterTime : Instant} {laterName : String} {laterValue : Float}
    (live : (answerAfter window calls now key displayName progress).effect ≠ .stale)
    (kept : ∀ call ∈ later, ¬ call.Ends key) :
    (answerAfter window calls now key displayName progress).progress.toFloat ≤
      (answerAfter window (calls ++ .tick now key displayName progress :: later) laterTime key
        laterName laterValue).progress.toFloat := by
  rw [← List.singleton_append, ← List.append_assoc]
  obtain ⟨job, found, same⟩ := exists_job_of_live live
  obtain ⟨⟨values, running⟩, -⟩ := isReached_of_job found
  have still := running.append kept
  have stillLive := live_of_running still laterTime laterName laterValue
  obtain ⟨held, heldFound, heldSame⟩ := exists_job_of_live stillLive
  have goesOn : ∀ call ∈ [RegistryCall.tick laterTime key laterName laterValue],
      ¬ call.Ends key := fun _ member => List.mem_singleton.mp member ▸ id
  have last := still.append goesOn
  rw [← same, ← heldSame, eq_reach_of_job found running, eq_reach_of_job heldFound last]
  apply reach_le_reach
  exact fun _ member => List.mem_append_left _ (List.mem_append_left _ member)

theorem exists_job_of_evicted {evicted : Job}
    (finished : (registry.finish now key).1 = some evicted) :
    ∃ job, registry.jobs.get? key = some job ∧ evicted.progress = job.progress := by
  obtain ⟨job, found, rfl⟩ := Option.map_eq_some_iff.mp finished
  exact ⟨job, found, rfl⟩

/-- The answer to a tick, and what a result evicts, told from the history of the key.  It takes
no account of the clock, of the order of the ticks or of their repetition. -/
theorem progress_of_history (window : Nat) (calls : List RegistryCall) (key : JobKey) :
    (∀ now displayName progress,
      let answer := answerAfter window calls now key displayName progress
      (answer.effect ≠ .stale →
        IsReached window (calls ++ [.tick now key displayName progress]) key answer.progress) ∧
      (answer.effect = .stale →
        ∃ evicted, LastResult window calls key evicted ∧
          answer.progress = (evicted.map Job.progress).getD .zero) ∧
      (answer.progress.toFloat.isNaN = false ∧ 0 ≤ answer.progress.toFloat ∧
        answer.progress.toFloat ≤ 100) ∧
      ∀ earlier earlierTime earlierName earlierValue between,
        calls = earlier ++ .tick earlierTime key earlierName earlierValue :: between →
        let before := answerAfter window earlier earlierTime key earlierName earlierValue
        before.effect ≠ .stale → (∀ call ∈ between, ¬ call.Ends key) →
          before.progress.toFloat ≤ answer.progress.toFloat) ∧
    (∀ now evicted, ((after window calls).finish now key).1 = some evicted →
      IsReached window calls key evicted.progress ∧
      ∀ others otherTime other, ((after window others).finish otherTime key).1 = some other →
        ∀ values otherValues, Running window calls key values →
          Running window others key otherValues → (∀ value, value ∈ values ↔ value ∈ otherValues) →
            evicted.progress.toFloat ≤ other.progress.toFloat ∧
              other.progress.toFloat ≤ evicted.progress.toFloat) := by
  constructor
  · intro now displayName progress
    refine ⟨?_, lastResult_of_stale, ⟨isNaN_toFloat _, zero_le_toFloat _, toFloat_le_hundred _⟩, ?_⟩
    · intro live
      obtain ⟨job, found, same⟩ := exists_job_of_live live
      rw [← same]
      exact isReached_of_job found
    · rintro earlier earlierTime earlierName earlierValue between rfl before live kept
      exact answer_le_answer live kept
  · intro now evicted finished
    obtain ⟨job, found, same⟩ := exists_job_of_evicted finished
    rw [same]
    refine ⟨isReached_of_job found, ?_⟩
    intro others otherTime other otherFinished values otherValues running otherRunning members
    obtain ⟨otherJob, otherFound, otherSame⟩ := exists_job_of_evicted otherFinished
    rw [otherSame, eq_reach_of_job found running, eq_reach_of_job otherFound otherRunning]
    constructor
    · exact reach_le_reach fun value => (members value).mp
    · exact reach_le_reach fun value => (members value).mpr

/-- Ticks under a clock that runs backwards: a value, what is no number, and more than all. -/
def hurriedRun : List RegistryCall :=
  [.tick 5 expiringKey "sda1" 40, .tick 3 expiringKey "sda1" (0 / 0),
    .tick 4 expiringKey "sda1" 250]

/-- The same values in another order, and one of them twice. -/
def repeatedRun : List RegistryCall :=
  [.tick 5 expiringKey "sda1" 250, .tick 3 expiringKey "sda1" 40,
    .tick 1 expiringKey "sda1" (0 / 0), .tick 1 expiringKey "sda1" 250]

theorem progress_of_hurried_run :
    IsReached 3 (hurriedRun.take 2 ++ [.tick 4 expiringKey "sda1" 250]) expiringKey
      (answerAfter 3 (hurriedRun.take 2) 4 expiringKey "sda1" 250).progress ∧
    (answerAfter 3 [] 5 expiringKey "sda1" 40).progress.toFloat ≤
      (answerAfter 3 (hurriedRun.take 2) 4 expiringKey "sda1" 250).progress.toFloat ∧
    (∃ evicted, LastResult 3 (hurriedRun ++ [.finish 6 expiringKey]) expiringKey evicted ∧
      (answerAfter 3 (hurriedRun ++ [.finish 6 expiringKey]) 0 expiringKey "sda1" 7).progress =
        (evicted.map Job.progress).getD .zero) ∧
    ∃ evicted other, ((after 3 hurriedRun).finish 6 expiringKey).1 = some evicted ∧
      ((after 3 repeatedRun).finish 0 expiringKey).1 = some other ∧
      evicted.progress.toFloat ≤ other.progress.toFloat ∧
        other.progress.toFloat ≤ evicted.progress.toFloat := by
  obtain ⟨ticks, -⟩ := progress_of_history 3 (hurriedRun.take 2) expiringKey
  obtain ⟨live, -, -, rising⟩ := ticks 4 "sda1" 250
  obtain ⟨lateTicks, -⟩ :=
    progress_of_history 3 (hurriedRun ++ [.finish 6 expiringKey]) expiringKey
  obtain ⟨-, stale, -⟩ := lateTicks 0 "sda1" 7
  obtain ⟨-, results⟩ := progress_of_history 3 hurriedRun expiringKey
  have running : Running 3 hurriedRun expiringKey [40, 0 / 0, 250] :=
    ⟨[], 5, "sda1", 40, hurriedRun.tail, rfl, by decide, by simp [hurriedRun, Ends], rfl⟩
  have repeated : Running 3 repeatedRun expiringKey [250, 40, 0 / 0, 250] :=
    ⟨[], 5, "sda1", 250, repeatedRun.tail, rfl, by decide, by simp [repeatedRun, Ends], rfl⟩
  refine ⟨live (by decide), ?_, stale (by decide), ?_⟩
  · exact rising [] 5 "sda1" 40 (hurriedRun.take 2).tail rfl (by decide)
      (by simp [hurriedRun, Ends])
  · obtain ⟨-, same⟩ := results 6 ⟨expiringKey, "sda1", .hundred, .terminal⟩ (by decide)
    refine ⟨⟨expiringKey, "sda1", .hundred, .terminal⟩,
      ⟨expiringKey, "sda1", .hundred, .terminal⟩, by decide, by decide, ?_⟩
    apply same repeatedRun 0 _ (by decide) _ _ running repeated
    intro value
    refine ⟨List.mem_cons_of_mem _, fun member => ?_⟩
    rcases List.mem_cons.mp member with same | old
    · rw [same]
      exact List.mem_cons_of_mem _ (List.mem_cons_of_mem _ List.mem_cons_self)
    · exact old

end Registry

end DiskWarden
