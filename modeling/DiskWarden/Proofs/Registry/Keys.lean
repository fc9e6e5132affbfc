import DiskWarden.Proofs.Registry.Calls
import Mathlib.Data.List.Induction
import Mathlib.Data.String.Basic

/-!
# The jobs of a registry in the order of their keys

However a registry comes about, it has one job for a key at most, and each job carries its own
key.  Sorting its jobs by their keys therefore puts them in a strict order, and they are exactly
the jobs that are found by their keys.
-/

namespace DiskWarden

/-! ## The order of keys -/

namespace JobKey

/-- The path of the device decides, and for the same device the kind. -/
def Precedes (first second : JobKey) : Prop :=
  first.device.path < second.device.path ∨
    (first.device = second.device ∧ first.kind.rank < second.kind.rank)

variable {first second third : JobKey}

theorem eq_of_rank_eq (sameDevice : first.device = second.device)
    (sameRank : first.kind.rank = second.kind.rank) : first = second := by
  cases first with
  | mk device kind =>
      cases second with
      | mk device' kind' =>
          cases sameDevice
          cases kind with
          | encrypt =>
              cases kind' with
              | encrypt => rfl
              | decrypt => cases sameRank
          | decrypt =>
              cases kind' with
              | encrypt => cases sameRank
              | decrypt => rfl

theorem Precedes.trans (earlier : first.Precedes second) (later : second.Precedes third) :
    first.Precedes third := by
  cases earlier with
  | inl path =>
      cases later with
      | inl path' => exact .inl (path.trans path')
      | inr kind => exact .inl (kind.1 ▸ path)
  | inr kind =>
      cases later with
      | inl path => exact .inl (kind.1 ▸ path)
      | inr kind' => exact .inr ⟨kind.1.trans kind'.1, kind.2.trans kind'.2⟩

theorem precedes_or_eq_or_precedes (first second : JobKey) :
    first.Precedes second ∨ first = second ∨ second.Precedes first := by
  cases lt_trichotomy first.device.path second.device.path with
  | inl path => exact .inl (.inl path)
  | inr path =>
      cases path with
      | inr path => exact .inr (.inr (.inl path))
      | inl path =>
          have same : first.device = second.device := by
            cases first with
            | mk device => cases device; exact congrArg Device.mk path
          cases lt_trichotomy first.kind.rank second.kind.rank with
          | inl rank => exact .inl (.inr ⟨same, rank⟩)
          | inr rank =>
              cases rank with
              | inl rank => exact .inr (.inl (eq_of_rank_eq same rank))
              | inr rank => exact .inr (.inr (.inr ⟨same.symm, rank⟩))

/-- Sorting puts a key before another one if it is the same or precedes it. -/
theorem isBefore_iff : first.isBefore second = true ↔ first = second ∨ first.Precedes second := by
  by_cases same : first.device = second.device
  · have notPath : ¬ first.device.path < second.device.path := by
      rw [same]
      exact lt_irrefl _
    rw [isBefore, if_pos same, decide_eq_true_eq, Nat.le_iff_lt_or_eq]
    constructor
    · intro rank
      cases rank with
      | inl rank => exact .inr (.inr ⟨same, rank⟩)
      | inr rank => exact .inl (eq_of_rank_eq same rank)
    · intro order
      cases order with
      | inl equal => exact .inr (congrArg (fun key => key.kind.rank) equal)
      | inr precedes => exact .inl (precedes.resolve_left notPath).2
  · rw [isBefore, if_neg same, decide_eq_true_eq]
    constructor
    · exact fun path => .inr (.inl path)
    · intro order
      cases order with
      | inl equal => exact absurd (congrArg JobKey.device equal) same
      | inr precedes => exact precedes.resolve_right fun kind => same kind.1

theorem isBefore_trans (first second third : JobKey) (earlier : first.isBefore second = true)
    (later : second.isBefore third = true) : first.isBefore third = true := by
  rw [isBefore_iff] at *
  cases earlier with
  | inl equal => exact equal ▸ later
  | inr precedes =>
      cases later with
      | inl equal => exact .inr (equal ▸ precedes)
      | inr precedes' => exact .inr (precedes.trans precedes')

theorem isBefore_total (first second : JobKey) :
    (first.isBefore second || second.isBefore first) = true := by
  rw [Bool.or_eq_true, isBefore_iff, isBefore_iff]
  cases precedes_or_eq_or_precedes first second with
  | inl precedes => exact .inl (.inr precedes)
  | inr order =>
      cases order with
      | inl equal => exact .inl (.inl equal)
      | inr precedes => exact .inr (.inr precedes)

end JobKey

/-! ## Every job under its own key -/

/-- Where no key occurs twice, an entry is found by its key. -/
theorem Table.get?_eq_some_iff {κ ν : Type} [DecidableEq κ] {table : Table κ ν} {key : κ}
    {value : ν} (distinct : (table.map Prod.fst).Nodup) :
    table.get? key = some value ↔ (key, value) ∈ table := by
  refine ⟨mem_of_get?_eq_some, fun member => ?_⟩
  induction table with
  | nil => cases member
  | cons entry rest inductionHypothesis =>
      rw [List.map_cons, List.nodup_cons] at distinct
      rw [get?]
      cases List.mem_cons.mp member with
      | inl same =>
          cases same
          exact if_pos rfl
      | inr later =>
          have different : entry.1 ≠ key :=
            fun same => distinct.1 (same ▸ List.mem_map_of_mem later)
          rw [if_neg different]
          exact inductionHypothesis distinct.2 later

namespace Registry

/-- Each job stands under its own key, and no key stands there twice. -/
structure IsKeyed (registry : Registry) : Prop where
  distinct : (registry.jobs.map Prod.fst).Nodup
  key_eq : ∀ entry ∈ registry.jobs, entry.2.key = entry.1

variable {registry : Registry} {key : JobKey} {job : Job}

theorem isKeyed_empty (window : Nat) : (empty window).IsKeyed where
  distinct := List.nodup_nil
  key_eq := fun _ member => absurd member List.not_mem_nil

/-- Jobs that are put under their own keys keep a registry keyed. -/
theorem IsKeyed.of_put (keyed : registry.IsKeyed) (own : job.key = key) {left : Registry}
    (jobs_eq : left.jobs = registry.jobs.put key job) : left.IsKeyed where
  distinct := jobs_eq ▸ Table.nodup_put keyed.distinct
  key_eq := by
    intro entry member
    rw [jobs_eq] at member
    cases Table.eq_or_mem_of_mem_put member with
    | inl new => rw [new, own]
    | inr old => exact keyed.key_eq entry old

theorem IsKeyed.of_erase (keyed : registry.IsKeyed) {left : Registry}
    (jobs_eq : left.jobs = registry.jobs.erase key) : left.IsKeyed where
  distinct := jobs_eq ▸ keyed.distinct.sublist (List.filter_sublist.map Prod.fst)
  key_eq := by
    intro entry member
    rw [jobs_eq] at member
    exact keyed.key_eq entry (List.mem_of_mem_filter member)

theorem IsKeyed.apply (keyed : registry.IsKeyed) (call : RegistryCall) :
    (call.apply registry).IsKeyed := by
  cases call with
  | finish now key => exact keyed.of_erase (finish_jobs registry now key)
  | close key => exact keyed.of_erase (close_jobs registry key)
  | tick now key displayName progress =>
      have ticked : registry.tick now key displayName progress =
          ((registry.tick now key displayName progress).1,
            (registry.tick now key displayName progress).2) := rfl
      cases registry.tick_cases now key displayName progress ticked with
      | inl advanced =>
          have ⟨job, found, _, _, jobs_eq⟩ := advanced
          apply keyed.of_put _ jobs_eq
          exact keyed.key_eq _ (Table.mem_of_get?_eq_some found)
      | inr other =>
          cases other with
          | inl stale =>
              have ⟨_, _, jobs_eq⟩ := stale
              exact ⟨jobs_eq ▸ keyed.distinct, jobs_eq ▸ keyed.key_eq⟩
          | inr started =>
              have ⟨_, _, jobs_eq⟩ := started
              apply keyed.of_put _ jobs_eq
              rfl

theorem isKeyed_after (window : Nat) (calls : List RegistryCall) :
    (after window calls).IsKeyed := by
  induction calls using List.reverseRecOn with
  | nil => exact isKeyed_empty window
  | append_singleton calls call inductionHypothesis =>
      rw [after_concat]
      exact inductionHypothesis.apply call

/-! ## The jobs in their order -/

theorem IsKeyed.mem_sortedJobs_iff (keyed : registry.IsKeyed) :
    job ∈ registry.sortedJobs ↔ registry.job? job.key = some job := by
  rw [sortedJobs, (List.mergeSort_perm _ _).mem_iff, job?, Table.get?_eq_some_iff keyed.distinct,
    Table.values, List.mem_map]
  constructor
  · rintro ⟨entry, member, rfl⟩
    rw [keyed.key_eq entry member]
    exact member
  · exact fun member => ⟨_, member, rfl⟩

theorem IsKeyed.nodup_keys (keyed : registry.IsKeyed) :
    (registry.sortedJobs.map Job.key).Nodup := by
  have keys_eq : registry.jobs.values.map Job.key = registry.jobs.map Prod.fst := by
    rw [Table.values, List.map_map]
    exact List.map_congr_left keyed.key_eq
  have sorted : registry.sortedJobs.Perm registry.jobs.values := List.mergeSort_perm _ _
  rw [(sorted.map Job.key).nodup_iff, keys_eq]
  exact keyed.distinct

/-- No two jobs have the same key, so each precedes those behind it. -/
theorem IsKeyed.pairwise_sortedJobs (keyed : registry.IsKeyed) :
    registry.sortedJobs.Pairwise fun first second => first.key.Precedes second.key := by
  have sorted : registry.sortedJobs.Pairwise fun first second =>
      first.key.isBefore second.key = true := by
    apply List.pairwise_mergeSort
    · exact fun first second third => JobKey.isBefore_trans first.key second.key third.key
    · exact fun first second => JobKey.isBefore_total first.key second.key
  have different : registry.sortedJobs.Pairwise fun first second => first.key ≠ second.key :=
    List.pairwise_map.mp keyed.nodup_keys
  apply (sorted.and different).imp
  intro first second both
  exact (JobKey.isBefore_iff.mp both.1).resolve_left both.2

end Registry

end DiskWarden
