/-!
Finite tables with texts as keys, whose entries are kept in the order of their keys.
-/

namespace DiskWarden

/-- The entries of a table, in strictly increasing order of their keys. -/
structure SortedTable (ν : Type) where
  entries : List (String × ν)
  sorted : entries.Pairwise fun first second => first.1 < second.1

namespace SortedTable

variable {ν : Type}

def empty : SortedTable ν := ⟨[], .nil⟩

instance : Inhabited (SortedTable ν) := ⟨empty⟩

instance [DecidableEq ν] : DecidableEq (SortedTable ν) := fun first second =>
  match decEq first.entries second.entries with
  | isTrue same => isTrue (by cases first; cases second; simp_all)
  | isFalse differ => isFalse fun same => differ (by rw [same])

def get? (table : SortedTable ν) (key : String) : Option ν := table.entries.lookup key

def size (table : SortedTable ν) : Nat := table.entries.length

/-- Entries with a value at a key, in the place of an earlier one or where the order has it. -/
def putEntry (key : String) (value : ν) : List (String × ν) → List (String × ν)
  | [] => [(key, value)]
  | (k, old) :: rest =>
      if key < k then (key, value) :: (k, old) :: rest
      else if key = k then (key, value) :: rest
      else (k, old) :: putEntry key value rest

theorem fst_mem_putEntry {key : String} {value : ν} {entries : List (String × ν)}
    {entry : String × ν} (h : entry ∈ putEntry key value entries) :
    entry.1 = key ∨ entry ∈ entries := by
  induction entries with
  | nil =>
      simp only [putEntry, List.mem_singleton] at h
      exact .inl (by rw [h])
  | cons head rest ih =>
      obtain ⟨k, old⟩ := head
      unfold putEntry at h
      split at h
      · rcases List.mem_cons.mp h with h | h
        · exact .inl (by rw [h])
        · exact .inr h
      · split at h
        · rcases List.mem_cons.mp h with h | h
          · exact .inl (by rw [h])
          · exact .inr (List.mem_cons_of_mem _ h)
        · rcases List.mem_cons.mp h with h | h
          · exact .inr (by rw [h]; exact List.mem_cons_self)
          · rcases ih h with h | h
            · exact .inl h
            · exact .inr (List.mem_cons_of_mem _ h)

/-- Of two texts that differ, one comes first. -/
theorem lt_of_not_lt {first second : String} (h : ¬ first < second) (differ : first ≠ second) :
    second < first := by
  have le : second ≤ first := String.not_lt.mp h
  by_cases less : second < first
  · exact less
  · exact absurd (String.le_antisymm (String.not_lt.mp less) le) differ

theorem sorted_putEntry (key : String) (value : ν) {entries : List (String × ν)}
    (h : entries.Pairwise fun first second => first.1 < second.1) :
    (putEntry key value entries).Pairwise fun first second => first.1 < second.1 := by
  induction entries with
  | nil => simp [putEntry]
  | cons head rest ih =>
      obtain ⟨k, old⟩ := head
      obtain ⟨headFirst, restSorted⟩ := List.pairwise_cons.mp h
      unfold putEntry
      split
      · next less =>
          refine List.pairwise_cons.mpr ⟨fun entry member => ?_, h⟩
          rcases List.mem_cons.mp member with rfl | member
          · exact less
          · exact String.lt_trans less (headFirst entry member)
      · next notLess =>
          split
          · next same =>
              subst same
              exact List.pairwise_cons.mpr ⟨headFirst, restSorted⟩
          · next differ =>
              refine List.pairwise_cons.mpr ⟨fun entry member => ?_, ih restSorted⟩
              rcases fst_mem_putEntry member with same | member
              · exact same ▸ lt_of_not_lt notLess differ
              · exact headFirst entry member

/-- The table with a value at a key. -/
def put (table : SortedTable ν) (key : String) (value : ν) : SortedTable ν :=
  ⟨putEntry key value table.entries, sorted_putEntry key value table.sorted⟩

/-- The table of some entries, of which the last one for a key counts. -/
def ofList (entries : List (String × ν)) : SortedTable ν :=
  entries.foldl (fun table entry => table.put entry.1 entry.2) empty

end SortedTable

end DiskWarden
