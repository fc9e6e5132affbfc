/-!
Finite tables as lists of entries, with at most one entry for a key.
-/

namespace DiskWarden

/-- The entries of a table. -/
abbrev Table (κ ν : Type) := List (κ × ν)

namespace Table

variable {κ ν : Type} [DecidableEq κ]

def get? (table : Table κ ν) (key : κ) : Option ν :=
  match table with
  | [] => none
  | (k, value) :: rest => if k = key then some value else get? rest key

def erase (table : Table κ ν) (key : κ) : Table κ ν :=
  table.filter fun entry => entry.1 ≠ key

/-- The table with a value at a key, in the place of an earlier one or at the end. -/
def put (table : Table κ ν) (key : κ) (value : ν) : Table κ ν :=
  match table with
  | [] => [(key, value)]
  | (k, old) :: rest =>
      if k = key then (key, value) :: rest else (k, old) :: put rest key value

@[simp]
theorem get?_nil (key : κ) : get? ([] : Table κ ν) key = none := rfl

theorem get?_put (table : Table κ ν) (key other : κ) (value : ν) :
    (put table key value).get? other = if key = other then some value else table.get? other := by
  induction table with
  | nil => simp [put, get?]
  | cons entry rest ih =>
      obtain ⟨k, old⟩ := entry
      by_cases same : k = key
      · subst same
        by_cases h : k = other <;> simp [put, get?, h]
      · by_cases h : k = other
        · subst h
          simp [put, get?, same, Ne.symm same]
        · simp [put, get?, same, h, ih]

theorem get?_erase (table : Table κ ν) (key other : κ) :
    (erase table key).get? other = if key = other then none else table.get? other := by
  induction table with
  | nil => simp [erase]
  | cons entry rest ih =>
      obtain ⟨k, value⟩ := entry
      by_cases same : k = key
      · subst same
        have dropped : erase ((k, value) :: rest) k = erase rest k := by
          simp [erase]
        rw [dropped, ih]
        by_cases h : k = other <;> simp [get?, h]
      · have kept : erase ((k, value) :: rest) key = (k, value) :: erase rest key := by
          simp [erase, same]
        rw [kept]
        by_cases h : k = other
        · subst h
          simp [get?, Ne.symm same]
        · simp [get?, h, ih]

/-! ## Entries -/

theorem isSome_get?_iff {table : Table κ ν} {key : κ} :
    (table.get? key).isSome ↔ ∃ value, (key, value) ∈ table := by
  induction table with
  | nil => simp
  | cons entry rest inductionHypothesis =>
      obtain ⟨k, value⟩ := entry
      by_cases same : k = key
      · subst same
        simp only [get?, if_true, Option.isSome_some, true_iff]
        exact ⟨value, List.mem_cons_self⟩
      · simp only [get?, same, if_false, inductionHypothesis, List.mem_cons, Prod.mk.injEq,
          Ne.symm same, false_and, false_or]

theorem get?_eq_none_iff {table : Table κ ν} {key : κ} :
    table.get? key = none ↔ ∀ value, (key, value) ∉ table := by
  rw [← Option.not_isSome_iff_eq_none, isSome_get?_iff]
  exact not_exists

theorem erase_eq_self {table : Table κ ν} {key : κ} (absent : table.get? key = none) :
    table.erase key = table := by
  refine List.filter_eq_self.mpr fun entry member => decide_eq_true fun same => ?_
  exact get?_eq_none_iff.mp absent entry.2 (same ▸ member)

theorem mem_put_self (table : Table κ ν) (key : κ) (value : ν) :
    (key, value) ∈ table.put key value := by
  induction table with
  | nil => exact List.mem_cons_self
  | cons entry rest inductionHypothesis =>
      unfold put
      split
      · exact List.mem_cons_self
      · exact List.mem_cons_of_mem _ inductionHypothesis

theorem mem_put_of_ne {table : Table κ ν} {key : κ} {value : ν} {entry : κ × ν}
    (member : entry ∈ table) (different : entry.1 ≠ key) : entry ∈ table.put key value := by
  induction table with
  | nil => cases member
  | cons head rest inductionHypothesis =>
      unfold put
      rcases List.mem_cons.mp member with rfl | later
      · rw [if_neg different]
        exact List.mem_cons_self
      · split
        · exact List.mem_cons_of_mem _ later
        · exact List.mem_cons_of_mem _ (inductionHypothesis later)

theorem eq_or_mem_of_mem_put {table : Table κ ν} {key : κ} {value : ν} {entry : κ × ν}
    (member : entry ∈ table.put key value) : entry = (key, value) ∨ entry ∈ table := by
  induction table with
  | nil => exact .inl (List.mem_singleton.mp member)
  | cons head rest inductionHypothesis =>
      unfold put at member
      split at member
      · rcases List.mem_cons.mp member with same | later
        · exact .inl same
        · exact .inr (List.mem_cons_of_mem _ later)
      · rcases List.mem_cons.mp member with rfl | later
        · exact .inr List.mem_cons_self
        · rcases inductionHypothesis later with same | old
          · exact .inl same
          · exact .inr (List.mem_cons_of_mem _ old)

theorem mem_of_get?_eq_some {table : Table κ ν} {key : κ} {value : ν}
    (found : table.get? key = some value) :
    (key, value) ∈ table := by
  induction table with
  | nil => cases found
  | cons entry rest inductionHypothesis =>
      obtain ⟨k, held⟩ := entry
      by_cases same : k = key
      · rw [get?, if_pos same] at found
        cases found
        rw [same]
        exact List.mem_cons_self
      · rw [get?, if_neg same] at found
        exact List.mem_cons_of_mem _ (inductionHypothesis found)

/-- Where no key occurs twice, an entry that is put replaces the one of its key. -/
theorem eq_or_ne_of_mem_put {table : Table κ ν} {key : κ} {value : ν} {entry : κ × ν}
    (distinct : (table.map Prod.fst).Nodup) (member : entry ∈ table.put key value) :
    entry = (key, value) ∨ (entry ∈ table ∧ entry.1 ≠ key) := by
  induction table with
  | nil => exact .inl (List.mem_singleton.mp member)
  | cons head rest inductionHypothesis =>
      rw [List.map_cons, List.nodup_cons] at distinct
      unfold put at member
      split at member
      · next same =>
          rcases List.mem_cons.mp member with new | old
          · exact .inl new
          · refine .inr ⟨List.mem_cons_of_mem _ old, fun again => distinct.1 ?_⟩
            rw [same, ← again]
            exact List.mem_map_of_mem old
      · next different =>
          rcases List.mem_cons.mp member with rfl | later
          · exact .inr ⟨List.mem_cons_self, different⟩
          · rcases inductionHypothesis distinct.2 later with new | ⟨old, other⟩
            · exact .inl new
            · exact .inr ⟨List.mem_cons_of_mem _ old, other⟩

theorem nodup_put {table : Table κ ν} {key : κ} {value : ν}
    (distinct : (table.map Prod.fst).Nodup) :
    ((table.put key value).map Prod.fst).Nodup := by
  induction table with
  | nil => exact List.nodup_cons.mpr ⟨nofun, List.nodup_nil⟩
  | cons head rest inductionHypothesis =>
      rw [List.map_cons, List.nodup_cons] at distinct
      unfold put
      split
      · next same =>
          subst same
          exact List.nodup_cons.mpr distinct
      · next different =>
          refine List.nodup_cons.mpr ⟨fun again => ?_, inductionHypothesis distinct.2⟩
          obtain ⟨entry, member, same⟩ := List.mem_map.mp again
          rcases eq_or_mem_of_mem_put member with new | old
          · exact different (same.symm.trans (congrArg Prod.fst new))
          · exact distinct.1 (same ▸ List.mem_map_of_mem old)

def values (table : Table κ ν) : List ν := table.map Prod.snd

end Table

end DiskWarden
