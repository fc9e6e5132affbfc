import DiskWarden.Toml.Tree

/-!
# Values that stay

No line of a document changes a value that an earlier line has given: a key is given a value
once, and neither a header nor a point opens it as a table.
-/

namespace DiskWarden.Toml

/-- The value that a path of keys leads to in tables under construction. -/
def leafAt? : List String → Members → Option Toml
  | [], _ => none
  | key :: keys, members =>
      match Table.get? members key with
      | some (.closed value) => if keys = [] then some value else none
      | some (.table _ inner) => leafAt? keys inner
      | some (.tables _ _) => none
      | none => none

/-- A change of a table that leaves every value in it as it is. -/
def KeepsLeaves (change : Members → Option Members) : Prop :=
  ∀ ⦃members later path value⦄, change members = some later →
    leafAt? path members = some value → leafAt? path later = some value

variable {members : Members} {key : String} {item : Item} {path : List String} {value : Toml}

/-- What is put at a key leaves the values at other keys as they are. -/
theorem leafAt?_put
    (same : ∀ keys, leafAt? (key :: keys) members = some value →
      leafAt? (key :: keys) (Table.put members key item) = some value)
    (found : leafAt? path members = some value) :
    leafAt? path (Table.put members key item) = some value := by
  cases path with
  | nil => cases found
  | cons first keys =>
      by_cases own : key = first
      · subst own
        exact same keys found
      · rw [leafAt?, Table.get?_put, if_neg own]
        rwa [leafAt?] at found

theorem leafAt?_put_of_none (absent : Table.get? members key = none)
    (found : leafAt? path members = some value) :
    leafAt? path (Table.put members key item) = some value := by
  refine leafAt?_put (fun keys found => ?_) found
  rw [leafAt?, absent] at found
  cases found

theorem leafAt?_put_of_tables {earlier : List Members} {last : Members}
    (open' : Table.get? members key = some (.tables earlier last))
    (found : leafAt? path members = some value) :
    leafAt? path (Table.put members key item) = some value := by
  refine leafAt?_put (fun keys found => ?_) found
  rw [leafAt?, open'] at found
  cases found

theorem leafAt?_put_table {origin origin' : Origin} {inner inner' : Members}
    (open' : Table.get? members key = some (.table origin inner))
    (kept : ∀ keys, leafAt? keys inner = some value → leafAt? keys inner' = some value)
    (found : leafAt? path members = some value) :
    leafAt? path (Table.put members key (.table origin' inner')) = some value := by
  refine leafAt?_put (fun keys found => ?_) found
  rw [leafAt?, open'] at found
  rw [leafAt?, Table.get?_put, if_pos rfl]
  exact kept keys found

theorem keepsLeaves_openTable (key : String) : KeepsLeaves (Item.openTable key) := by
  intro members later path value opened found
  unfold Item.openTable at opened
  split at opened
  · next absent =>
      cases opened
      exact leafAt?_put_of_none absent found
  · next inner open' =>
      cases opened
      exact leafAt?_put_table open' (fun _ => id) found
  · cases opened

theorem keepsLeaves_openElement (key : String) : KeepsLeaves (Item.openElement key) := by
  intro members later path value opened found
  unfold Item.openElement at opened
  split at opened
  · next absent =>
      cases opened
      exact leafAt?_put_of_none absent found
  · next open' =>
      cases opened
      exact leafAt?_put_of_tables open' found
  · cases opened

theorem keepsLeaves_assign (given : Toml) (key : String) (keys : List String) :
    KeepsLeaves (Item.assign given key keys) := by
  induction keys generalizing key with
  | nil =>
      intro members later path value assigned found
      rw [Item.assign] at assigned
      split at assigned
      · next absent =>
          cases assigned
          exact leafAt?_put_of_none absent found
      · cases assigned
  | cons next keys inductionHypothesis =>
      intro members later path value assigned found
      rw [Item.assign] at assigned
      split at assigned
      · next absent =>
          obtain ⟨inner, -, same⟩ := Option.bind_eq_some_iff.mp assigned
          cases same
          exact leafAt?_put_of_none absent found
      · cases assigned
      · cases assigned
      · next open' =>
          split at assigned
          · cases assigned
          obtain ⟨inner, changed, same⟩ := Option.bind_eq_some_iff.mp assigned
          cases same
          exact leafAt?_put_table open' (fun _ => inductionHypothesis next changed) found
      · next open' =>
          obtain ⟨inner, changed, same⟩ := Option.bind_eq_some_iff.mp assigned
          cases same
          exact leafAt?_put_table open' (fun _ => inductionHypothesis next changed) found
      · next open' =>
          split at assigned
          · cases assigned
          obtain ⟨last, -, same⟩ := Option.bind_eq_some_iff.mp assigned
          cases same
          exact leafAt?_put_of_tables open' found

theorem keepsLeaves_assignPath (given : Toml) (keys : List String) :
    KeepsLeaves (Item.assignPath given keys) := by
  cases keys with
  | nil => exact fun _ _ _ _ assigned => by cases assigned
  | cons key keys => exact keepsLeaves_assign given key keys

theorem KeepsLeaves.descend {change : Members → Option Members} (keeps : KeepsLeaves change)
    (path : List String) : KeepsLeaves (Item.descend change path) := by
  induction path with
  | nil => exact keeps
  | cons key path inductionHypothesis =>
      intro members later leaf value changed found
      rw [Item.descend] at changed
      split at changed
      · next absent =>
          obtain ⟨inner, -, same⟩ := Option.bind_eq_some_iff.mp changed
          cases same
          exact leafAt?_put_of_none absent found
      · next open' =>
          obtain ⟨inner, inside, same⟩ := Option.bind_eq_some_iff.mp changed
          cases same
          exact leafAt?_put_table open' (fun _ => inductionHypothesis inside) found
      · next open' =>
          obtain ⟨last, -, same⟩ := Option.bind_eq_some_iff.mp changed
          cases same
          exact leafAt?_put_of_tables open' found
      · cases changed

namespace Draft

theorem leafAt?_add {draft later : Draft} {statement : Statement}
    (added : draft.add statement = some later) (found : leafAt? path draft.members = some value) :
    leafAt? path later.members = some value := by
  cases statement with
  | header keys =>
      obtain ⟨members, changed, same⟩ := Option.bind_eq_some_iff.mp added
      cases same
      exact (keepsLeaves_openTable _).descend _ changed found
  | arrayHeader keys =>
      obtain ⟨members, changed, same⟩ := Option.bind_eq_some_iff.mp added
      cases same
      exact (keepsLeaves_openElement _).descend _ changed found
  | assignment keys given =>
      obtain ⟨members, changed, same⟩ := Option.bind_eq_some_iff.mp added
      cases same
      exact (keepsLeaves_assignPath given keys).descend _ changed found

/-- A value that is given once stays, whatever statements follow. -/
theorem leafAt?_addAll {draft later : Draft} {statements : List Statement}
    (added : draft.addAll statements = some later)
    (found : leafAt? path draft.members = some value) :
    leafAt? path later.members = some value := by
  induction statements generalizing draft with
  | nil =>
      cases added
      exact found
  | cons statement statements inductionHypothesis =>
      obtain ⟨next, first, rest⟩ := Option.bind_eq_some_iff.mp added
      exact inductionHypothesis rest (leafAt?_add first found)

end Draft

/-! ## The finished document -/

theorem lookup_finishMembers (members : Members) (key : String) :
    (Item.finishMembers members).lookup key = (Table.get? members key).map Item.finish := by
  induction members with
  | nil => rfl
  | cons entry members inductionHypothesis =>
      obtain ⟨k, item⟩ := entry
      rw [Item.finishMembers, Table.get?, List.lookup_cons]
      by_cases same : key = k
      · subst same
        simp
      · rw [if_neg (Ne.symm same), beq_eq_false_iff_ne.mpr same, inductionHypothesis]

end DiskWarden.Toml
