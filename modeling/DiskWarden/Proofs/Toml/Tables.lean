import DiskWarden.Proofs.Toml.Lines

/-!
# Tables that are rebuilt

The sections of a document are read one after the other.  Each of them changes the tree only
below its own path: a header puts a new table there, and the assignments behind it put members
into that table.  So the tables of a document are rebuilt from the inside, and a document whose
tables hold their leaves first is read back from its text.
-/

namespace DiskWarden.Toml

/-! ## Tables of entries -/

theorem put_of_absent {members : Members} {key : String} (absent : Table.get? members key = none)
    (item : Item) : Table.put members key item = members ++ [(key, item)] := by
  induction members with
  | nil => rfl
  | cons entry members inductionHypothesis =>
      obtain ⟨k, old⟩ := entry
      rw [Table.get?] at absent
      by_cases same : k = key
      · rw [if_pos same] at absent
        cases absent
      · rw [if_neg same] at absent
        rw [Table.put, if_neg same, inductionHypothesis absent]
        rfl

theorem put_put (members : Members) (key : String) (first second : Item) :
    Table.put (Table.put members key first) key second = Table.put members key second := by
  induction members with
  | nil => simp [Table.put]
  | cons entry members inductionHypothesis =>
      obtain ⟨k, old⟩ := entry
      by_cases same : k = key
      · simp [Table.put, same]
      · simp [Table.put, same, inductionHypothesis]

/-! ## Views -/

/-- How the members of the table at a path make up the tree: they can be changed in the present
tree, and with a change they make another tree that can be changed in the same way. -/
structure View (path : List String) (root inner : Members) (whole : Members → Members) : Prop where
  here : ∀ change, Item.descend change path root = (change inner).map whole
  later : ∀ change members,
    Item.descend change path (whole members) = (change members).map whole

namespace View

variable {path : List String} {root inner : Members} {whole : Members → Members}

theorem ofRoot (root : Members) : View [] root root id := by
  refine ⟨fun change => ?_, fun change members => ?_⟩
  · rw [Item.descend, Option.map_id]
    rfl
  · rw [Item.descend, Option.map_id]
    rfl

theorem change (view : View path root inner whole) (members : Members) :
    View path (whole members) members whole :=
  ⟨fun change => view.later change members, view.later⟩

theorem descend_append (change : Members → Option Members) (path later : List String)
    (members : Members) :
    Item.descend change (path ++ later) members =
      Item.descend (Item.descend change later) path members := by
  induction path generalizing members with
  | nil => rfl
  | cons key path inductionHypothesis =>
      simp only [List.cons_append, Item.descend, inductionHypothesis]

/-- A table that is there is changed in place. -/
theorem descend_put (change : Members → Option Members) (members inner : Members) (key : String)
    (origin : Origin) :
    Item.descend change [key] (Table.put members key (.table origin inner)) =
      (change inner).map fun inner => Table.put members key (.table origin inner) := by
  rw [Item.descend, Table.get?_put, if_pos rfl]
  simp only [Item.descend]
  cases change inner with
  | none => rfl
  | some inner => exact congrArg some (put_put ..)

/-- A table that is missing is made where something is put into it. -/
theorem enter (view : View path root inner whole) {key : String}
    (absent : Table.get? inner key = none) :
    View (path ++ [key]) root []
      fun members => whole (Table.put inner key (.table .innerHeader members)) := by
  refine ⟨fun change => ?_, fun change members => ?_⟩
  · rw [descend_append, view.here, Item.descend]
    simp only [absent, Item.descend]
    cases change [] with
    | none => rfl
    | some members => rfl
  · rw [descend_append, view.later, descend_put]
    cases change members with
    | none => rfl
    | some members => rfl

/-- A header makes an empty table. -/
theorem opened (view : View path root inner whole) (key : String) :
    View (path ++ [key]) (whole (Table.put inner key (.table .header []))) []
      fun members => whole (Table.put inner key (.table .header members)) := by
  have later (change : Members → Option Members) (members : Members) :
      Item.descend change (path ++ [key]) (whole (Table.put inner key (.table .header members))) =
        (change members).map fun members =>
          whole (Table.put inner key (.table .header members)) := by
    rw [descend_append, view.later, descend_put]
    cases change members with
    | none => rfl
    | some members => rfl
  exact ⟨fun change => later change [], later⟩

end View

/-! ## Statements of one table -/

namespace Draft

theorem addAll_append (draft : Draft) (first second : List Statement) :
    draft.addAll (first ++ second) = (draft.addAll first).bind fun draft => draft.addAll second := by
  induction first generalizing draft with
  | nil => rfl
  | cons statement first inductionHypothesis =>
      rw [List.cons_append, addAll, addAll]
      cases draft.add statement with
      | none => rfl
      | some draft => exact inductionHypothesis draft

theorem add_assignment {path : List String} {root inner : Members} {whole : Members → Members}
    (view : View path root inner whole) {key : String} (absent : Table.get? inner key = none)
    (value : Toml) :
    (⟨root, path⟩ : Draft).add (.assignment [key] value) =
      some ⟨whole (inner ++ [(key, .closed value)]), path⟩ := by
  have assigned : Item.assignPath value [key] inner = some (inner ++ [(key, .closed value)]) := by
    rw [Item.assignPath, Item.assign, absent, put_of_absent absent]
  rw [add, view.here, assigned, Option.map_some]
  rfl

theorem add_header {path : List String} {root inner : Members} {whole : Members → Members}
    (view : View path root inner whole) {key : String} (absent : Table.get? inner key = none)
    (current : List String) :
    (⟨root, current⟩ : Draft).add (.header (path ++ [key])) =
      some ⟨whole (Table.put inner key (.table .header [])), path ++ [key]⟩ := by
  have opened : Item.openTable key inner = some (Table.put inner key (.table .header [])) := by
    rw [Item.openTable, absent]
  rw [add, List.getLast?_concat, Option.getD_some, List.dropLast_concat, view.here, opened,
    Option.map_some]
  rfl

/-- No key of some entries is among the members. -/
def AreNew {α : Type} (entries : List (String × α)) (members : Members) : Prop :=
  ∀ entry ∈ entries, Table.get? members entry.1 = none

theorem AreNew.append {α : Type} {first : String × α} {later : List (String × α)}
    {members : Members} (new : AreNew (first :: later) members)
    (distinct : ((first :: later).map Prod.fst).Nodup) (item : Item) :
    AreNew later (members ++ [(first.1, item)]) := by
  intro entry member
  have absent := new entry (List.mem_cons_of_mem _ member)
  have differs : first.1 ≠ entry.1 := by
    intro same
    rw [List.map_cons, List.nodup_cons] at distinct
    exact distinct.1 (same ▸ List.mem_map_of_mem member)
  rw [← put_of_absent (new first List.mem_cons_self), Table.get?_put, if_neg differs, absent]

/-- The leaves of a table, in their order. -/
theorem addAll_leaves {path : List String} {root inner : Members} {whole : Members → Members}
    (view : View path root inner whole) (start : root = whole inner)
    {leaves : List (String × Toml)} (distinct : (leaves.map Prod.fst).Nodup)
    (new : AreNew leaves inner) :
    (⟨root, path⟩ : Draft).addAll (leaves.map fun leaf => .assignment [leaf.1] leaf.2) =
      some ⟨whole (inner ++ leaves.map fun leaf => (leaf.1, .closed leaf.2)), path⟩ := by
  induction leaves generalizing root inner with
  | nil => rw [List.map_nil, List.map_nil, List.append_nil, addAll, start]
  | cons leaf leaves inductionHypothesis =>
      have added := add_assignment view (new leaf List.mem_cons_self) leaf.2
      have rest := inductionHypothesis (view.change _) rfl (List.nodup_cons.mp distinct).2
        (new.append distinct (.closed leaf.2))
      rw [List.map_cons, addAll, added]
      rw [List.append_assoc] at rest
      exact rest

end Draft

/-! ## Documents -/

/-- Members that are read back from their lines, with tables down to some depth: their keys
differ, and the leaves come before the tables. -/
inductive IsRegular : Nat → List (String × Toml) → Prop
  | intro {depth : Nat} {leaves : List (String × Toml)}
      {tables : List (String × List (String × Toml))}
      (distinct : (leaves.map Prod.fst ++ tables.map Prod.fst).Nodup)
      (areLeaves : ∀ leaf ∈ leaves, IsLeaf leaf.2)
      (inner : ∀ entry ∈ tables, IsRegular depth entry.2) :
      IsRegular (depth + 1) (leaves ++ tables.map fun entry => (entry.1, table entry.2))

/-- Leaves alone make a table at any depth. -/
theorem IsRegular.ofLeaves {depth : Nat} {leaves : List (String × Toml)}
    (distinct : (leaves.map Prod.fst).Nodup) (areLeaves : ∀ leaf ∈ leaves, IsLeaf leaf.2) :
    IsRegular (depth + 1) leaves := by
  have none : ∀ entry ∈ ([] : List (String × List (String × Toml))), IsRegular depth entry.2 :=
    nofun
  have regular := IsRegular.intro (by rwa [List.map_nil, List.append_nil]) areLeaves none
  rwa [List.map_nil, List.append_nil] at regular

/-- So do tables alone. -/
theorem IsRegular.ofTables {depth : Nat} {tables : List (String × List (String × Toml))}
    (distinct : (tables.map Prod.fst).Nodup) (inner : ∀ entry ∈ tables, IsRegular depth entry.2) :
    IsRegular (depth + 1) (tables.map fun entry => (entry.1, table entry.2)) := by
  have none : ∀ leaf ∈ ([] : List (String × Toml)), IsLeaf leaf.2 := nofun
  have distinct' : (([] : List (String × Toml)).map Prod.fst ++ tables.map Prod.fst).Nodup :=
    distinct
  exact .intro distinct' none inner

theorem isTable_of_isLeaf {value : Toml} (leaf : IsLeaf value) : isTable value = false := by
  cases leaf with
  | simple simple => cases simple <;> rfl
  | array => rfl

section Sections

variable {leaves : List (String × Toml)} {tables : List (String × List (String × Toml))}

theorem innerSections_tables (path : List String) :
    innerSections path (tables.map fun entry => (entry.1, table entry.2)) =
      tables.flatMap fun entry => sections (path ++ [entry.1]) (table entry.2) := by
  induction tables with
  | nil => rfl
  | cons entry tables inductionHypothesis =>
      rw [List.map_cons, innerSections, inductionHypothesis, List.flatMap_cons]

theorem innerSections_leaves (areLeaves : ∀ leaf ∈ leaves, IsLeaf leaf.2) (path : List String)
    (members : List (String × Toml)) :
    innerSections path (leaves ++ members) = innerSections path members := by
  induction leaves with
  | nil => rfl
  | cons leaf leaves inductionHypothesis =>
      obtain ⟨first, later⟩ := List.forall_mem_cons.mp areLeaves
      have none : sections (path ++ [leaf.1]) leaf.2 = [] := by
        obtain ⟨key, value⟩ := leaf
        cases first with
        | simple simple => cases simple <;> rfl
        | array => rfl
      rw [List.cons_append, innerSections, none, List.nil_append, inductionHypothesis later]

theorem filter_leaves (areLeaves : ∀ leaf ∈ leaves, IsLeaf leaf.2) :
    (leaves ++ tables.map fun entry => (entry.1, table entry.2)).filter
      (fun member => !isTable member.2) = leaves := by
  have kept : leaves.filter (fun member => !isTable member.2) = leaves :=
    List.filter_eq_self.mpr fun leaf member => by rw [isTable_of_isLeaf (areLeaves leaf member)]; rfl
  have dropped : (tables.map fun entry => (entry.1, table entry.2)).filter
      (fun member => !isTable member.2) = [] := by
    refine List.filter_eq_nil_iff.mpr fun member listed => ?_
    obtain ⟨entry, -, rfl⟩ := List.mem_map.mp listed
    exact Bool.false_ne_true
  rw [List.filter_append, kept, dropped, List.append_nil]

/-- The sections of a table whose leaves come first. -/
theorem sections_regular (areLeaves : ∀ leaf ∈ leaves, IsLeaf leaf.2) (path : List String) :
    let members := leaves ++ tables.map fun entry => (entry.1, table entry.2)
    sections path (table members) =
      (if Section.isWritten ⟨path, leaves⟩ members then [⟨path, leaves⟩] else []) ++
        tables.flatMap fun entry => sections (path ++ [entry.1]) (table entry.2) := by
  intro members
  rw [sections, filter_leaves areLeaves, innerSections_leaves areLeaves, innerSections_tables]

end Sections

/-- The sections of a regular document are read back. -/
theorem IsRegular.isLegible {depth : Nat} {members : List (String × Toml)}
    (regular : IsRegular depth members) {path : List String}
    (short : path.length + depth ≤ keyPathLimit) :
    ∀ part ∈ sections path (table members), part.IsLegible := by
  induction regular generalizing path with
  | @intro depth leaves tables distinct areLeaves inner inductionHypothesis =>
      intro part listed
      rw [sections_regular areLeaves] at listed
      rcases List.mem_append.mp listed with own | listed
      · split at own
        · next written =>
            cases List.mem_singleton.mp own
            refine ⟨by simp only; omega, areLeaves, ?_⟩
            by_cases root : path = []
            · simp only [Section.isWritten, root, if_true] at written
              exact .inr (by simpa using written)
            · exact .inl root
        · cases own
      · obtain ⟨entry, member, listed⟩ := List.mem_flatMap.mp listed
        refine inductionHypothesis entry member ?_ part listed
        rw [List.length_append, List.length_singleton]
        omega

/-- The lines of a table, which build it where it is missing. -/
def Builds (members : List (String × Toml)) (item : Item) : Prop :=
  item.finish = table members ∧
    ∀ {path : List String} {root inner : Members} {whole : Members → Members} {key : String}
      (current : List String), View path root inner whole → Table.get? inner key = none →
      ∃ current', (⟨root, current⟩ : Draft).addAll
          ((sections (path ++ [key]) (table members)).flatMap Section.statements) =
        some ⟨whole (Table.put inner key item), current'⟩

theorem finishMembers_append (first second : Members) :
    Item.finishMembers (first ++ second) = Item.finishMembers first ++ Item.finishMembers second := by
  induction first with
  | nil => rfl
  | cons entry first inductionHypothesis =>
      rw [List.cons_append, Item.finishMembers, Item.finishMembers, inductionHypothesis,
        List.cons_append]

theorem finishMembers_leaves (leaves : List (String × Toml)) :
    Item.finishMembers (leaves.map fun leaf => (leaf.1, .closed leaf.2)) = leaves := by
  induction leaves with
  | nil => rfl
  | cons leaf leaves inductionHypothesis =>
      rw [List.map_cons, Item.finishMembers, inductionHypothesis, Item.finish]

/-- Tables inside a table are built one after the other. -/
theorem addAll_tables {tables : List (String × List (String × Toml))}
    (build : ∀ entry ∈ tables, ∃ item, Builds entry.2 item)
    (distinct : (tables.map Prod.fst).Nodup) :
    ∃ added : Members,
      Item.finishMembers added = tables.map (fun entry => (entry.1, table entry.2)) ∧
      ∀ {path : List String} {root inner : Members} {whole : Members → Members}
        (current : List String), View path root inner whole → Draft.AreNew tables inner →
        (tables ≠ [] ∨ root = whole inner) →
        ∃ current', (⟨root, current⟩ : Draft).addAll
            ((tables.flatMap fun entry => sections (path ++ [entry.1]) (table entry.2)).flatMap
              Section.statements) =
          some ⟨whole (inner ++ added), current'⟩ := by
  induction tables with
  | nil =>
      refine ⟨[], rfl, fun current view _ same => ⟨current, ?_⟩⟩
      rw [List.append_nil, ← same.resolve_left (not_not_intro rfl)]
      rfl
  | cons entry tables inductionHypothesis =>
      obtain ⟨first, later⟩ := List.forall_mem_cons.mp build
      obtain ⟨item, finished, builds⟩ := first
      obtain ⟨added, finished', builds'⟩ :=
        inductionHypothesis later (List.nodup_cons.mp distinct).2
      refine ⟨(entry.1, item) :: added, ?_, fun current view new _ => ?_⟩
      · rw [Item.finishMembers, finished, finished', List.map_cons]
      · obtain ⟨current, one⟩ := builds current view (new entry List.mem_cons_self)
        obtain ⟨current, rest⟩ := builds' current (view.change _) (new.append distinct item)
          (.inr rfl)
        refine ⟨current, ?_⟩
        rw [List.flatMap_cons, List.flatMap_append, Draft.addAll_append, one, Option.bind_some,
          put_of_absent (new entry List.mem_cons_self), rest, List.append_assoc]
        rfl

/-- The keys of the tables are none of the leaves. -/
theorem areNew_leaves {leaves : List (String × Toml)}
    {tables : List (String × List (String × Toml))}
    (distinct : (leaves.map Prod.fst ++ tables.map Prod.fst).Nodup) :
    Draft.AreNew tables (leaves.map fun leaf => (leaf.1, Item.closed leaf.2)) := by
  intro entry member
  refine Table.get?_eq_none_iff.mpr fun item listed => ?_
  obtain ⟨leaf, isLeaf, same⟩ := List.mem_map.mp listed
  exact (List.nodup_append.mp distinct).2.2 leaf.1 (List.mem_map_of_mem isLeaf) entry.1
    (List.mem_map_of_mem member) (Prod.mk.inj same).1

theorem IsRegular.builds {depth : Nat} {members : List (String × Toml)}
    (regular : IsRegular depth members) : ∃ item, Builds members item := by
  induction regular with
  | @intro depth leaves tables distinct areLeaves inner inductionHypothesis =>
      obtain ⟨added, finished, addTables⟩ :=
        addAll_tables inductionHypothesis (List.nodup_append.mp distinct).2.1
      by_cases unwritten : leaves = [] ∧ tables ≠ []
      · -- Without a header, the first inner table makes this one.
        obtain ⟨rfl, some'⟩ := unwritten
        refine ⟨.table .innerHeader added, by rw [Item.finish, finished]; rfl, ?_⟩
        intro path root inner whole key current view absent
        obtain ⟨current, built⟩ := addTables current (view.enter absent) (fun _ _ => rfl)
          (.inl some')
        have noHeader : Section.isWritten ⟨path ++ [key], []⟩
            ([] ++ tables.map fun entry => (entry.1, table entry.2)) = false := by
          simp [Section.isWritten, some']
        refine ⟨current, ?_⟩
        rw [sections_regular areLeaves, if_neg (by rw [noHeader]; exact Bool.false_ne_true)]
        exact built
      · refine ⟨.table .header ((leaves.map fun leaf => (leaf.1, .closed leaf.2)) ++ added), ?_, ?_⟩
        · rw [Item.finish, finishMembers_append, finishMembers_leaves, finished]
        intro path root inner whole key current view absent
        have header : Section.isWritten ⟨path ++ [key], leaves⟩
            (leaves ++ tables.map fun entry => (entry.1, table entry.2)) = true := by
          cases leaves with
          | nil =>
              cases tables with
              | nil => simp [Section.isWritten]
              | cons entry tables => exact absurd ⟨rfl, List.cons_ne_nil entry tables⟩ unwritten
          | cons leaf leaves => simp [Section.isWritten]
        have leavesAdded := Draft.addAll_leaves (view.opened key) rfl
          (List.nodup_append.mp distinct).1 (fun _ _ => Table.get?_nil _)
        obtain ⟨current', built⟩ := addTables (path ++ [key]) ((view.opened key).change _)
          (areNew_leaves distinct) (.inr rfl)
        refine ⟨current', ?_⟩
        have own : (⟨path ++ [key], leaves⟩ : Section).statements =
            .header (path ++ [key]) :: leaves.map fun leaf => .assignment [leaf.1] leaf.2 := by
          rw [Section.statements, if_neg (by simp)]
          rfl
        rw [sections_regular areLeaves, if_pos header, List.flatMap_append, List.flatMap_singleton,
          own, List.cons_append, Draft.addAll, Draft.add_header view absent]
        change Draft.addAll _ (_ ++ _) = _
        rw [Draft.addAll_append, leavesAdded, Option.bind_some]
        exact built

/-- A regular document is rebuilt from the statements of its sections. -/
theorem IsRegular.ofStatements? {depth : Nat} {members : List (String × Toml)}
    (regular : IsRegular depth members) :
    Toml.ofStatements? ((sections [] (table members)).flatMap Section.statements) =
      some (table members) := by
  cases regular with
  | @intro depth leaves tables distinct areLeaves inner =>
      have leavesAdded := Draft.addAll_leaves (View.ofRoot []) rfl
        (List.nodup_append.mp distinct).1 (fun _ _ => Table.get?_nil _)
      obtain ⟨added, finished, addTables⟩ := addAll_tables
        (fun entry member => (inner entry member).builds) (List.nodup_append.mp distinct).2.1
      obtain ⟨current, built⟩ := addTables [] ((View.ofRoot []).change _)
        (areNew_leaves distinct) (.inr rfl)
      have own : (if Section.isWritten ⟨[], leaves⟩
            (leaves ++ tables.map fun entry => (entry.1, table entry.2)) then
              [(⟨[], leaves⟩ : Section)] else []).flatMap Section.statements =
          leaves.map fun leaf => .assignment [leaf.1] leaf.2 := by
        cases leaves with
        | nil => rfl
        | cons leaf leaves =>
            rw [if_pos (by simp [Section.isWritten]), List.flatMap_singleton, Section.statements,
              if_pos rfl, List.nil_append]
      rw [sections_regular areLeaves, List.flatMap_append, own, Toml.ofStatements?,
        Draft.addAll_append, Draft.empty, leavesAdded, List.nil_append, Option.bind_some]
      change (Draft.addAll _ _).map _ = _
      rw [built, Option.map_some]
      simp only [id, finishMembers_append, finishMembers_leaves, finished]

/-- A regular document is read back from its text. -/
theorem ofText?_of_pretty? {depth : Nat} {members : List (String × Toml)}
    (regular : IsRegular depth members) (shallow : depth ≤ keyPathLimit) {text : String}
    (pretty : pretty? (table members) = some text) : ofText? text = some (table members) := by
  rw [pretty?] at pretty
  split at pretty
  · cases pretty
    rw [Section.ofText?_joinWith (regular.isLegible (by simpa using shallow))]
    exact regular.ofStatements?
  · cases pretty

end DiskWarden.Toml
