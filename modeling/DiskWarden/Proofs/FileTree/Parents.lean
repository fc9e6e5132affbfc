import DiskWarden.FileTree
import Mathlib.Data.List.Induction

/-!
# Directories above a path

A path lies in the directory that its last name is missing from.  The directories above it are
therefore fewer names long, and going up in names needs no step up in the tree.
-/

namespace DiskWarden.Path

/-! ## Pieces -/

theorem splitSlashes_ne_nil (chars : List Char) : splitSlashes chars ≠ [] := by
  cases chars with
  | nil => exact List.cons_ne_nil _ _
  | cons c rest =>
      rw [splitSlashes]
      split
      · exact List.cons_ne_nil _ _
      · split <;> exact List.cons_ne_nil _ _

theorem splitSlashes_slash (rest : List Char) :
    splitSlashes ('/' :: rest) = [] :: splitSlashes rest := by
  rw [splitSlashes]
  obtain ⟨piece, pieces, same⟩ := List.exists_cons_of_ne_nil (splitSlashes_ne_nil rest)
  simp [same]

theorem splitSlashes_letter {c : Char} (letter : c ≠ '/') {rest piece : List Char}
    {pieces : List (List Char)} (same : splitSlashes rest = piece :: pieces) :
    splitSlashes (c :: rest) = (c :: piece) :: pieces := by
  rw [splitSlashes]
  simp [same, letter]

theorem splitSlashes_append {piece : List Char} (noSlash : '/' ∉ piece) (rest : List Char) :
    splitSlashes (piece ++ '/' :: rest) = piece :: splitSlashes rest := by
  induction piece with
  | nil => exact splitSlashes_slash rest
  | cons c piece inductionHypothesis =>
      rw [List.mem_cons, not_or] at noSlash
      exact splitSlashes_letter (Ne.symm noSlash.1) (inductionHypothesis noSlash.2)

theorem splitSlashes_of_noSlash {piece : List Char} (noSlash : '/' ∉ piece) :
    splitSlashes piece = [piece] := by
  induction piece with
  | nil => rfl
  | cons c piece inductionHypothesis =>
      rw [List.mem_cons, not_or] at noSlash
      exact splitSlashes_letter (Ne.symm noSlash.1) (inductionHypothesis noSlash.2)

theorem noSlash_of_mem_splitSlashes {chars : List Char} :
    ∀ piece ∈ splitSlashes chars, '/' ∉ piece := by
  induction chars with
  | nil => simp [splitSlashes]
  | cons c rest inductionHypothesis =>
      obtain ⟨first, pieces, same⟩ := List.exists_cons_of_ne_nil (splitSlashes_ne_nil rest)
      rw [same] at inductionHypothesis
      obtain ⟨noSlash, later⟩ := List.forall_mem_cons.mp inductionHypothesis
      by_cases slash : c = '/'
      · subst slash
        rw [splitSlashes_slash, same]
        exact List.forall_mem_cons.mpr ⟨List.not_mem_nil, inductionHypothesis⟩
      · rw [splitSlashes_letter slash same]
        refine List.forall_mem_cons.mpr ⟨?_, later⟩
        rw [List.mem_cons, not_or]
        exact ⟨Ne.symm slash, noSlash⟩

variable {path parent : Path} {piece : String} {pieces : List String}

theorem pieces_ne_nil (path : Path) : path.pieces ≠ [] := by
  rw [Path.pieces, Ne, List.map_eq_nil_iff]
  exact splitSlashes_ne_nil _

theorem noSlash_of_mem_pieces (member : piece ∈ path.pieces) : '/' ∉ piece.toList := by
  obtain ⟨chars, listed, rfl⟩ := List.mem_map.mp member
  rw [String.toList_ofList]
  exact noSlash_of_mem_splitSlashes chars listed

theorem pieces_joinWith (some' : pieces ≠ []) (noSlash : ∀ piece ∈ pieces, '/' ∉ piece.toList) :
    (⟨Text.joinWith "/" pieces⟩ : Path).pieces = pieces := by
  induction pieces with
  | nil => exact absurd rfl some'
  | cons piece pieces inductionHypothesis =>
      obtain ⟨first, later⟩ := List.forall_mem_cons.mp noSlash
      cases pieces with
      | nil =>
          rw [Path.pieces, Text.joinWith, splitSlashes_of_noSlash first, List.map_singleton,
            String.ofList_toList]
      | cons next pieces =>
          have rest := inductionHypothesis (List.cons_ne_nil _ _) later
          have slash : "/".toList = ['/'] := by decide
          rw [Path.pieces] at rest ⊢
          rw [Text.joinWith, String.toList_append, String.toList_append, slash, List.append_assoc,
            List.singleton_append, splitSlashes_append first, List.map_cons, String.ofList_toList,
            rest]
          exact List.cons_ne_nil _ _

/-- The pieces tell whether a path starts at the root. -/
theorem isAbsolute_iff :
    path.isAbsolute = true ↔ path.pieces.head? = some "" ∧ path.pieces ≠ [""] := by
  rw [isAbsolute, decide_eq_true_iff, Path.pieces]
  generalize path.text.toList = chars
  cases chars with
  | nil => simp [splitSlashes]
  | cons c rest =>
      by_cases slash : c = '/'
      · subst slash
        have some' := splitSlashes_ne_nil rest
        simp [splitSlashes_slash, some']
      · obtain ⟨piece, pieces, same⟩ := List.exists_cons_of_ne_nil (splitSlashes_ne_nil rest)
        simp [splitSlashes_letter slash same, slash]

/-! ## Parents -/

/-- Behind the first piece, only what is idle is dropped from the end. -/
theorem dropIdleEnd_cons_cases (first : String) (rest : List String) :
    ((∀ piece ∈ rest, isIdle piece = true) ∧ dropIdleEnd (first :: rest) = [first]) ∨
      ∃ init last idle, rest = init ++ last :: idle ∧ isIdle last = false ∧
        (∀ piece ∈ idle, isIdle piece = true) ∧
        dropIdleEnd (first :: rest) = first :: (init ++ [last]) := by
  induction rest using List.reverseRecOn with
  | nil => exact .inl ⟨nofun, rfl⟩
  | append_singleton rest piece inductionHypothesis =>
      have reversed : (rest ++ [piece]).reverse = piece :: rest.reverse := by simp
      by_cases idlePiece : isIdle piece = true
      · have dropped : dropIdleEnd (first :: (rest ++ [piece])) = dropIdleEnd (first :: rest) := by
          rw [dropIdleEnd, dropIdleEnd, reversed, List.dropWhile_cons_of_pos idlePiece]
        have more {pieces : List String} (all : ∀ piece ∈ pieces, isIdle piece = true) :
            ∀ other ∈ pieces ++ [piece], isIdle other = true := by
          intro other member
          rcases List.mem_append.mp member with old | new
          · exact all other old
          · rwa [List.mem_singleton.mp new]
        rw [dropped]
        rcases inductionHypothesis with ⟨all, same⟩ | ⟨init, last, idle, rfl, solid, all, same⟩
        · exact .inl ⟨more all, same⟩
        · exact .inr ⟨init, last, idle ++ [piece], by simp, solid, more all, same⟩
      · refine .inr ⟨rest, piece, [], rfl, Bool.eq_false_iff.mpr idlePiece, nofun, ?_⟩
        rw [dropIdleEnd, reversed, List.dropWhile_cons_of_neg idlePiece, List.reverse_cons,
          List.reverse_reverse]

theorem filter_dropIdleEnd (pieces : List String) :
    (dropIdleEnd pieces).filter (fun piece => !isIdle piece) =
      pieces.filter fun piece => !isIdle piece := by
  have none {idle : List String} (all : ∀ piece ∈ idle, isIdle piece = true) :
      idle.filter (fun piece => !isIdle piece) = [] := by
    simpa [List.filter_eq_nil_iff] using all
  cases pieces with
  | nil => rfl
  | cons first rest =>
      rcases dropIdleEnd_cons_cases first rest with
        ⟨all, same⟩ | ⟨init, last, idle, rfl, -, all, same⟩
      · rw [same, ← List.singleton_append (l := rest), List.filter_append, none all,
          List.append_nil]
      · have split : first :: (init ++ last :: idle) = first :: (init ++ [last]) ++ idle := by simp
        rw [same, split, List.filter_append, none all, List.append_nil]

theorem dropIdleEnd_subset (pieces : List String) : dropIdleEnd pieces ⊆ pieces := by
  cases pieces with
  | nil => exact List.Subset.refl _
  | cons first rest =>
      intro piece member
      rcases List.mem_cons.mp member with rfl | later
      · exact List.mem_cons_self
      · have kept := (List.dropWhile_suffix isIdle).subset (List.mem_reverse.mp later)
        exact List.mem_cons_of_mem _ (List.mem_reverse.mp kept)

theorem pieces_ofPieces (some' : pieces ≠ []) (noSlash : ∀ piece ∈ pieces, '/' ∉ piece.toList) :
    (ofPieces pieces).pieces = if pieces = [""] then ["", ""] else pieces := by
  unfold ofPieces
  by_cases root : pieces = [""]
  · rw [if_pos root, if_pos root]
    decide
  · rw [if_neg root, if_neg root]
    exact pieces_joinWith some' noSlash

/-- A path that lies in some directory is one piece, or its last name is missing from that of the
directory. -/
theorem parent?_cases (inside : path.parent? = some parent) :
    parent.text = "" ∨ ∃ first init last idle, path.pieces = first :: (init ++ last :: idle) ∧
      isIdle last = false ∧ (∀ piece ∈ idle, isIdle piece = true) ∧
      parent = ofPieces (dropIdleEnd (first :: init)) := by
  obtain ⟨first, rest, same⟩ := List.exists_cons_of_ne_nil path.pieces_ne_nil
  rw [parent?, same] at inside
  rcases dropIdleEnd_cons_cases first rest with
    ⟨-, kept⟩ | ⟨init, last, idle, rfl, solid, all, kept⟩
  · rw [kept] at inside
    split at inside
    · cases inside
    · cases inside
    · cases inside
      exact .inl rfl
  · rw [kept] at inside
    split at inside
    · next nil => cases nil
    · next root => exact absurd (congrArg List.length root) (by simp)
    · cases inside
      refine .inr ⟨first, init, last, idle, same, solid, all, ?_⟩
      rw [← List.cons_append, List.dropLast_concat]

/-- A path that lies nowhere names nothing. -/
theorem isIdle_of_parent?_eq_none (none : path.parent? = none) :
    ∀ piece ∈ path.pieces, isIdle piece = true := by
  obtain ⟨first, rest, same⟩ := List.exists_cons_of_ne_nil path.pieces_ne_nil
  rw [parent?, same] at none
  rw [same]
  rcases dropIdleEnd_cons_cases first rest with ⟨all, kept⟩ | ⟨init, last, idle, -, -, -, kept⟩
  · rw [kept] at none
    split at none
    · next nil => cases nil
    · next root =>
        cases root
        exact List.forall_mem_cons.mpr ⟨rfl, all⟩
    · cases none
  · rw [kept] at none
    split at none
    · next nil => cases nil
    · next root => exact absurd (congrArg List.length root) (by simp)
    · cases none

/-- A path that is a number of names shorter than another one, from the same start. -/
structure IsAbove (upper lower : Path) : Prop where
  noRise : ".." ∉ lower.pieces → ".." ∉ upper.pieces
  isAbsolute : upper.text ≠ "" → upper.isAbsolute = lower.isAbsolute
  shorter : upper.text ≠ "" → upper.names.length < lower.names.length

theorem names_empty : (⟨""⟩ : Path).names = [] := rfl

theorem isAbove_empty {upper lower : Path} (empty : upper.text = "") : IsAbove upper lower := by
  obtain ⟨text⟩ := upper
  cases empty
  exact ⟨fun _ => by decide, absurd rfl, absurd rfl⟩

theorem isAbove_parent (inside : path.parent? = some parent) : IsAbove parent path := by
  rcases parent?_cases inside with empty | ⟨first, init, last, idle, same, solid, all, rfl⟩
  · exact isAbove_empty empty
  have split : path.pieces = first :: init ++ [last] ++ idle := by simp [same]
  have subset : dropIdleEnd (first :: init) ⊆ path.pieces := by
    rw [split, List.append_assoc]
    exact List.Subset.trans (dropIdleEnd_subset _) (List.subset_append_left _ _)
  obtain ⟨pieces, headed⟩ : ∃ pieces, dropIdleEnd (first :: init) = first :: pieces := ⟨_, rfl⟩
  have parentPieces := pieces_ofPieces (List.cons_ne_nil first pieces)
    fun piece member => noSlash_of_mem_pieces (subset (headed ▸ member))
  have names : (ofPieces (first :: pieces)).names =
      (first :: init).filter fun piece => !isIdle piece := by
    rw [← filter_dropIdleEnd (first :: init), headed, Path.names, parentPieces]
    split
    · next root =>
        rw [root]
        rfl
    · rfl
  rw [headed] at subset ⊢
  refine ⟨fun noRise member => ?_, fun _ => ?_, fun _ => ?_⟩
  · rw [parentPieces] at member
    split at member
    · simp at member
    · exact noRise (subset member)
  · rw [Bool.eq_iff_iff, isAbsolute_iff, isAbsolute_iff, parentPieces, same]
    split
    · next root =>
        cases root
        simp
    · next notRoot => simp [notRoot]
  · have kept : [last].filter (fun piece => !isIdle piece) = [last] := by simp [solid]
    rw [names, Path.names, split, List.filter_append, List.filter_append, kept,
      List.length_append, List.length_append, List.length_singleton]
    omega

theorem IsAbove.trans {upper middle lower : Path} (high : IsAbove upper middle)
    (low : IsAbove middle lower) : IsAbove upper lower := by
  by_cases empty : upper.text = ""
  · exact isAbove_empty empty
  have shorter := high.shorter empty
  have named : middle.text ≠ "" := by
    obtain ⟨text⟩ := middle
    rintro rfl
    rw [names_empty] at shorter
    exact Nat.not_lt_zero _ shorter
  exact ⟨fun noRise => high.noRise (low.noRise noRise),
    fun _ => (high.isAbsolute empty).trans (low.isAbsolute named),
    fun _ => Nat.lt_trans shorter (low.shorter named)⟩

theorem isAbove_of_mem_parents {upper : Path} (listed : upper ∈ path.parents) :
    IsAbove upper path := by
  rw [parents] at listed
  generalize path.pieces.length = steps at listed
  induction steps generalizing path with
  | zero => cases listed
  | succ steps inductionHypothesis =>
      rw [parents.climb] at listed
      split at listed
      · cases listed
      · next parent inside =>
          have first := isAbove_parent inside
          rcases List.mem_cons.mp listed with rfl | later
          · exact first
          · exact (inductionHypothesis later).trans first

end DiskWarden.Path
