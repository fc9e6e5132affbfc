import DiskWarden.Decision
import Mathlib.Logic.Basic

/-!
# What codes mean, and how they are told

The table of codes has a column of magnitudes for each operation, and what stands in no column
means failure.  No code is covered by two lines, so their order is of no account.  The sign of a
code matters to one line only, which asks for a reboot.  What the user is told follows the
meaning: a reboot is offered for two of them, and an error is what failed or had a wrong
credential.
-/

namespace DiskWarden

/-! ## Columns -/

/-- The magnitudes that stand in the column of an operation. -/
def Operation.column : Operation → List Nat
  | .preEncrypt => [0, 2]
  | .encrypt => [0]
  | .decrypt => [0, 1, 2, 3]
  | .changePassphrase => [0, 2, 4]

/-- What codes mean, row by row.  A magnitude that is in no row of a column means failure there,
and so does a one that is not negative. -/
inductive Means : Operation → Code → Outcome → Prop
  | success {operation : Operation} {code : Code} (zero : code.magnitude = 0) :
      Means operation code .success
  | userCancelled {operation : Operation} {code : Code} (cancels : operation ≠ .encrypt)
      (two : code.magnitude = 2) : Means operation code .userCancelled
  | rebootRequired {code : Code} (one : code.magnitude = 1) (negative : code.value < 0) :
      Means .decrypt code .rebootRequired
  | wrongPassphrase {code : Code} (three : code.magnitude = 3) :
      Means .decrypt code .wrongCredential
  | unchangedPassphrase {code : Code} (four : code.magnitude = 4) :
      Means .changePassphrase code .wrongCredential
  | notNegative {code : Code} (one : code.magnitude = 1) (positive : 0 < code.value) :
      Means .decrypt code (.failed code)
  | elsewhere {operation : Operation} {code : Code}
      (outside : code.magnitude ∉ operation.column) : Means operation code (.failed code)

/-- An outcome in which a failure tells another code. -/
def Outcome.withCode (code : Code) : Outcome → Outcome
  | .failed _ => .failed code
  | outcome => outcome

/-- The code with the other sign.  The least code has none. -/
def Code.negated? (code : Code) : Option Code := ofInt? (-code.value)

theorem Code.negated?_eq_none_iff (code : Code) :
    code.negated? = none ↔ code.value = -2147483648 := by
  have lower := code.lower
  have upper := code.upper
  unfold negated? ofInt?
  split
  · exact iff_of_false (Option.some_ne_none _) (by omega)
  · exact iff_of_true rfl (by omega)

theorem Code.value_of_negated? {code flipped : Code} (negated : code.negated? = some flipped) :
    flipped.value = -code.value :=
  ofInt?_eq_some_iff.mp negated

/-! ## Lines of the table -/

namespace CodeRule

theorem covers_iff (rule : CodeRule) (operation : Operation) (code : Code) :
    rule.covers operation code = true ↔
      rule.operation = operation ∧ rule.magnitude = code.magnitude ∧
        (rule.negativeOnly = true → code.isNegative = true) := by
  unfold covers
  cases rule.negativeOnly <;> simp [and_assoc]

/-- No two lines of the table are about the same magnitude. -/
theorem table_unambiguous :
    ∀ first ∈ table, ∀ second ∈ table, first.operation = second.operation →
      first.magnitude = second.magnitude → first = second := by
  decide

end CodeRule

open CodeRule

theorem classify_eq_of_mem {rule : CodeRule} {operation : Operation} {code : Code}
    (member : rule ∈ table) (covered : rule.covers operation code = true) :
    classify operation code = rule.outcome := by
  unfold classify
  cases found : table.find? fun rule => rule.covers operation code with
  | none =>
      have uncovered := List.find?_eq_none.mp found rule member
      exact absurd covered uncovered
  | some other =>
      have otherCovered := List.find?_some found
      obtain ⟨sameOperation, sameMagnitude, -⟩ := (covers_iff _ _ _).mp otherCovered
      obtain ⟨operation_eq, magnitude_eq, -⟩ := (covers_iff _ _ _).mp covered
      rw [table_unambiguous other (List.mem_of_find?_eq_some found) rule member
        (sameOperation.trans operation_eq.symm) (sameMagnitude.trans magnitude_eq.symm)]

/-- The meaning of a code by the first of some lines that covers it. -/
def firstMeaning (rules : List CodeRule) (operation : Operation) (code : Code) : Outcome :=
  match rules.find? fun rule => rule.covers operation code with
  | some rule => rule.outcome
  | none => .failed code

theorem pairwise_not_covers (operation : Operation) (code : Code) :
    table.Pairwise fun first second =>
      ¬ (first.covers operation code = true ∧ second.covers operation code = true) := by
  have apart : table.Pairwise fun first second =>
      ¬ (first.operation = second.operation ∧ first.magnitude = second.magnitude) := by
    decide
  refine apart.imp fun differ both => differ ?_
  obtain ⟨operation_eq, magnitude_eq, -⟩ := (covers_iff _ _ _).mp both.1
  obtain ⟨operation_eq', magnitude_eq', -⟩ := (covers_iff _ _ _).mp both.2
  exact ⟨operation_eq.trans operation_eq'.symm, magnitude_eq.trans magnitude_eq'.symm⟩

/-- Of things no two of which pass a test, one passes it at most. -/
theorem countP_le_one {α : Type} {test : α → Bool} {items : List α}
    (apart : items.Pairwise fun first second => ¬ (test first = true ∧ test second = true)) :
    items.countP test ≤ 1 := by
  induction apart with
  | nil => exact Nat.zero_le 1
  | @cons first later alone _ inductionHypothesis =>
      by_cases passes : test first = true
      · have others : later.countP test = 0 := by
          rw [List.countP_eq_zero]
          exact fun second member passes' => alone second member ⟨passes, passes'⟩
        have counted : (first :: later).countP test = 1 := by
          rw [List.countP_cons_of_pos passes, others]
        exact Nat.le_of_eq counted
      · rw [List.countP_cons_of_neg passes]
        exact inductionHypothesis

/-- Only which lines there are matters to the meaning. -/
theorem firstMeaning_of_perm {rules : List CodeRule} (perm : rules.Perm table)
    (operation : Operation) (code : Code) :
    firstMeaning rules operation code = classify operation code := by
  unfold firstMeaning
  cases found : rules.find? fun rule => rule.covers operation code with
  | some rule =>
      have member := perm.mem_iff.mp (List.mem_of_find?_eq_some found)
      have covered := List.find?_some found
      exact (classify_eq_of_mem member covered).symm
  | none =>
      have uncovered : table.find? (fun rule => rule.covers operation code) = none := by
        rw [List.find?_eq_none] at found ⊢
        exact fun rule member => found rule (perm.mem_iff.mpr member)
      rw [classify, uncovered]

/-! ## The meaning of every code -/

theorem classify_eq_failed {operation : Operation} {code : Code}
    (uncovered : ∀ rule ∈ table, rule.operation = operation → rule.magnitude = code.magnitude →
      rule.negativeOnly = true ∧ 0 < code.value) :
    classify operation code = .failed code := by
  have none : table.find? (fun rule => rule.covers operation code) = none := by
    rw [List.find?_eq_none]
    intro rule member covered
    obtain ⟨operation_eq, magnitude_eq, negative⟩ := (covers_iff _ _ _).mp covered
    obtain ⟨signed, positive⟩ := uncovered rule member operation_eq magnitude_eq
    have below : code.value < 0 := of_decide_eq_true (negative signed)
    omega
  rw [classify, none]

theorem Means.classify_eq {operation : Operation} {code : Code} {outcome : Outcome}
    (means : Means operation code outcome) : classify operation code = outcome := by
  -- a row of the column is a line of the table that covers the code
  have covered {magnitude : Nat} (negativeOnly : Bool)
      (member : ⟨operation, magnitude, negativeOnly, outcome⟩ ∈ table)
      (same : code.magnitude = magnitude) (negative : negativeOnly = true → code.value < 0) :
      classify operation code = outcome := by
    apply classify_eq_of_mem member
    rw [covers_iff]
    exact ⟨rfl, same.symm, fun signed => decide_eq_true (negative signed)⟩
  cases means with
  | success zero =>
      refine covered false ?_ zero Bool.noConfusion
      cases operation <;> decide
  | userCancelled cancels two =>
      refine covered false ?_ two Bool.noConfusion
      cases operation with
      | encrypt => exact absurd rfl cancels
      | _ => decide
  | rebootRequired one negative => exact covered true (by decide) one fun _ => negative
  | wrongPassphrase three => exact covered false (by decide) three Bool.noConfusion
  | unchangedPassphrase four => exact covered false (by decide) four Bool.noConfusion
  | notNegative one positive =>
      have signed : ∀ rule ∈ table, rule.operation = .decrypt → rule.magnitude = 1 →
          rule.negativeOnly = true := by decide
      refine classify_eq_failed fun rule member operation_eq magnitude_eq => ?_
      exact ⟨signed rule member operation_eq (magnitude_eq.trans one), positive⟩
  | elsewhere outside =>
      have listed : ∀ rule ∈ table, rule.magnitude ∈ rule.operation.column := by decide
      refine classify_eq_failed fun rule member operation_eq magnitude_eq => ?_
      exact absurd (operation_eq ▸ magnitude_eq ▸ listed rule member) outside

theorem exists_means (operation : Operation) (code : Code) :
    ∃ outcome, Means operation code outcome := by
  by_cases outside : code.magnitude ∉ operation.column
  · exact ⟨_, .elsewhere outside⟩
  rw [not_not] at outside
  cases operation with
  | preEncrypt =>
      obtain zero | two : code.magnitude = 0 ∨ code.magnitude = 2 := by
        simpa [Operation.column] using outside
      · exact ⟨_, .success zero⟩
      · exact ⟨_, .userCancelled Operation.noConfusion two⟩
  | encrypt =>
      have zero : code.magnitude = 0 := by simpa [Operation.column] using outside
      exact ⟨_, .success zero⟩
  | decrypt =>
      obtain zero | one | two | three : code.magnitude = 0 ∨ code.magnitude = 1 ∨
          code.magnitude = 2 ∨ code.magnitude = 3 := by
        simpa [Operation.column] using outside
      · exact ⟨_, .success zero⟩
      · have distance : code.value.natAbs = 1 := one
        by_cases negative : code.value < 0
        · exact ⟨_, .rebootRequired one negative⟩
        · exact ⟨_, .notNegative one (by omega)⟩
      · exact ⟨_, .userCancelled Operation.noConfusion two⟩
      · exact ⟨_, .wrongPassphrase three⟩
  | changePassphrase =>
      obtain zero | two | four : code.magnitude = 0 ∨ code.magnitude = 2 ∨
          code.magnitude = 4 := by
        simpa [Operation.column] using outside
      · exact ⟨_, .success zero⟩
      · exact ⟨_, .userCancelled Operation.noConfusion two⟩
      · exact ⟨_, .unchangedPassphrase four⟩

theorem means_classify (operation : Operation) (code : Code) :
    Means operation code (classify operation code) := by
  obtain ⟨outcome, means⟩ := exists_means operation code
  rw [means.classify_eq]
  exact means

theorem classify_eq_iff (operation : Operation) (code : Code) (outcome : Outcome) :
    classify operation code = outcome ↔ Means operation code outcome :=
  ⟨fun classified => classified ▸ means_classify operation code, Means.classify_eq⟩

theorem classify_eq_success_iff (operation : Operation) (code : Code) :
    classify operation code = .success ↔ code.value = 0 := by
  rw [classify_eq_iff]
  constructor
  · intro means
    cases means with
    | success zero => exact Int.natAbs_eq_zero.mp zero
  · exact fun zero => .success (Int.natAbs_eq_zero.mpr zero)

theorem classify_eq_rebootRequired_iff (operation : Operation) (code : Code) :
    classify operation code = .rebootRequired ↔ operation = .decrypt ∧ code.value = -1 := by
  rw [classify_eq_iff]
  constructor
  · intro means
    cases means with
    | rebootRequired one negative =>
        have distance : code.value.natAbs = 1 := one
        exact ⟨rfl, by omega⟩
  · rintro ⟨rfl, waits⟩
    have one : code.magnitude = 1 := by rw [Code.magnitude, waits]; rfl
    exact .rebootRequired one (by omega)

/-- A row says the same of both signs, apart from that which asks for a reboot. -/
theorem Means.negated {operation : Operation} {code flipped : Code} {outcome : Outcome}
    (means : Means operation code outcome) (value_eq : flipped.value = -code.value)
    (unsigned : ¬ (operation = .decrypt ∧ code.magnitude = 1)) :
    Means operation flipped (outcome.withCode flipped) := by
  have magnitude_eq : flipped.magnitude = code.magnitude := by
    rw [Code.magnitude, value_eq, Int.natAbs_neg, Code.magnitude]
  cases means with
  | success zero => exact .success (magnitude_eq.trans zero)
  | userCancelled cancels two => exact .userCancelled cancels (magnitude_eq.trans two)
  | rebootRequired one => exact absurd ⟨rfl, one⟩ unsigned
  | wrongPassphrase three => exact .wrongPassphrase (magnitude_eq.trans three)
  | unchangedPassphrase four => exact .unchangedPassphrase (magnitude_eq.trans four)
  | notNegative one => exact absurd ⟨rfl, one⟩ unsigned
  | elsewhere outside => exact .elsewhere (magnitude_eq ▸ outside)

/-! ## What is told -/

theorem offersReboot_decision_iff (verdict : Verdict) (label : String) :
    (verdict.decision label).offersReboot = true ↔
      verdict.operation = .preEncrypt ∧ verdict.outcome = .success ∨
        verdict.operation = .decrypt ∧ verdict.outcome = .rebootRequired := by
  unfold Verdict.decision
  split <;> simp_all [Decision.info, Decision.reboot, Decision.error, Decision.failure]

theorem offersReboot_judge_iff (operation : Operation) (code : Code) (label : String) :
    ((judge operation code).decision label).offersReboot = true ↔
      operation = .preEncrypt ∧ code.value = 0 ∨ operation = .decrypt ∧ code.value = -1 := by
  rw [offersReboot_decision_iff, judge, classify_eq_success_iff, classify_eq_rebootRequired_iff,
    and_self_left]

/-- An error is what failed or had a wrong credential. -/
theorem Means.severity_eq_error_iff {operation : Operation} {code : Code} {outcome : Outcome}
    (means : Means operation code outcome) (label : String) :
    ((⟨operation, code, outcome⟩ : Verdict).decision label).severity = .error ↔
      outcome = .wrongCredential ∨ ∃ told, outcome = .failed told := by
  cases means with
  | success => cases operation <;> simp [Verdict.decision, Decision.info, Decision.reboot]
  | userCancelled cancels =>
      cases operation with
      | encrypt => exact absurd rfl cancels
      | _ => simp [Verdict.decision, Decision.info]
  | rebootRequired => simp [Verdict.decision, Decision.reboot]
  | wrongPassphrase => simp [Verdict.decision, Decision.error]
  | unchangedPassphrase => simp [Verdict.decision, Decision.error]
  | notNegative => simp [Verdict.decision, Decision.failure, Decision.error]
  | elsewhere => simp [Verdict.decision, Decision.failure, Decision.error]

/-- A failure tells the code that it is the meaning of. -/
theorem Means.code_eq {operation : Operation} {code told : Code}
    (means : Means operation code (.failed told)) : told = code := by
  cases means <;> rfl

theorem decision_of_failed (operation : Operation) (code told : Code) (label : String) :
    (⟨operation, code, .failed told⟩ : Verdict).decision label =
      .failure operation label code := by
  cases operation <;> rfl

/-- What a code means for an operation stands in the column of the operation, in whatever order
the table is searched, and what the user is told follows from it. -/
theorem codes_classified_and_told (operation : Operation) (code : Code) (label : String) :
    let outcome := classify operation code
    let decision := (judge operation code).decision label
    Means operation code outcome ∧ (∀ other, Means operation code other → other = outcome) ∧
    table.countP (fun rule => rule.covers operation code) ≤ 1 ∧
    (∀ rules, rules.Perm table → firstMeaning rules operation code = outcome) ∧
    (code.negated? = none ↔ code.value = -2147483648) ∧
    (∀ flipped, code.negated? = some flipped → ¬ (operation = .decrypt ∧ code.magnitude = 1) →
      classify operation flipped = outcome.withCode flipped) ∧
    (decision.offersReboot = true ↔
      operation = .preEncrypt ∧ outcome = .success ∨
        operation = .decrypt ∧ outcome = .rebootRequired) ∧
    (decision.severity = .error ↔
      outcome = .wrongCredential ∨ ∃ told, outcome = .failed told) ∧
    (∀ told, outcome = .failed told → told = code ∧
      decision.message = "Device " ++ label ++ " " ++ Decision.verb operation ++
        " failed, please see log for more information.(" ++ code.text ++ ")") := by
  intro outcome decision
  have means : Means operation code outcome := means_classify operation code
  refine ⟨means, fun other means' => means'.classify_eq.symm,
    countP_le_one (pairwise_not_covers operation code),
    fun rules perm => firstMeaning_of_perm perm operation code, code.negated?_eq_none_iff, ?_,
    offersReboot_decision_iff _ label, means.severity_eq_error_iff label, ?_⟩
  · intro flipped negated unsigned
    exact (means.negated (Code.value_of_negated? negated) unsigned).classify_eq
  · intro told failed
    have judged : judge operation code = ⟨operation, code, .failed told⟩ := by
      rw [judge]
      exact congrArg _ failed
    refine ⟨(failed ▸ means).code_eq, ?_⟩
    simp only [decision]
    rw [judged, decision_of_failed]
    rfl

-- The least code has no other sign and stands in no column.
example :
    let least : Code := ⟨-2147483648, by decide, by decide⟩
    least.negated? = none ∧ Operation.all.all fun operation =>
      classify operation least = .failed least := by
  decide

end DiskWarden
