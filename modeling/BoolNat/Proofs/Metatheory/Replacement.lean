import BoolNat.Proofs.Metatheory.Law
set_option autoImplicit false

/-! # What the laws say of other functions

A law is a check on the functions of a `Semantics`, and a wrong one in the place of the right one
is what a check is to notice.

Two of the laws compare functions with each other, and with the other function right they hold of
a term exactly if the one in question answers for it as it should: these checks overlook nothing
and report nothing that is in order (`agreement_checks_iff`).

Nothing is right or wrong about a checker as such.  But any checker that passes the checks of
progress and preservation all along the way to the normal form passes the check of soundness, since
the type of the term is kept up to its normal form, which is a value then
(`LocallySound.value_normalForm`).  With the check of canonical forms at the end, the type tells
which kind of value the term evaluates to (`soundness_of_local_checks`).
-/

namespace BoolNat

/-- The term is one of the values that a type is of: a truth value or a numeral. -/
def Term.isOfKind (t : Term) : Ty → Bool
  | .bool => t.isBoolean
  | .nat => t.isNumeric

namespace Semantics

/-! ## Functions that ought to agree -/

/-- Whatever stands for the step, for the relation of the rules or for evaluation in one go, the
check of its agreement holds of a term exactly if it does there what the right function does.  The
agreement of evaluation in one go also takes a bound that allows the term its steps. -/
theorem agreement_checks_iff (t : Term) :
    (∀ step' : Term → Option Term,
      { standard with step := step' }.checkDeterminism t = true ↔ step' t = t.step) ∧
    (∀ successors' : Term → List Term,
      { standard with successors := successors' }.checkDeterminism t = true ↔
        successors' t = t.successors) ∧
    ∀ (bigStep' : Term → Option Term) (maxSteps : Int),
      { standard with bigStep := bigStep' }.checkBigStep maxSteps t = true ↔
        (∃ (n : Nat) (u : Term), Run n t u ∧ u.step = none ∧ (n : Int) ≤ max maxSteps 0) ∧
          bigStep' t = t.bigStep := by
  refine ⟨?_, ?_, ?_⟩
  · intro step'
    rw [checkDeterminism_iff]
    change t.successors = (step' t).toList ↔ _
    rw [t.successors_eq]
    cases t.step <;> cases step' t <;> simp [eq_comm]
  · intro successors'
    rw [checkDeterminism_iff, t.successors_eq]
    rfl
  · intro bigStep' maxSteps
    rw [checkBigStep_iff, Term.overruns_eq_false_iff]

/-! ## Any checker -/

section Checker

variable {s : Semantics} {t t' : Term} {ty : TypeName}

/-- Where the check of progress holds, there is an answer from the checker. -/
theorem exists_typecheck_of_checkProgress (h : s.checkProgress t = .ok true) :
    ∃ found, s.typecheck t = .ok found := by
  unfold checkProgress at h
  cases hfound : s.typecheck t with
  | error e => rw [hfound] at h; cases h
  | ok found => exact ⟨found, rfl⟩

/-- Where the check of progress holds, a normal form with a type is a value. -/
theorem isValue_of_checkProgress (h : s.checkProgress t = .ok true)
    (hty : s.typecheck t = .ok (some ty)) (hnormal : s.step t = none) : t.isValue = true := by
  rw [checkProgress, hty] at h
  simpa [hnormal] using h

/-- Where the check of preservation holds, a step keeps the type. -/
theorem typecheck_of_checkPreservation (h : s.checkPreservation t = .ok true)
    (hty : s.typecheck t = .ok (some ty)) (hs : s.step t = some t') :
    s.typecheck t' = .ok (some ty) := by
  rw [checkPreservation, hty] at h
  simp only [hs] at h
  cases hfound : s.typecheck t' with
  | error e => rw [hfound] at h; cases h
  | ok found =>
    rw [hfound] at h
    rw [of_decide_eq_true (Except.ok.inj h)]

/-- Of a value with a type, the check of canonical forms tells whether it is of that kind. -/
theorem checkCanonicalForms_of_isValue {ty : Ty} (hvalue : t.isValue = true)
    (hty : s.typecheck t = .ok (some (.known ty))) :
    s.checkCanonicalForms t = .ok (t.isOfKind ty) := by
  rw [checkCanonicalForms, if_pos hvalue, hty]
  cases ty <;> rfl

/-- The checks of progress and preservation hold all along the way to the normal form. -/
structure LocallySound (s : Semantics) (t : Term) : Prop where
  progress : ∀ u ∈ t.sequence, s.checkProgress u = .ok true
  preservation : ∀ u ∈ t.sequence, s.checkPreservation u = .ok true

namespace LocallySound

theorem of_step (h : s.LocallySound t) (hs : t.step = some t') : s.LocallySound t' := by
  have htail : ∀ u ∈ t'.sequence, u ∈ t.sequence := by
    rw [Term.sequence_of_step hs]
    exact fun u => List.mem_cons_of_mem t
  exact ⟨fun u hu => h.progress u (htail u hu), fun u hu => h.preservation u (htail u hu)⟩

/-- A type is kept by every step and so belongs to the normal form, which is a value then. -/
theorem value_normalForm (h : s.LocallySound t) (hstep : s.step = Term.step)
    (hty : s.typecheck t = .ok (some ty)) :
    t.normalForm.isValue = true ∧ s.typecheck t.normalForm = .ok (some ty) := by
  induction t using Term.stepInduction with
  | normal t hn =>
    have hs : s.step t = none := by rw [hstep, hn]
    rw [Term.normalForm_of_normal hn]
    exact ⟨isValue_of_checkProgress (h.progress t t.mem_sequence) hty hs, hty⟩
  | step t t' ht ih =>
    have hs : s.step t = some t' := by rw [hstep, ht]
    have hty' := typecheck_of_checkPreservation (h.preservation t t.mem_sequence) hty hs
    rw [Term.normalForm_of_step ht]
    exact ih (h.of_step ht) hty'

theorem checkSoundness (h : s.LocallySound t) (hstep : s.step = Term.step) {maxSteps : Int}
    (hbound : (t.stepCount : Int) ≤ maxSteps) : s.checkSoundness maxSteps t = .ok true := by
  obtain ⟨found, hfound⟩ := exists_typecheck_of_checkProgress (h.progress t t.mem_sequence)
  rw [Semantics.checkSoundness, hfound]
  cases found with
  | none => rfl
  | some ty =>
    obtain ⟨hvalue, hkept⟩ := h.value_normalForm hstep hfound
    have hnormalize := Term.normalize_of_enough (Term.overruns_of_stepCount_le hbound)
    simp [hnormalize, hvalue, hkept, Except.map]

/-- If moreover the check of canonical forms holds at the end, the type tells which kind of value
the term evaluates to. -/
theorem exists_bigStep (h : s.LocallySound t) (hstep : s.step = Term.step) {ty : Ty}
    (hcanonical : s.checkCanonicalForms t.normalForm = .ok true)
    (hty : s.typecheck t = .ok (some (.known ty))) :
    ∃ v, t.bigStep = some v ∧ v.isOfKind ty = true := by
  obtain ⟨hvalue, hkept⟩ := h.value_normalForm hstep hty
  rw [checkCanonicalForms_of_isValue hvalue hkept] at hcanonical
  refine ⟨t.normalForm, ?_, Except.ok.inj hcanonical⟩
  rw [t.bigStep_eq_normalForm, if_pos hvalue]

end LocallySound

end Checker

/-- Whatever stands for the checker: if the checks of progress and preservation hold all along the
way to the normal form of a term, then the check of soundness holds of it under every bound that
allows its steps.  If also the check of canonical forms holds at the end, then what has the type
Bool evaluates to a truth value and what has the type Nat to a numeral. -/
theorem soundness_of_local_checks {checker : Term → Except ForeignLeaf (Option TypeName)} {t : Term}
    (h : { standard with typecheck := checker }.LocallySound t) :
    (∀ maxSteps : Int, (t.stepCount : Int) ≤ maxSteps →
      { standard with typecheck := checker }.checkSoundness maxSteps t = .ok true) ∧
    ({ standard with typecheck := checker }.checkCanonicalForms t.normalForm = .ok true →
      (checker t = .ok (some (.known .bool)) → ∃ v, t.bigStep = some v ∧ v.isBoolean = true) ∧
      (checker t = .ok (some (.known .nat)) → ∃ v, t.bigStep = some v ∧ v.isNumeric = true)) := by
  refine ⟨fun maxSteps => h.checkSoundness rfl, fun hcanonical => ⟨?_, ?_⟩⟩
  · intro hbool
    exact h.exists_bigStep rfl hcanonical hbool
  · intro hnat
    exact h.exists_bigStep rfl hcanonical hnat

/-- The checker that gives a term the type of the value it evaluates to, if there is one. -/
def byEvaluation (t : Term) : Except ForeignLeaf (Option TypeName) :=
  .ok (t.bigStep.map fun v => .known (if v.isBoolean then .bool else .nat))

/-- A conditional whose branches are of different types has none, but one by evaluation, which is
right about it. -/
theorem soundness_of_local_checks_byEvaluation :
    Term.typecheck (.ite .tru .zero .tru) = .ok none ∧
      byEvaluation (.ite .tru .zero .tru) = .ok (some (.known .nat)) ∧
      { standard with typecheck := byEvaluation }.LocallySound (.ite .tru .zero .tru) ∧
      { standard with typecheck := byEvaluation }.checkSoundness 1 (.ite .tru .zero .tru) =
        .ok true ∧
      ∃ v, (Term.ite .tru .zero .tru).bigStep = some v ∧ v.isNumeric = true := by
  have hstep : (Term.ite .tru .zero .tru).step = some .zero := rfl
  have hsequence : (Term.ite .tru .zero .tru).sequence = [.ite .tru .zero .tru, .zero] := by
    rw [Term.sequence_of_step hstep, Term.sequence_of_normal rfl]
  have hnormal : (Term.ite .tru .zero .tru).normalForm = .zero := by
    rw [Term.normalForm_of_step hstep, Term.normalForm_of_normal rfl]
  have hcount : (Term.ite .tru .zero .tru).stepCount = 1 := by
    rw [Term.stepCount_of_step hstep, Term.stepCount_of_normal rfl]
  have h : { standard with typecheck := byEvaluation }.LocallySound (.ite .tru .zero .tru) := by
    constructor
    · rw [hsequence]; decide
    · rw [hsequence]; decide
  obtain ⟨hsound, hkinds⟩ := soundness_of_local_checks h
  refine ⟨by decide, rfl, h, hsound 1 (by rw [hcount]; decide), ?_⟩
  exact (hkinds (by rw [hnormal]; decide)).2 rfl

end Semantics

end BoolNat
