import BoolNat.Metatheory.Report
import BoolNat.Proofs.Reduction.BigStep
import BoolNat.Proofs.Reduction.Rule
import BoolNat.Proofs.Reduction.Sequence
import BoolNat.Proofs.Term.Measure
import BoolNat.Proofs.Typing.Soundness
set_option autoImplicit false

/-! # The laws hold

Nine checks ask whether the calculus obeys its laws, and it does.  Seven of them hold for
every term without foreign leaves.  The other two also normalize the term under a bound, and
they fail for a term that needs more steps than the bound allows, and for no other
(`Law.judge_property`).

A check is asked only where the premise of its law applies.  What comes of both is
`Law.verdict`.
-/

namespace BoolNat

namespace Semantics

/-! ## Laws of every term -/

/-- The step and the relation of the rules agree, whichever functions stand for them. -/
theorem checkDeterminism_iff {s : Semantics} {t : Term} :
    s.checkDeterminism t = true ↔ s.successors t = (s.step t).toList := by
  unfold checkDeterminism
  cases s.successors t with
  | nil => cases s.step t <;> simp
  | cons t' rest => cases rest <;> cases s.step t <;> simp [eq_comm]

theorem checkDeterminism_standard (t : Term) : standard.checkDeterminism t = true :=
  checkDeterminism_iff.mpr t.successors_eq

theorem checkValueNormal_standard (t : Term) : standard.checkValueNormal t = true := by
  cases hv : t.isValue with
  | false => simp [checkValueNormal, hv]
  | true => simp [checkValueNormal, standard, Term.step_of_isValue hv]

theorem checkSizeDecreases_standard (t : Term) : standard.checkSizeDecreases t = true := by
  unfold checkSizeDecreases
  split
  · rfl
  · next t' h => exact decide_eq_true (Step.of_step h).size_lt

theorem checkConstsBound_eq_true (t : Term) : checkConstsBound t = true :=
  decide_eq_true (t.length_constants_le.trans t.length_leaves_le_size)

/-! ## Laws of terms with a type -/

variable {t : Term}

theorem typecheck_standard_of_hasType {ty : Ty} (h : HasType t ty) :
    standard.typecheck t = .ok (some (.known ty)) := by
  have ht : standard.typecheck t = t.typecheck.map (·.map TypeName.known) := rfl
  rw [ht, Term.typecheck_eq_some_iff.mpr h]; rfl

theorem checkProgress_standard {ty : Ty} (h : HasType t ty) :
    standard.checkProgress t = .ok true := by
  rw [checkProgress, typecheck_standard_of_hasType h]
  rcases h.progress with hv | ⟨t', hs⟩
  · simp [hv]
  · simp [standard, hs.step_eq]

theorem checkPreservation_standard {ty : Ty} (h : HasType t ty) :
    standard.checkPreservation t = .ok true := by
  rw [checkPreservation, typecheck_standard_of_hasType h]
  cases hs : t.step with
  | none => simp [standard, hs]
  | some t' =>
    have ht' := h.preservation (Step.of_step hs)
    have hstep : standard.step t = some t' := hs
    simp only [hstep]
    rw [typecheck_standard_of_hasType ht']
    simp [Except.map]

theorem checkCanonicalForms_standard {ty : Ty} (h : HasType t ty) :
    standard.checkCanonicalForms t = .ok true := by
  unfold checkCanonicalForms
  split
  · next hv =>
    rw [typecheck_standard_of_hasType h]
    cases ty with
    | bool => simp [h.isBoolean_of_isValue hv]
    | nat => simp [h.isNumeric_of_isValue hv]
  · rfl

/-! ## Laws under a bound on steps -/

/-- A term with a type normalizes to a value of its type if the bound allows its steps. -/
theorem checkSoundness_standard {ty : Ty} (maxSteps : Int) (h : HasType t ty) :
    standard.checkSoundness maxSteps t = .ok (!t.overruns maxSteps) := by
  rw [checkSoundness, typecheck_standard_of_hasType h]
  cases ho : t.overruns maxSteps with
  | true =>
    obtain ⟨limit, hn⟩ := Term.normalize_of_overruns ho
    simp [hn]
  | false =>
    obtain ⟨u, hn, hr, hu⟩ := Term.normalize_of_overruns_eq_false ho
    have htyped := h.of_reaches hr
    have hvalue := htyped.isValue_of_normal hu
    simp only [hn, hvalue, if_true]
    rw [typecheck_standard_of_hasType htyped]
    simp [Except.map]

/-- The bound allows the steps, and what stands for evaluation in one go answers as it should. -/
theorem checkBigStep_iff {s : Semantics} {maxSteps : Int} {t : Term} :
    s.checkBigStep maxSteps t = true ↔
      t.overruns maxSteps = false ∧ s.bigStep t = t.bigStep := by
  unfold checkBigStep
  cases ho : t.overruns maxSteps with
  | true =>
    obtain ⟨limit, hn⟩ := Term.normalize_of_overruns ho
    simp [hn]
  | false =>
    rw [Term.normalize_of_enough ho, t.bigStep_eq_normalForm]
    cases hv : t.normalForm.isValue <;> simp [hv]

/-- Evaluation in one go finds the value that stepping ends with if the bound allows the
steps. -/
theorem checkBigStep_standard (maxSteps : Int) (t : Term) :
    standard.checkBigStep maxSteps t = !t.overruns maxSteps := by
  rw [Bool.eq_iff_iff, checkBigStep_iff]
  simp [standard]

end Semantics

namespace Law

/-- The law says something about a term without foreign leaves. -/
def applies (t : Term) : Law → Bool
  | .determinism | .valueNormal | .constsBound | .bigStep => true
  | .progress | .soundness | .canonicalForms => t.isTyped
  | .preservation => t.isTyped && t.step.isSome
  | .sizeDecreases => t.step.isSome

/-- The check of the law fails, which only the bound on steps can make it do. -/
def fails (maxSteps : Int) (t : Term) : Law → Bool
  | .soundness | .bigStep => t.overruns maxSteps
  | .determinism | .valueNormal | .progress | .preservation | .canonicalForms | .sizeDecreases
  | .constsBound => false

/-- What comes of a law for a term without foreign leaves, under a bound on steps. -/
def verdict (maxSteps : Int) (law : Law) (t : Term) : Verdict :=
  if law.applies t then if law.fails maxSteps t then .violated else .upheld else .vacuous

theorem premise_of_isProper {t : Term} (h : t.isProper = true) (law : Law) :
    law.premise t = .ok (law.applies t) := by
  have htyped := Term.isWellTyped_of_isProper h
  cases law with
  | determinism | valueNormal | constsBound | bigStep | sizeDecreases => rfl
  | progress | soundness | canonicalForms => exact htyped
  | preservation => rw [premise, htyped]; rfl

/-- Where a law applies, its check holds, unless the bound on steps is too small. -/
theorem check_of_applies {t : Term} {law : Law} (maxSteps : Int) (h : law.applies t = true) :
    law.check .standard maxSteps t = .ok (!law.fails maxSteps t) := by
  cases law with
  | determinism => exact congrArg Except.ok (Semantics.checkDeterminism_standard t)
  | valueNormal => exact congrArg Except.ok (Semantics.checkValueNormal_standard t)
  | sizeDecreases => exact congrArg Except.ok (Semantics.checkSizeDecreases_standard t)
  | constsBound => exact congrArg Except.ok (Semantics.checkConstsBound_eq_true t)
  | bigStep => exact congrArg Except.ok (Semantics.checkBigStep_standard maxSteps t)
  | progress =>
    obtain ⟨ty, hty⟩ := Term.isTyped_iff.mp h
    exact Semantics.checkProgress_standard hty
  | canonicalForms =>
    obtain ⟨ty, hty⟩ := Term.isTyped_iff.mp h
    exact Semantics.checkCanonicalForms_standard hty
  | soundness =>
    obtain ⟨ty, hty⟩ := Term.isTyped_iff.mp h
    exact Semantics.checkSoundness_standard maxSteps hty
  | preservation =>
    obtain ⟨ty, hty⟩ := Term.isTyped_iff.mp ((Bool.and_eq_true _ _).mp h).1
    exact Semantics.checkPreservation_standard hty

/-- Every law reaches its verdict on every term without foreign leaves. -/
theorem judge_property {t : Term} (h : t.isProper = true) (maxSteps : Int) (law : Law) :
    (law.property maxSteps).judge t = .ok (law.verdict maxSteps t) := by
  have hpremise : (law.property maxSteps).premise t = .ok (law.applies t) :=
    premise_of_isProper h law
  rw [Property.judge, hpremise, verdict]
  cases happlies : law.applies t with
  | false => rfl
  | true =>
    have hcheck : (law.property maxSteps).check t = .ok (!law.fails maxSteps t) :=
      check_of_applies maxSteps happlies
    simp only [hcheck, Except.map, if_true]
    cases law.fails maxSteps t <;> rfl

/-- A law is violated where it applies and the bound on steps is too small for its check. -/
theorem verdict_eq_violated_iff {maxSteps : Int} {law : Law} {t : Term} :
    law.verdict maxSteps t = .violated ↔
      law.applies t = true ∧ law.fails maxSteps t = true := by
  unfold verdict
  cases law.applies t <;> cases law.fails maxSteps t <;> simp

end Law

end BoolNat
