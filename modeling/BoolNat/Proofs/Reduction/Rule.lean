import BoolNat.Reduction.Rule
import BoolNat.Reduction.Step
set_option autoImplicit false

/-! # The table of rules and the step

The rules of the table are independent of each other and know no order, while the step
tries its cases one after the other.  They agree (`Term.successors_eq`) because the shape
of a term leaves one rule at most: the one that `Term.rule?` names.

For the rules without a premise that is a matter of their patterns.  A rule for a part of
a term has the pattern of every such term, and it is out of the question for the others
only because the part is a value by then, and a value steps nowhere.
-/

namespace BoolNat

namespace Term

/-- The rule that the shape of a term leaves; none for a leaf. -/
def rule? : Term → Option Rule
  | .ite .tru _ _ => some .ifTrue
  | .ite .fls _ _ => some .ifFalse
  | .ite _ _ _ => some .ifCondition
  | .succ _ => some .succOperand
  | .pred .zero => some .predZero
  | .pred (.succ n) => if n.isNumeric then some .predSucc else some .predOperand
  | .pred _ => some .predOperand
  | .isZero .zero => some .isZeroZero
  | .isZero (.succ n) => if n.isNumeric then some .isZeroSucc else some .isZeroOperand
  | .isZero _ => some .isZeroOperand
  | .tru | .fls | .zero | .foreign _ => none

theorem rule?_ite {c : Term} (t e : Term) (h : c.isBoolean = false) :
    (ite c t e).rule? = some .ifCondition := by
  cases c with
  | tru | fls => cases h
  | _ => rfl

theorem rule?_pred {t : Term} (h : t.isNumeric = false) :
    (pred t).rule? = some .predOperand := by
  cases t with
  | zero => cases h
  | succ n => rw [rule?, if_neg (by simpa [isNumeric] using h)]
  | _ => rfl

theorem rule?_isZero {t : Term} (h : t.isNumeric = false) :
    (isZero t).rule? = some .isZeroOperand := by
  cases t with
  | zero => cases h
  | succ n => rw [rule?, if_neg (by simpa [isNumeric] using h)]
  | _ => rfl

theorem step_of_rule?_eq_none {t : Term} (h : t.rule? = none) : t.step = none := by
  cases t with
  | tru | fls | zero | foreign => rfl
  | succ t => cases h
  | ite c t e => cases c <;> cases h
  | pred t | isZero t =>
    cases t with
    | succ n => rw [rule?] at h; split at h <;> cases h
    | _ => cases h

/-- Where the part of a term that is evaluated first steps to. -/
def focusStep : Term → Option Term
  | .succ t | .pred t | .isZero t => t.step
  | .ite c _ _ => c.step
  | .tru | .fls | .zero | .foreign _ => none

end Term

/-! ## What each rule derives

In the first case of each proof the part is a value and steps nowhere, which leaves the
rule for the part without a premise.  In the second it is none, and the patterns of the
other rules do not fit. -/

namespace Rule

theorem conclude_ite (rule : Rule) (c t e : Term) :
    rule.conclude (.ite c t e) c.step.toList =
      if (Term.ite c t e).rule? = some rule then (Term.ite c t e).step.toList else [] := by
  cases hc : c.isBoolean with
  | true =>
    cases c with
    | tru | fls => cases rule <;> rfl
    | _ => cases hc
  | false =>
    rw [Term.rule?_ite t e hc, Term.step_ite t e hc]
    cases rule with
    | ifCondition => rw [Option.toList_map]; rfl
    | ifTrue =>
      cases c with
      | tru => cases hc
      | _ => rfl
    | ifFalse =>
      cases c with
      | fls => cases hc
      | _ => rfl
    | _ => rfl

theorem conclude_succ (rule : Rule) (t : Term) :
    rule.conclude (.succ t) t.step.toList =
      if (Term.succ t).rule? = some rule then (Term.succ t).step.toList else [] := by
  cases rule with
  | succOperand =>
    cases hn : t.isNumeric with
    | true => simp [conclude, Term.step_succ, Term.step_of_isNumeric hn]
    | false => simp [conclude, Term.rule?, Term.step_succ, hn, Option.toList_map]
  | _ => rfl

theorem conclude_pred (rule : Rule) (t : Term) :
    rule.conclude (.pred t) t.step.toList =
      if (Term.pred t).rule? = some rule then (Term.pred t).step.toList else [] := by
  cases hn : t.isNumeric with
  | true =>
    rw [Term.step_of_isNumeric hn]
    cases t with
    | zero => cases rule <;> rfl
    | succ n =>
      have hn' : n.isNumeric = true := hn
      cases rule <;> simp [conclude, Term.rule?, Term.step_pred_succ, hn']
    | _ => cases hn
  | false =>
    rw [Term.rule?_pred hn, Term.step_pred hn]
    cases rule with
    | predOperand => rw [Option.toList_map]; rfl
    | predZero =>
      cases t with
      | zero => cases hn
      | _ => rfl
    | predSucc =>
      cases t with
      | succ n => simpa [conclude, Term.isNumeric] using hn
      | _ => rfl
    | _ => rfl

theorem conclude_isZero (rule : Rule) (t : Term) :
    rule.conclude (.isZero t) t.step.toList =
      if (Term.isZero t).rule? = some rule then (Term.isZero t).step.toList else [] := by
  cases hn : t.isNumeric with
  | true =>
    rw [Term.step_of_isNumeric hn]
    cases t with
    | zero => cases rule <;> rfl
    | succ n =>
      have hn' : n.isNumeric = true := hn
      cases rule <;> simp [conclude, Term.rule?, Term.step_isZero_succ, hn']
    | _ => cases hn
  | false =>
    rw [Term.rule?_isZero hn, Term.step_isZero hn]
    cases rule with
    | isZeroOperand => rw [Option.toList_map]; rfl
    | isZeroZero =>
      cases t with
      | zero => cases hn
      | _ => rfl
    | isZeroSucc =>
      cases t with
      | succ n => simpa [conclude, Term.isNumeric] using hn
      | _ => rfl
    | _ => rfl

/-- As far as the rules agree with the step on the part of a term, the rule of its shape
derives where the term steps to, and every other rule derives nothing. -/
theorem conclude_focusStep (rule : Rule) (t : Term) :
    rule.conclude t t.focusStep.toList =
      if t.rule? = some rule then t.step.toList else [] := by
  cases t with
  | tru | fls | zero | foreign => cases rule <;> rfl
  | succ t => exact conclude_succ rule t
  | pred t => exact conclude_pred rule t
  | isZero t => exact conclude_isZero rule t
  | ite c t e => exact conclude_ite rule c t e

/-! ## The whole table -/

/-- The table holds every rule once. -/
theorem flatMap_all_ite {α : Type} (rule? : Option Rule) (found : List α)
    (h : rule? = none → found = []) :
    (all.flatMap fun rule => if rule? = some rule then found else []) = found := by
  cases rule? with
  | none => simp [h rfl]
  | some rule => cases rule <;> simp [all]

end Rule

namespace Term

/-- If the rules agree with the step on the part of a term, they do on the term. -/
theorem successors_of_focusStep {t : Term} (h : t.focusSuccessors = t.focusStep.toList) :
    t.successors = t.step.toList := by
  have hnone : t.rule? = none → t.step.toList = [] := by
    intro hr
    rw [step_of_rule?_eq_none hr]; rfl
  calc t.successors
      = Rule.all.flatMap fun rule => rule.conclude t t.focusStep.toList := by
        rw [successors_eq_derivations, derivations, h, Rule.deriveAll, List.map_flatMap]
        simp [Function.comp_def]
    _ = Rule.all.flatMap fun rule => if t.rule? = some rule then t.step.toList else [] := by
        simp only [Rule.conclude_focusStep]
    _ = t.step.toList := Rule.flatMap_all_ite t.rule? _ hnone

/-- The rules relate a term to where it steps to. -/
theorem successors_eq (t : Term) : t.successors = t.step.toList := by
  induction t with
  | tru | fls | zero | foreign => rfl
  | succ t ih | pred t ih | isZero t ih => exact successors_of_focusStep ih
  | ite c t e ih => exact successors_of_focusStep ih

theorem focusSuccessors_eq (t : Term) : t.focusSuccessors = t.focusStep.toList := by
  cases t with
  | tru | fls | zero | foreign => rfl
  | succ t | pred t | isZero t | ite t => exact successors_eq t

end Term

/-- What a rule derives for a term. -/
def Rule.derive (rule : Rule) (t : Term) : List Term := rule.conclude t t.focusSuccessors

/-- The rule of the shape derives the step, and the other rules derive nothing. -/
theorem Rule.derive_eq (rule : Rule) (t : Term) :
    rule.derive t = if t.rule? = some rule then t.step.toList else [] := by
  rw [derive, Term.focusSuccessors_eq, conclude_focusStep]

theorem Term.derivations_eq {t : Term} {rule : Rule} (h : t.rule? = some rule) :
    t.derivations = t.step.toList.map (rule, ·) := by
  have hall : t.derivations = Rule.all.flatMap fun r => (r.derive t).map (r, ·) := rfl
  simp only [hall, Rule.derive_eq, h]
  cases rule <;> simp [Rule.all]

/-- The rules relate a term to the one that the step leads to and to no other: at most one
rule of the table derives anything, and that derives one successor. -/
theorem successors_eq_toList_step (t : Term) :
    t.successors = t.step.toList ∧
      (t.step = none → ∀ rule : Rule, rule.derive t = []) ∧
      ∀ t', t.step = some t' → ∃ rule ∈ Rule.all, t.derivations = [(rule, t')] ∧
        rule.derive t = [t'] ∧ ∀ other : Rule, other ≠ rule → other.derive t = [] := by
  refine ⟨t.successors_eq, fun hnone rule => ?_, fun t' hstep => ?_⟩
  · rw [Rule.derive_eq, hnone]
    exact ite_self _
  · obtain ⟨rule, hrule⟩ : ∃ rule, t.rule? = some rule := by
      cases hr : t.rule? with
      | none => rw [Term.step_of_rule?_eq_none hr] at hstep; cases hstep
      | some rule => exact ⟨rule, rfl⟩
    refine ⟨rule, Rule.mem_all rule, ?_, ?_, fun other hne => ?_⟩
    · rw [Term.derivations_eq hrule, hstep]; rfl
    · rw [Rule.derive_eq, if_pos hrule, hstep]; rfl
    · rw [Rule.derive_eq, if_neg]
      rw [hrule]
      exact fun h => hne (Option.some.inj h).symm

end BoolNat
