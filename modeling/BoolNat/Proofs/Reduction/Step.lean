import BoolNat.Reduction.Context
set_option autoImplicit false

/-! # The rules of a step

`Step` states the ten rules of evaluation as a relation between a term and the term
after one step, and `Term.step` decides it (`step_eq_some_iff`).  What a step keeps is
then shown by induction on the rule that was used, without a look at the order in which
the function tries its cases.

Both ways in which a part can end carry over to the whole: a step inside an evaluation
context is a step of the whole term (`Step.plug`), and a term that is stuck there leaves
the whole term stuck (`Term.isStuck_plug`).
-/

namespace BoolNat

/-- One step of evaluation, by the rule that allows it. -/
inductive Step : Term → Term → Prop
  | ifTrue (t e : Term) : Step (.ite .tru t e) t
  | ifFalse (t e : Term) : Step (.ite .fls t e) e
  | ifCondition {c c' : Term} (t e : Term) (condition : Step c c') :
    Step (.ite c t e) (.ite c' t e)
  | succOperand {t t' : Term} (operand : Step t t') : Step (.succ t) (.succ t')
  | predZero : Step (.pred .zero) .zero
  | predSucc {n : Term} (numeric : n.isNumeric = true) : Step (.pred (.succ n)) n
  | predOperand {t t' : Term} (operand : Step t t') : Step (.pred t) (.pred t')
  | isZeroZero : Step (.isZero .zero) .tru
  | isZeroSucc {n : Term} (numeric : n.isNumeric = true) : Step (.isZero (.succ n)) .fls
  | isZeroOperand {t t' : Term} (operand : Step t t') : Step (.isZero t) (.isZero t')

namespace Step

/-- Every step the function takes is allowed by a rule. -/
theorem of_step {t t' : Term} (h : t.step = some t') : Step t t' := by
  induction t generalizing t' with
  | tru | fls | zero | foreign => cases h
  | ite c t e ih =>
    cases hc : c.isBoolean with
    | true =>
      cases c with
      | tru => cases h; exact .ifTrue _ e
      | fls => cases h; exact .ifFalse t _
      | _ => cases hc
    | false =>
      rw [Term.step_ite t e hc] at h
      obtain ⟨c', hc', rfl⟩ := Option.map_eq_some_iff.mp h
      exact .ifCondition t e (ih hc')
  | succ t ih =>
    rw [Term.step_succ] at h
    obtain ⟨u, hu, rfl⟩ := Option.map_eq_some_iff.mp h
    exact .succOperand (ih hu)
  | pred t ih =>
    cases ht : t.isNumeric with
    | true =>
      cases t with
      | zero => cases h; exact .predZero
      | succ n =>
        rw [Term.step_pred_succ (n := n) ht] at h
        cases h
        exact .predSucc ht
      | _ => cases ht
    | false =>
      rw [Term.step_pred ht] at h
      obtain ⟨u, hu, rfl⟩ := Option.map_eq_some_iff.mp h
      exact .predOperand (ih hu)
  | isZero t ih =>
    cases ht : t.isNumeric with
    | true =>
      cases t with
      | zero => cases h; exact .isZeroZero
      | succ n =>
        rw [Term.step_isZero_succ (n := n) ht] at h
        cases h
        exact .isZeroSucc ht
      | _ => cases ht
    | false =>
      rw [Term.step_isZero ht] at h
      obtain ⟨u, hu, rfl⟩ := Option.map_eq_some_iff.mp h
      exact .isZeroOperand (ih hu)

/-- The function takes every step that a rule allows.  The cases it tries before the one
of the rule do not apply, since what steps is no value. -/
theorem step_eq {t t' : Term} (h : Step t t') : t.step = some t' := by
  induction h with
  | ifTrue | ifFalse | predZero | isZeroZero => rfl
  | predSucc numeric => exact Term.step_pred_succ numeric
  | isZeroSucc numeric => exact Term.step_isZero_succ numeric
  | ifCondition t e _ ih =>
    have hc := Term.isValue_eq_false_iff.mp (Term.isValue_of_step ih)
    rw [Term.step_ite t e hc.1, ih]; rfl
  | succOperand _ ih => rw [Term.step_succ, ih]; rfl
  | predOperand _ ih =>
    have ht := Term.isValue_eq_false_iff.mp (Term.isValue_of_step ih)
    rw [Term.step_pred ht.2, ih]; rfl
  | isZeroOperand _ ih =>
    have ht := Term.isValue_eq_false_iff.mp (Term.isValue_of_step ih)
    rw [Term.step_isZero ht.2, ih]; rfl

end Step

/-- The function decides the relation. -/
theorem step_eq_some_iff {t t' : Term} : t.step = some t' ↔ Step t t' :=
  ⟨Step.of_step, Step.step_eq⟩

/-- A step inside an evaluation context is a step of the whole. -/
theorem Step.plug {t t' : Term} (E : Context) (h : Step t t') : Step (E.plug t) (E.plug t') := by
  induction E with
  | hole => exact h
  | condition inner t e ih => exact .ifCondition t e ih
  | operand op inner ih =>
    cases op with
    | succ => exact .succOperand ih
    | pred => exact .predOperand ih
    | isZero => exact .isZeroOperand ih

namespace Term

/-- A fault is stuck. -/
theorem isStuck_of_isFault {w : Term} (h : w.isFault = true) : w.isStuck = true := by
  refine isStuck_iff.mpr ⟨step_of_isFault h, ?_⟩
  cases w with
  | tru | fls | zero => cases h
  | succ t => cases t <;> first | rfl | cases h
  | pred | isZero | ite | foreign => rfl

/-- A stuck term in an evaluation context leaves the whole stuck. -/
theorem isStuck_plug {w : Term} (E : Context) (h : w.isStuck = true) :
    (E.plug w).isStuck = true := by
  induction E with
  | hole => exact h
  | condition inner t e ih =>
    obtain ⟨hs, hv⟩ := isStuck_iff.mp ih
    refine isStuck_iff.mpr ⟨?_, rfl⟩
    rw [Context.plug, step_ite t e (isValue_eq_false_iff.mp hv).1, hs]; rfl
  | operand op inner ih =>
    obtain ⟨hs, hv⟩ := isStuck_iff.mp ih
    have hn := (isValue_eq_false_iff.mp hv).2
    refine isStuck_iff.mpr ⟨?_, ?_⟩
    · rw [Context.plug, step_apply op hn, hs]; rfl
    · cases op with
      | succ => exact hn
      | pred | isZero => rfl

end Term

end BoolNat
