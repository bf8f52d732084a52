import BoolNat.Term.Value
set_option autoImplicit false

/-! # One step of evaluation

`Term.step` contracts the one redex of a term, if it has one.  A conditional
steps in its condition and then picks a branch; an operator steps in its operand
until that is a numeral.  A successor is never contracted, so a numeral does not
step, and neither does a predecessor or a test for zero over something that is a
value but no number: such a term is stuck.

A term is as deep as the numbers in it, so a run of successors is peeled off in a
loop that counts them, and as many are put back around what the step leads to.
What that comes to, one successor after the other, is `step_succ`; the other rows
of the function are `step_ite`, `step_pred` and `step_isZero`.
-/

namespace BoolNat.Term

/-- A number of successors around a term. -/
def succs (n : Nat) (t : Term) : Term := n.repeat .succ t

/-- The term after one step inside `outer` successors, which were peeled off around it. -/
def stepUnder : Term → Nat → Option Term
  | .tru, _ | .fls, _ | .zero, _ | .foreign _, _ => none
  | .succ t, outer => t.stepUnder (outer + 1)
  | .ite .tru t _, outer => some (succs outer t)
  | .ite .fls _ e, outer => some (succs outer e)
  | .ite c t e, outer => (c.stepUnder 0).map fun c' => succs outer (.ite c' t e)
  | .pred .zero, outer => some (succs outer .zero)
  | .pred (.succ n), outer =>
    if n.isNumeric then some (succs outer n)
    else ((Term.succ n).stepUnder 0).map fun t' => succs outer (.pred t')
  | .pred t, outer => (t.stepUnder 0).map fun t' => succs outer (.pred t')
  | .isZero .zero, outer => some (succs outer .tru)
  | .isZero (.succ n), outer =>
    if n.isNumeric then some (succs outer .fls)
    else ((Term.succ n).stepUnder 0).map fun t' => succs outer (.isZero t')
  | .isZero t, outer => (t.stepUnder 0).map fun t' => succs outer (.isZero t')

/-- The term after one step; `none` for a normal form. -/
def step (t : Term) : Option Term := t.stepUnder 0

@[simp] theorem succs_zero (t : Term) : succs 0 t = t := rfl

theorem succs_succ (n : Nat) (t : Term) : succs n (.succ t) = succs (n + 1) t := by
  induction n with
  | zero => rfl
  | succ n ih => exact congrArg Term.succ ih

/-- A step inside a run of successors is a step of the term with the run around it. -/
theorem stepUnder_eq (t : Term) (outer : Nat) :
    t.stepUnder outer = t.step.map (succs outer) := by
  induction t generalizing outer with
  | tru | fls | zero | foreign => rfl
  | succ t ih =>
    rw [step, stepUnder, stepUnder, ih, ih (0 + 1), Option.map_map]
    congr 1
    funext u
    exact (succs_succ outer u).symm
  | ite c t e =>
    cases c with
    | tru | fls => rfl
    | _ => simp only [step, stepUnder, Option.map_map]; rfl
  | pred t | isZero t =>
    cases t with
    | zero => rfl
    | succ n =>
      cases hn : n.isNumeric with
      | true => simp only [step, stepUnder, hn]; rfl
      | false => simp [step, stepUnder, hn, Function.comp_def]
    | _ => simp only [step, stepUnder, Option.map_map]; rfl

/-- A successor steps in its operand. -/
theorem step_succ (t : Term) : (succ t).step = t.step.map succ := stepUnder_eq t 1

theorem step_pred_succ {n : Term} (h : n.isNumeric = true) : (pred (succ n)).step = some n :=
  if_pos h

theorem step_isZero_succ {n : Term} (h : n.isNumeric = true) :
    (isZero (succ n)).step = some .fls :=
  if_pos h

def isNormalForm (t : Term) : Bool := t.step.isNone

/-- A normal form that is not a value. -/
def isStuck (t : Term) : Bool := t.step.isNone && !t.isValue

/-- A numeral does not step. -/
theorem step_of_isNumeric {t : Term} (h : t.isNumeric = true) : t.step = none := by
  induction t with
  | succ t ih => rw [step_succ, ih h]; rfl
  | zero => rfl
  | _ => simp [isNumeric] at h

/-- A value does not step. -/
theorem step_of_isValue {t : Term} (h : t.isValue = true) : t.step = none := by
  rcases (Bool.or_eq_true _ _).mp h with h | h
  · cases t with
    | tru | fls => rfl
    | _ => cases h
  · exact step_of_isNumeric h

/-- A term that steps is no value. -/
theorem isValue_of_step {t t' : Term} (h : t.step = some t') : t.isValue = false := by
  cases hv : t.isValue with
  | false => rfl
  | true => rw [step_of_isValue hv] at h; cases h

/-- A term that is no value is no truth value and no numeral. -/
theorem isValue_eq_false_iff {t : Term} :
    t.isValue = false ↔ t.isBoolean = false ∧ t.isNumeric = false := by
  simp [isValue]

theorem isStuck_iff {t : Term} : t.isStuck = true ↔ t.step = none ∧ t.isValue = false := by
  simp [isStuck]

/-- A conditional steps in its condition until that is a truth value. -/
theorem step_ite {c : Term} (t e : Term) (h : c.isBoolean = false) :
    (ite c t e).step = c.step.map (.ite · t e) := by
  cases c with
  | tru | fls => cases h
  | _ => rfl

/-- An operator steps in its operand until that is a numeral. -/
theorem step_apply (op : Operator) {t : Term} (h : t.isNumeric = false) :
    (op.apply t).step = t.step.map op.apply := by
  cases op with
  | succ => exact step_succ t
  | pred | isZero =>
    cases t with
    | zero => cases h
    | succ n => exact if_neg (by simpa [isNumeric] using h)
    | _ => rfl

theorem step_pred {t : Term} (h : t.isNumeric = false) : (pred t).step = t.step.map pred :=
  step_apply .pred h

theorem step_isZero {t : Term} (h : t.isNumeric = false) : (isZero t).step = t.step.map isZero :=
  step_apply .isZero h

end BoolNat.Term
