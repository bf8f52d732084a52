import BoolNat.Proofs.Reduction.Decomposition
import BoolNat.Proofs.Reduction.Sequence
set_option autoImplicit false

/-! # How evaluations are put together

The condition of a conditional and the operand of an operator are evaluated first, to their normal
form and with the rest of the term around them (`Term.sequence_plug`).  Only then can the rule of
the node itself apply, if one does: over a normal form, a node steps exactly if it can be contracted
(`Term.step_apply_of_normal`, `Term.step_ite_of_normal`).

What an operator is contracted to is a value, and there the evaluation ends; a conditional is
contracted to a branch, and goes on as the branch does.
-/

namespace BoolNat.Term

/-- A term in an evaluation context is evaluated first, and then what is left in its place. -/
theorem sequence_plug (E : Context) (t : Term) :
    (E.plug t).sequence = t.sequence.map E.plug ++ (E.plug t.normalForm).sequence.tail := by
  induction t using stepInduction with
  | normal t h =>
    rw [sequence_of_normal h, normalForm_of_normal h]
    exact sequence_eq_cons _
  | step t t' h ih =>
    have hplug : (E.plug t).step = some (E.plug t') := ((Step.of_step h).plug E).step_eq
    rw [sequence_of_step hplug, ih, sequence_of_step h, normalForm_of_step h]
    rfl

/-! ## Over a normal form -/

/-- An operator is contracted to a value. -/
theorem isValue_of_contract_apply {op : Operator} {t r : Term}
    (h : (op.apply t).contract? = some r) : r.isValue = true := by
  have hn := isNumeric_of_contract_apply h
  cases op with
  | succ => cases h
  | pred =>
    cases t with
    | zero => cases h; rfl
    | succ n =>
      have hn' : n.isNumeric = true := hn
      have hr : some n = some r := (if_pos hn').symm.trans h
      cases hr
      exact isValue_of_isNumeric hn'
    | _ => cases hn
  | isZero =>
    cases t with
    | zero => cases h; rfl
    | succ n =>
      have hr : some fls = some r := (if_pos hn).symm.trans h
      cases hr
      rfl
    | _ => cases hn

/-- Over a normal form an operator steps only if it can be contracted. -/
theorem step_apply_of_normal (op : Operator) {u : Term} (hu : u.step = none) :
    (op.apply u).step = (op.apply u).contract? := by
  cases hr : (op.apply u).contract? with
  | some r => exact step_of_contract hr
  | none =>
    cases hn : u.isNumeric with
    | false => rw [step_apply op hn, hu]; rfl
    | true =>
      have hredex : (op.apply u).isRedex = false := by rw [isRedex, hr]; rfl
      by_cases hop : op = .succ
      · subst hop
        exact step_of_isNumeric (t := succ u) hn
      · rw [isRedex_apply hop, hn] at hredex
        cases hredex

/-- Over a normal form a conditional steps only if it picks a branch. -/
theorem step_ite_of_normal {u : Term} (t e : Term) (hu : u.step = none) :
    (ite u t e).step = (ite u t e).contract? := by
  cases hr : (ite u t e).contract? with
  | some r => exact step_of_contract hr
  | none =>
    have hb : u.isBoolean = false := by rw [← isRedex_ite u t e, isRedex, hr]; rfl
    rw [step_ite t e hb, hu]
    rfl

/-! ## The rows -/

/-- An operator is contracted, if it can be, once its operand has been evaluated. -/
theorem sequence_apply (op : Operator) (t : Term) :
    (op.apply t).sequence =
      t.sequence.map op.apply ++ (op.apply t.normalForm).contract?.toList := by
  have hplug := sequence_plug (.operand op .hole) t
  have hstep := step_apply_of_normal op t.step_normalForm
  refine hplug.trans (congrArg _ ?_)
  rw [Context.plug, Context.plug]
  cases hr : (op.apply t.normalForm).contract? with
  | none => rw [sequence_of_normal (hstep.trans hr)]; rfl
  | some r =>
    have hnormal := step_of_isValue (isValue_of_contract_apply hr)
    rw [sequence_of_step (hstep.trans hr), sequence_of_normal hnormal]
    rfl

/-- A conditional goes on as the branch does that its condition picks, if it picks one. -/
theorem sequence_ite (c t e : Term) :
    (ite c t e).sequence =
      c.sequence.map (ite · t e) ++ (ite c.normalForm t e).contract?.elim [] sequence := by
  have hplug := sequence_plug (.condition .hole t e) c
  have hstep := step_ite_of_normal t e c.step_normalForm
  refine hplug.trans (congrArg _ ?_)
  rw [Context.plug, Context.plug]
  cases hr : (ite c.normalForm t e).contract? with
  | none => rw [sequence_of_normal (hstep.trans hr)]; rfl
  | some r => rw [sequence_of_step (hstep.trans hr)]; rfl

/-- What a reduction within a sufficient bound goes through is put together from what its parts go
through: the operand or the condition comes first, inside the rest of the term, and what is done
last depends on the normal form that is found there. -/
theorem sequence_composes (c a b t : Term) :
    (∀ maxSteps : Int, (t.stepLimit? maxSteps = none ↔ t.stepCount ≤ maxSteps.toNat) ∧
        (t.stepLimit? maxSteps = none →
          (t.multistep maxSteps).trace = t.sequence ∧
            (t.multistep maxSteps).last = t.normalForm)) ∧
      (succ t).sequence = t.sequence.map succ ∧
      (pred t).sequence = t.sequence.map pred ++
        (match t.normalForm with
          | .zero => [.zero]
          | .succ v => if v.isNumeric then [v] else []
          | _ => []) ∧
      (isZero t).sequence = t.sequence.map isZero ++
        (match t.normalForm with
          | .zero => [.tru]
          | .succ v => if v.isNumeric then [.fls] else []
          | _ => []) ∧
      (ite c a b).sequence = c.sequence.map (ite · a b) ++
        (match c.normalForm with
          | .tru => a.sequence
          | .fls => b.sequence
          | _ => []) := by
  refine ⟨?_, ?_, ?_, ?_, ?_⟩
  · intro maxSteps
    rw [stepLimit?_eq_none_iff]
    exact ⟨overruns_eq_false_iff_le, multistep_of_enough⟩
  · exact (sequence_apply .succ t).trans (List.append_nil _)
  · refine (sequence_apply .pred t).trans (congrArg _ ?_)
    cases t.normalForm with
    | succ v => cases hv : v.isNumeric <;> simp [Operator.apply, contract?, hv]
    | _ => rfl
  · refine (sequence_apply .isZero t).trans (congrArg _ ?_)
    cases t.normalForm with
    | succ v => cases hv : v.isNumeric <;> simp [Operator.apply, contract?, hv]
    | _ => rfl
  · refine (sequence_ite c a b).trans (congrArg _ ?_)
    cases c.normalForm <;> rfl

/-- The predecessor waits for the successor below it to become a numeral, which takes one step. -/
theorem sequence_composes_pred_succ :
    (succ (pred zero)).stepLimit? 1 = none ∧
      (pred (succ (pred zero))).sequence =
        [pred (succ (pred zero)), pred (succ zero), zero] := by
  have hnone : (succ (pred zero)).stepLimit? 1 = none := by decide
  obtain ⟨hbound, _, hpred, _, _⟩ := sequence_composes zero zero zero (succ (pred zero))
  obtain ⟨htrace, hlast⟩ := (hbound 1).2 hnone
  refine ⟨hnone, ?_⟩
  rw [hpred, ← htrace, ← hlast]
  rfl

end BoolNat.Term
