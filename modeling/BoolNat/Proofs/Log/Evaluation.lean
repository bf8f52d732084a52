import BoolNat.Proofs.Log.StepTraces
import BoolNat.Proofs.Reduction.Drivers
set_option autoImplicit false

/-! # What an evaluation tells

An evaluator tells a term as soon as it is reached, numbered by the terms told before it, and only
then looks whether a further step is possible and allowed (`Evaluator.tellFrom`).  What it has told
in the end is its reduction with the numbers of the terms (`Evaluator.events_run_eq_tellFrom`), and
that is the way to the normal form as far as the bound allows, with one more record behind it if
its end is reached and is no value (`Evaluator.tellFrom_eq`).
-/

namespace BoolNat

/-- The records of a reduction: its terms with their numbers, and the last one again if the
reduction has ended there and it is stuck. -/
def Reduction.told (r : Reduction) : List Event :=
  r.trace.mapIdx .step ++
    if r.exceeded || r.last.isValue then [] else [.stuck r.last r.steps]

namespace Evaluator

/-- What is told from the moment on when `t` is reached after `n` other terms, with `bound` further
steps allowed.  If one more is needed, the reduction fails there and nothing more is told. -/
def tellFrom (n bound : Nat) (t : Term) : List Event :=
  .step n t ::
    match t.step, bound with
    | none, _ => if t.isValue then [] else [.stuck t n]
    | some _, 0 => []
    | some t', bound + 1 => tellFrom (n + 1) bound t'

theorem tellFrom_of_normal {t : Term} (n bound : Nat) (h : t.step = none) :
    tellFrom n bound t = .step n t :: if t.isValue then [] else [.stuck t n] := by
  rw [tellFrom.eq_def, h]

theorem tellFrom_zero {t t' : Term} (n : Nat) (h : t.step = some t') :
    tellFrom n 0 t = [.step n t] := by
  rw [tellFrom.eq_def, h]

theorem tellFrom_succ {t t' : Term} (n bound : Nat) (h : t.step = some t') :
    tellFrom n (bound + 1) t = .step n t :: tellFrom (n + 1) bound t' := by
  rw [tellFrom.eq_def, h]

/-! ## Telling while reducing -/

theorem told_reduceFrom_of_normal {t : Term} (passed : List Term) (bound : Nat)
    (h : t.step = none) :
    (t.reduceFrom passed bound).told =
      passed.reverse.mapIdx .step ++ tellFrom passed.length bound t := by
  rw [Term.reduceFrom_of_normal passed bound h, tellFrom_of_normal _ bound h]
  simp [Reduction.told, Reduction.trace, Reduction.steps, List.mapIdx_append]

/-- The records of the terms passed before stand in front of what is told from now on. -/
theorem told_reduceFrom (passed : List Term) (bound : Nat) (t : Term) :
    (t.reduceFrom passed bound).told =
      passed.reverse.mapIdx .step ++ tellFrom passed.length bound t := by
  -- The terms passed are general: every step adds one to them and takes one off the bound.
  induction bound generalizing passed t with
  | zero =>
    cases h : t.step with
    | none => exact told_reduceFrom_of_normal passed 0 h
    | some t' =>
      rw [Term.reduceFrom_zero passed h, tellFrom_zero _ h]
      simp [Reduction.told, Reduction.trace, List.mapIdx_append]
  | succ bound ih =>
    cases h : t.step with
    | none => exact told_reduceFrom_of_normal passed (bound + 1) h
    | some t' =>
      rw [Term.reduceFrom_succ passed bound h, tellFrom_succ _ bound h, ih]
      simp [List.mapIdx_append]

theorem events_run_eq_tellFrom (e : Evaluator) (t : Term) :
    (e.run t).2 = tellFrom 0 e.maxSteps t := by
  have htold := told_reduceFrom [] e.maxSteps t
  rw [events_run]
  exact htold

/-! ## Telling along the sequence -/

theorem tellFrom_eq_of_normal {t : Term} (n bound : Nat) (h : t.step = none) :
    tellFrom n bound t =
      (t.sequence.take (bound + 1)).mapIdx (fun i => Event.step (n + i)) ++
        if t.stepCount ≤ bound ∧ t.normalForm.isValue = false then
          [.stuck t.normalForm (n + t.stepCount)] else [] := by
  rw [tellFrom_of_normal n bound h, Term.sequence_of_normal h, Term.normalForm_of_normal h,
    Term.stepCount_of_normal h]
  cases t.isValue <;> simp

/-- From a term on, its sequence is told as far as the bound allows, and the end of it once more
if that is reached and is no value. -/
theorem tellFrom_eq (n bound : Nat) (t : Term) :
    tellFrom n bound t =
      (t.sequence.take (bound + 1)).mapIdx (fun i => Event.step (n + i)) ++
        if t.stepCount ≤ bound ∧ t.normalForm.isValue = false then
          [.stuck t.normalForm (n + t.stepCount)] else [] := by
  induction bound generalizing n t with
  | zero =>
    cases h : t.step with
    | none => exact tellFrom_eq_of_normal n 0 h
    | some t' =>
      rw [tellFrom_zero n h, Term.sequence_of_step h, Term.stepCount_of_step h]
      simp
  | succ bound ih =>
    cases h : t.step with
    | none => exact tellFrom_eq_of_normal n (bound + 1) h
    | some t' =>
      rw [tellFrom_succ n bound h, ih, Term.sequence_of_step h, Term.normalForm_of_step h,
        Term.stepCount_of_step h]
      simp [Nat.add_assoc, Nat.add_comm 1]

theorem take_sequence_min (t : Term) (bound : Nat) :
    t.sequence.take (min t.stepCount bound + 1) = t.sequence.take (bound + 1) := by
  rw [List.take_eq_take_iff, Term.length_sequence]
  omega

/-- An evaluation fails exactly if its bound is less than the number of steps. -/
theorem exists_error_run_iff (e : Evaluator) (t : Term) :
    (∃ limit, (e.run t).1 = .error limit) ↔ e.maxSteps < t.stepCount := by
  have hoverruns : t.overruns e.maxSteps = true ↔ e.maxSteps < t.stepCount := by
    rw [Term.overruns_iff, Int.toNat_natCast]
  rw [fst_run, ← hoverruns]
  cases h : t.overruns e.maxSteps with
  | false => simp [Term.stepLimit?_eq_none_iff.mpr h]
  | true => simp [(Term.multistep_of_overruns h).2]

/-- An evaluation tells the way to the normal form, one record for every term on it in its order
and with its number, as far as the bound allows.  If that is to the end, and the end is no value,
one more record tells the end and how many steps it took.  If not, the evaluation fails and tells
nothing more. -/
theorem run_tells_sequence (t : Term) (m : Nat) :
    (Run t.stepCount t t.normalForm ∧ t.normalForm.step = none ∧
        ∀ (i : Nat) (u : Term), t.sequence[i]? = some u ↔ Run i t u) ∧
      ∃ e, Evaluator.ofInt m = .ok e ∧
        (e.run t).2 =
          (t.sequence.take (min t.stepCount m + 1)).mapIdx .step ++
            (if t.stepCount ≤ m ∧ t.normalForm.isValue = false then
              [.stuck t.normalForm t.stepCount] else []) ∧
        ((∃ limit, (e.run t).1 = .error limit) ↔ m < t.stepCount) ∧
        ∀ (u : Term) (n : Nat), .stuck u n ∈ (e.run t).2 ↔
          (t.stepCount ≤ m ∧ t.normalForm.isValue = false) ∧ u = t.normalForm ∧
            n = t.stepCount := by
  have htold : ((Evaluator.mk m).run t).2 =
      (t.sequence.take (min t.stepCount m + 1)).mapIdx .step ++
        if t.stepCount ≤ m ∧ t.normalForm.isValue = false then
          [.stuck t.normalForm t.stepCount] else [] := by
    rw [events_run_eq_tellFrom, tellFrom_eq, take_sequence_min]
    simp only [Nat.zero_add]
  refine ⟨⟨t.run_normalForm, t.step_normalForm, fun i u => Term.getElem?_sequence⟩,
    ⟨m⟩, ofInt_eq_ok_iff.mpr rfl, htold, exists_error_run_iff ⟨m⟩ t, fun u n => ?_⟩
  have hnotStep : Event.stuck u n ∉
      (t.sequence.take (min t.stepCount m + 1)).mapIdx .step := by
    intro hmem
    obtain ⟨i, _, hi⟩ := List.mem_mapIdx.mp hmem
    cases hi
  rw [htold, List.mem_append, or_iff_right hnotStep]
  split
  · next hstuck => simp [hstuck]
  · next hno => simp [hno]

/-- A bound of just the number of steps is enough to tell that the end is stuck, and with one less
nothing is told of that. -/
example :
    ((Evaluator.mk 1).run (.pred (.ite .fls .zero .tru))).2 =
        [.step 0 (.pred (.ite .fls .zero .tru)), .step 1 (.pred .tru), .stuck (.pred .tru) 1] ∧
      ((Evaluator.mk 0).run (.pred (.ite .fls .zero .tru))).2 =
        [.step 0 (.pred (.ite .fls .zero .tru))] := by
  decide

end Evaluator

end BoolNat
