import BoolNat.Proofs.Reduction.Length
set_option autoImplicit false

/-! # The way to the normal form

`Term.sequence` lists the terms that stepping goes through, from the term itself to its normal form
`Term.normalForm`.  At position `i` stands what `i` steps lead to (`Term.getElem?_sequence`), and so
there is one term more than there are steps (`Term.length_sequence`).

A bounded reduction goes through the sequence as far as its bound allows (`Term.trace_multistep`).
It is cut short exactly if the bound is less than the number of steps (`Term.exceeded_multistep`),
and it ends where it is cut short or at the normal form (`Term.last_multistep`).  Normalizing fails
or succeeds with it (`Term.normalize_eq_error`, `Term.normalize_of_enough`).
-/

namespace BoolNat

/-- The last term of a reduction is the last of those it went through. -/
theorem Reduction.getLast?_trace (r : Reduction) : r.trace.getLast? = some r.last := by
  simp [trace]

theorem Reduction.last_mem_trace (r : Reduction) : r.last ∈ r.trace :=
  List.mem_of_getLast? r.getLast?_trace

namespace Term

/-- The terms from `t` to its normal form, each but the first one step after the one before. -/
def sequence (t : Term) : List Term :=
  match h : t.step with
  | none => [t]
  | some t' =>
    have := (Step.of_step h).size_lt
    t :: t'.sequence
termination_by t.size

/-- The term at which stepping ends. -/
def normalForm (t : Term) : Term := t.sequence.getLastD t

theorem sequence_of_normal {t : Term} (h : t.step = none) : t.sequence = [t] := by
  rw [sequence]
  split
  · rfl
  · next hs => rw [h] at hs; cases hs

theorem sequence_of_step {t t' : Term} (h : t.step = some t') :
    t.sequence = t :: t'.sequence := by
  rw [sequence]
  split
  · next hs => rw [h] at hs; cases hs
  · next hs => rw [h] at hs; cases hs; rfl

theorem sequence_eq_cons (t : Term) : t.sequence = t :: t.sequence.tail := by
  cases h : t.step with
  | none => rw [sequence_of_normal h]; rfl
  | some t' => rw [sequence_of_step h]; rfl

theorem mem_sequence (t : Term) : t ∈ t.sequence := by
  rw [sequence_eq_cons]
  exact List.mem_cons_self

theorem getLast?_sequence (t : Term) : t.sequence.getLast? = some t.normalForm := by
  rw [normalForm, sequence_eq_cons]
  simp [List.getLast?_cons]

theorem normalForm_of_normal {t : Term} (h : t.step = none) : t.normalForm = t := by
  rw [normalForm, sequence_of_normal h]
  rfl

theorem normalForm_of_step {t t' : Term} (h : t.step = some t') :
    t.normalForm = t'.normalForm := by
  have hlast := t.getLast?_sequence
  rw [sequence_of_step h, sequence_eq_cons, List.getLast?_cons_cons, ← sequence_eq_cons,
    getLast?_sequence] at hlast
  exact (Option.some.inj hlast).symm

/-- There is one term more than there are steps. -/
theorem length_sequence (t : Term) : t.sequence.length = t.stepCount + 1 := by
  induction t using stepInduction with
  | normal t h => rw [sequence_of_normal h, stepCount_of_normal h]; rfl
  | step t t' h ih => rw [sequence_of_step h, stepCount_of_step h, List.length_cons, ih]

/-- At position `i` stands what `i` steps lead to. -/
theorem getElem?_sequence {t u : Term} {i : Nat} : t.sequence[i]? = some u ↔ Run i t u := by
  induction t using stepInduction generalizing i with
  | normal t h =>
    rw [sequence_of_normal h]
    cases i with
    | zero => simp [run_zero_iff]
    | succ i => simp [run_succ_iff, h]
  | step t t' h ih =>
    rw [sequence_of_step h]
    cases i with
    | zero => simp [run_zero_iff]
    | succ i => simp [run_succ_iff, h, ih]

theorem run_normalForm (t : Term) : Run t.stepCount t t.normalForm := by
  rw [← getElem?_sequence, ← getLast?_sequence, List.getLast?_eq_getElem?, length_sequence]
  rfl

theorem step_normalForm (t : Term) : t.normalForm.step = none := by
  induction t using stepInduction with
  | normal t h => rw [normalForm_of_normal h, h]
  | step t t' h ih => rw [normalForm_of_step h, ih]

theorem reaches_normalForm (t : Term) : Reaches t t.normalForm := ⟨t.stepCount, t.run_normalForm⟩

/-! ## Bounded reduction along the sequence -/

theorem trace_reduceFrom (passed : List Term) (bound : Nat) (t : Term) :
    (reduceFrom passed bound t).trace = passed.reverse ++ t.sequence.take (bound + 1) := by
  induction bound generalizing passed t with
  | zero =>
    rw [sequence_eq_cons]
    simp [reduceFrom, Reduction.trace]
  | succ bound ih =>
    cases h : t.step with
    | none =>
      rw [reduceFrom_of_normal passed _ h, sequence_of_normal h]
      simp [Reduction.trace]
    | some t' =>
      rw [reduceFrom_succ passed bound h, ih, sequence_of_step h]
      simp

theorem exceeded_reduceFrom (passed : List Term) (bound : Nat) (t : Term) :
    (reduceFrom passed bound t).exceeded = decide (bound < t.stepCount) := by
  induction bound generalizing passed t with
  | zero =>
    cases h : t.step with
    | none => simp [reduceFrom_of_normal passed _ h, stepCount_of_normal h]
    | some t' => simp [reduceFrom_zero passed h, stepCount_of_step h]
  | succ bound ih =>
    cases h : t.step with
    | none => simp [reduceFrom_of_normal passed _ h, stepCount_of_normal h]
    | some t' => simp [reduceFrom_succ passed bound h, ih, stepCount_of_step h]

/-- A bounded reduction goes through as many terms as the bound allows. -/
theorem trace_multistep (t : Term) (maxSteps : Int) :
    (t.multistep maxSteps).trace = t.sequence.take (maxSteps.toNat + 1) := by
  rw [multistep, trace_reduceFrom]
  rfl

/-- Those are the terms that are no further away than that. -/
theorem mem_trace_multistep {t u : Term} {maxSteps : Int} :
    u ∈ (t.multistep maxSteps).trace ↔ ∃ n ≤ maxSteps.toNat, Run n t u := by
  rw [trace_multistep, List.mem_iff_getElem?]
  constructor
  · rintro ⟨n, hn⟩
    rw [List.getElem?_take] at hn
    split at hn
    · next hlt => exact ⟨n, Nat.le_of_lt_succ hlt, getElem?_sequence.mp hn⟩
    · cases hn
  · rintro ⟨n, hle, hr⟩
    rw [← getElem?_sequence] at hr
    exact ⟨n, by rwa [List.getElem?_take, if_pos (Nat.lt_succ_of_le hle)]⟩

/-- It is cut short exactly if the bound is less than the number of steps. -/
theorem exceeded_multistep (t : Term) (maxSteps : Int) :
    (t.multistep maxSteps).exceeded = t.overruns maxSteps := by
  rw [multistep, exceeded_reduceFrom, overruns, decide_eq_decide]
  omega

/-- It ends where it is cut short, or else at the normal form. -/
theorem last_multistep (t : Term) (maxSteps : Int) :
    (t.multistep maxSteps).last = t.sequence[maxSteps.toNat]?.getD t.normalForm := by
  have hlast := (t.multistep maxSteps).getLast?_trace
  rw [trace_multistep, List.getLast?_take, if_neg (Nat.succ_ne_zero _), getLast?_sequence,
    Nat.add_sub_cancel] at hlast
  generalize t.sequence[maxSteps.toNat]? = reached at hlast ⊢
  cases reached with
  | none | some => exact (Option.some.inj hlast).symm

theorem stepLimit?_eq_none_iff {t : Term} {maxSteps : Int} :
    t.stepLimit? maxSteps = none ↔ t.overruns maxSteps = false := by
  rw [stepLimit?, exceeded_multistep]
  cases t.overruns maxSteps <;> simp

/-- Within a bound that is enough, the whole sequence is gone through. -/
theorem multistep_of_enough {t : Term} {maxSteps : Int} (h : t.overruns maxSteps = false) :
    (t.multistep maxSteps).trace = t.sequence ∧ (t.multistep maxSteps).last = t.normalForm := by
  have hlength : t.sequence.length ≤ maxSteps.toNat + 1 := by
    rw [length_sequence]
    exact Nat.succ_le_succ (overruns_eq_false_iff_le.mp h)
  have htrace : (t.multistep maxSteps).trace = t.sequence := by
    rw [trace_multistep, List.take_of_length_le hlength]
  have hlast := (t.multistep maxSteps).getLast?_trace
  rw [htrace, getLast?_sequence] at hlast
  exact ⟨htrace, (Option.some.inj hlast).symm⟩

/-- Within any other, it is cut short after as many steps as are allowed. -/
theorem multistep_of_overruns {t : Term} {maxSteps : Int} (h : t.overruns maxSteps = true) :
    t.sequence[maxSteps.toNat]? = some (t.multistep maxSteps).last ∧
      t.stepLimit? maxSteps = some ⟨t, (t.multistep maxSteps).last, maxSteps⟩ := by
  constructor
  · have hlength : maxSteps.toNat < t.sequence.length := by
      rw [length_sequence]
      exact Nat.lt_succ_of_lt (overruns_iff.mp h)
    rw [last_multistep, List.getElem?_eq_getElem hlength]
    rfl
  · rw [stepLimit?, exceeded_multistep, h]
    rfl

/-! ## Normalizing -/

theorem normalize_of_enough {t : Term} {maxSteps : Int} (h : t.overruns maxSteps = false) :
    t.normalize maxSteps = .ok t.normalForm := by
  rw [normalize_eq, stepLimit?_eq_none_iff.mpr h, (multistep_of_enough h).2, Option.elim_none]

theorem normalize_eq_error {t : Term} {maxSteps : Int} (h : t.overruns maxSteps = true) :
    t.normalize maxSteps = .error ⟨t, (t.multistep maxSteps).last, maxSteps⟩ := by
  rw [normalize_eq, (multistep_of_overruns h).2, Option.elim_some]

/-- A bound of no fewer steps than are needed is enough. -/
theorem normalize_of_overruns_eq_false {t : Term} {maxSteps : Int}
    (h : t.overruns maxSteps = false) :
    ∃ u, t.normalize maxSteps = .ok u ∧ Reaches t u ∧ u.step = none :=
  ⟨t.normalForm, normalize_of_enough h, t.reaches_normalForm, t.step_normalForm⟩

/-- A bound of fewer steps than are needed is not enough. -/
theorem normalize_of_overruns {t : Term} {maxSteps : Int} (h : t.overruns maxSteps = true) :
    ∃ limit, t.normalize maxSteps = .error limit :=
  ⟨_, normalize_eq_error h⟩

/-- Under a bound that allows the term its steps, normalizing leads to the normal form. -/
theorem normalize_eq_ok_iff {t u : Term} {maxSteps : Int}
    (h : (t.stepCount : Int) ≤ maxSteps) :
    t.normalize maxSteps = .ok u ↔ Reaches t u ∧ u.step = none := by
  rw [normalize_of_enough (overruns_of_stepCount_le h), Except.ok.injEq]
  constructor
  · rintro rfl
    exact ⟨t.reaches_normalForm, t.step_normalForm⟩
  · rintro ⟨hr, hu⟩
    exact t.reaches_normalForm.normal_unique t.step_normalForm hr hu

/-- A bound of one step less than the term has nodes is enough to normalize it. -/
theorem exists_normalize_eq_ok {t : Term} {maxSteps : Int}
    (hm : (t.size : Int) - 1 ≤ maxSteps) :
    ∃ u, t.normalize maxSteps = .ok u ∧ Reaches t u ∧ u.step = none := by
  have hlt := t.stepCount_lt_size
  exact normalize_of_overruns_eq_false (overruns_of_stepCount_le (by omega))

/-- What is reported when the bound is used up is where the reduction was by then. -/
theorem last_of_normalize_eq_error {t : Term} {maxSteps : Int} {limit : StepLimit}
    (h : t.normalize maxSteps = .error limit) :
    limit = ⟨t, (t.multistep maxSteps).last, maxSteps⟩ := by
  cases ho : t.overruns maxSteps with
  | false => rw [normalize_of_enough ho] at h; cases h
  | true => rw [normalize_eq_error ho] at h; cases h; rfl

end Term

end BoolNat
