import BoolNat.Proofs.Reduction.Sequence
import BoolNat.Reduction.Evaluator
set_option autoImplicit false

/-! # What the drivers make of a bound

Normalizing and the evaluator consume one bounded reduction: they fail with its error if it has one,
and otherwise they keep its last term or all of it (`Term.normalize_eq`, `Evaluator.fst_run`).  What
they return is settled, then, by where the bound cuts the way to the normal form.  A bound of no
less than the number of steps cuts nothing off (`Term.finishes_of_enough`), every other one cuts
the reduction short after as many steps as it allows (`Term.cutShort_of_overruns`).

What is not cut short is the same reduction under every larger bound (`Term.multistep_eq_of_le`),
and so are the results that are made of it.
-/

namespace BoolNat

theorem Reduction.length_trace (r : Reduction) : r.trace.length = r.steps + 1 := by
  simp [trace, steps]

/-- A reduction is determined by the terms it went through and by how it ended. -/
theorem Reduction.eq_of_trace_eq {r r' : Reduction} (htrace : r.trace = r'.trace)
    (hexceeded : r.exceeded = r'.exceeded) : r = r' := by
  obtain ⟨passed, last, exceeded⟩ := r
  obtain ⟨passed', last', exceeded'⟩ := r'
  obtain ⟨rfl, rfl⟩ := List.cons.inj (List.reverse_inj.mp htrace)
  cases hexceeded
  rfl

/-! ## The consumers of a reduction -/

namespace Evaluator

theorem ofInt_eq_ok_iff {maxSteps : Int} {e : Evaluator} :
    ofInt maxSteps = .ok e ↔ (e.maxSteps : Int) = maxSteps := by
  obtain ⟨bound⟩ := e
  show ofInt maxSteps = .ok ⟨bound⟩ ↔ (bound : Int) = maxSteps
  rw [ofInt]
  split
  · next hneg =>
    constructor
    · intro h; cases h
    · intro h; omega
  · next hpos =>
    rw [Except.ok.injEq, mk.injEq]
    omega

/-- There is an evaluator for every bound but a negative one. -/
theorem exists_ofInt {maxSteps : Int} (h : 0 ≤ maxSteps) :
    ∃ e, ofInt maxSteps = .ok e ∧ (e.maxSteps : Int) = maxSteps := by
  have hbound : ((maxSteps.toNat : Nat) : Int) = maxSteps := Int.toNat_of_nonneg h
  exact ⟨⟨maxSteps.toNat⟩, ofInt_eq_ok_iff.mpr hbound, hbound⟩

/-- The evaluator fails as the reduction does, or keeps all of it. -/
theorem fst_run (e : Evaluator) (t : Term) :
    (e.run t).1 =
      (t.stepLimit? e.maxSteps).elim (.ok ⟨t, t.multistep e.maxSteps⟩) .error := by
  rw [run, Term.stepLimit?]
  cases (t.multistep e.maxSteps).exceeded with
  | true => rfl
  | false => cases (t.multistep e.maxSteps).last.isValue <;> rfl

/-- An evaluator returns what its reduction is, and tells what it tells, by that alone. -/
theorem run_congr {e e' : Evaluator} {t : Term}
    (hreduction : t.multistep e'.maxSteps = t.multistep e.maxSteps)
    (hnone : t.stepLimit? e.maxSteps = none) : e'.run t = e.run t := by
  have hexceeded : (t.multistep e.maxSteps).exceeded = false := by
    rw [Term.exceeded_multistep]
    exact Term.stepLimit?_eq_none_iff.mp hnone
  simp only [run, hreduction, hexceeded, Bool.false_eq_true, if_false]

end Evaluator

namespace Term

/-- A bound that is no less than one within which a reduction ends leaves it as it is. -/
theorem multistep_eq_of_le {t : Term} {maxSteps larger : Int} (hle : maxSteps ≤ larger)
    (h : t.stepLimit? maxSteps = none) :
    t.multistep larger = t.multistep maxSteps ∧ t.stepLimit? larger = none := by
  rw [stepLimit?_eq_none_iff] at h ⊢
  have hlarger : t.overruns larger = false := by
    rw [overruns_eq_false_iff_le] at h ⊢
    exact Nat.le_trans h (Int.toNat_le_toNat hle)
  have htrace := (multistep_of_enough hlarger).1.trans (multistep_of_enough h).1.symm
  refine ⟨Reduction.eq_of_trace_eq htrace ?_, hlarger⟩
  rw [exceeded_multistep, exceeded_multistep, hlarger, h]

/-- Within a bound, the way to the normal form is gone to its end by every driver. -/
structure Finishes (t : Term) (maxSteps : Int) : Prop where
  trace : (t.multistep maxSteps).trace = t.sequence
  stepLimit : t.stepLimit? maxSteps = none
  normalize : t.normalize maxSteps = .ok t.normalForm
  evaluator : 0 ≤ maxSteps → ∃ e, Evaluator.ofInt maxSteps = .ok e ∧
    e.normalize t = .ok t.normalForm ∧
    ∃ v, (e.run t).1 = .ok v ∧ v.term = t ∧ v.trace = t.sequence ∧ v.steps = t.stepCount ∧
      v.result = t.normalForm ∧ v.isStuck = t.normalForm.isStuck

/-- Within a bound, every driver takes as many steps as the bound allows, to the term `last` on
the way to the normal form, and fails there with one and the same error. -/
structure CutShort (t : Term) (maxSteps : Int) (last : Term) : Prop where
  reached : t.sequence[maxSteps.toNat]? = some last
  trace : (t.multistep maxSteps).trace = t.sequence.take (maxSteps.toNat + 1)
  stepLimit : t.stepLimit? maxSteps = some ⟨t, last, maxSteps⟩
  normalize : t.normalize maxSteps = .error ⟨t, last, maxSteps⟩
  evaluator : 0 ≤ maxSteps → ∃ e, Evaluator.ofInt maxSteps = .ok e ∧
    e.normalize t = .error ⟨t, last, maxSteps⟩ ∧ (e.run t).1 = .error ⟨t, last, maxSteps⟩

theorem finishes_of_enough {t : Term} {maxSteps : Int} (h : t.overruns maxSteps = false) :
    t.Finishes maxSteps := by
  obtain ⟨htrace, hlast⟩ := multistep_of_enough h
  have hlimit := stepLimit?_eq_none_iff.mpr h
  have hnormalize := normalize_of_enough h
  refine ⟨htrace, hlimit, hnormalize, ?_⟩
  intro hpos
  obtain ⟨e, he, hbound⟩ := Evaluator.exists_ofInt hpos
  have hrun : (e.run t).1 = .ok ⟨t, t.multistep maxSteps⟩ := by
    rw [Evaluator.fst_run, hbound, hlimit, Option.elim_none]
  have hsteps : (t.multistep maxSteps).steps = t.stepCount := by
    have hlength := (t.multistep maxSteps).length_trace
    rw [htrace, length_sequence] at hlength
    omega
  have hstuck : t.normalForm.isStuck = !(t.multistep maxSteps).last.isValue := by
    rw [isStuck, step_normalForm, hlast]
    rfl
  refine ⟨e, he, ?_, ⟨t, t.multistep maxSteps⟩, hrun, rfl, htrace, hsteps, hlast, hstuck.symm⟩
  rw [Evaluator.normalize, hbound, hnormalize]

theorem cutShort_of_overruns {t : Term} {maxSteps : Int} (h : t.overruns maxSteps = true) :
    t.CutShort maxSteps (t.multistep maxSteps).last := by
  obtain ⟨hreached, hlimit⟩ := multistep_of_overruns h
  have hnormalize := normalize_eq_error h
  refine ⟨hreached, trace_multistep t maxSteps, hlimit, hnormalize, ?_⟩
  intro hpos
  obtain ⟨e, he, hbound⟩ := Evaluator.exists_ofInt hpos
  refine ⟨e, he, ?_, ?_⟩
  · rw [Evaluator.normalize, hbound, hnormalize]
  · rw [Evaluator.fst_run, hbound, hlimit, Option.elim_some]

end Term

/-- The way from a term to its normal form is gone to its end by every driver under a bound of no
less than the number of steps, and by none under any other: then they all fail where they are after
as many steps as the bound allows, a negative one as many as zero does.  What one bound is enough
for has the same results under all larger ones. -/
theorem drivers_agree (t : Term) (maxSteps : Int) :
    (Run t.stepCount t t.normalForm ∧ t.normalForm.step = none ∧
        ∀ (i : Nat) (u : Term), t.sequence[i]? = some u ↔ Run i t u) ∧
      (t.stepCount ≤ maxSteps.toNat → t.Finishes maxSteps) ∧
      (maxSteps.toNat < t.stepCount → ∃ last, t.CutShort maxSteps last) ∧
      ∀ larger : Int, maxSteps ≤ larger → t.stepLimit? maxSteps = none →
        t.multistep larger = t.multistep maxSteps ∧ t.stepLimit? larger = none ∧
          t.normalize larger = t.normalize maxSteps ∧
          ∀ e e' : Evaluator, Evaluator.ofInt maxSteps = .ok e → Evaluator.ofInt larger = .ok e' →
            e'.normalize t = e.normalize t ∧ e'.run t = e.run t := by
  refine ⟨⟨t.run_normalForm, t.step_normalForm, fun i u => Term.getElem?_sequence⟩, ?_, ?_, ?_⟩
  · intro henough
    exact Term.finishes_of_enough (Term.overruns_eq_false_iff_le.mpr henough)
  · intro hfew
    exact ⟨_, Term.cutShort_of_overruns (Term.overruns_iff.mpr hfew)⟩
  · intro larger hle hnone
    obtain ⟨hreduction, hnone'⟩ := Term.multistep_eq_of_le hle hnone
    have hnormalize : t.normalize larger = t.normalize maxSteps := by
      rw [Term.normalize_eq, Term.normalize_eq, hreduction, hnone, hnone']
    refine ⟨hreduction, hnone', hnormalize, ?_⟩
    intro e e' he he'
    cases Evaluator.ofInt_eq_ok_iff.mp he
    cases Evaluator.ofInt_eq_ok_iff.mp he'
    exact ⟨hnormalize, Evaluator.run_congr hreduction hnone⟩

/-- A test for zero takes three steps: two are not enough, and below zero none is allowed. -/
theorem drivers_agree_isZero_pred_pred :
    (Term.isZero (.pred (.pred .zero))).Finishes 3 ∧
      (∃ last, (Term.isZero (.pred (.pred .zero))).CutShort 2 last) ∧
      (∃ last, (Term.isZero (.pred (.pred .zero))).CutShort (-1) last) ∧
      (Term.isZero (.pred (.pred .zero))).multistep 10 =
        (Term.isZero (.pred (.pred .zero))).multistep 3 := by
  have hcount : (Term.isZero (.pred (.pred .zero))).stepCount = 3 :=
    Run.stepCount_eq (.cons rfl (.cons rfl (.cons rfl (.nil .tru)))) rfl
  obtain ⟨_, hfinishes, _, hlarger⟩ := drivers_agree (.isZero (.pred (.pred .zero))) 3
  have hcut := fun m => (drivers_agree (.isZero (.pred (.pred .zero))) m).2.2.1
  have hthree := hfinishes (by rw [hcount]; decide)
  exact ⟨hthree, hcut 2 (by rw [hcount]; decide), hcut (-1) (by rw [hcount]; decide),
    (hlarger 10 (by decide) hthree.stepLimit).1⟩

end BoolNat
