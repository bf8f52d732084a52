import BoolNat.Proofs.Reduction.Run
set_option autoImplicit false

/-! # How long an evaluation is

`Term.stepCount` counts the steps from a term to its normal form, which exists because every
step makes the term smaller.  It is the length of the run that ends there
(`Run.stepCount_eq`), so a bound on steps is enough for a term exactly if it is no less than
the count of the term, and otherwise the term overruns it (`Term.overruns`).
-/

namespace BoolNat

namespace Term

/-- The number of steps from a term to its normal form. -/
def stepCount (t : Term) : Nat :=
  match h : t.step with
  | none => 0
  | some t' => t'.stepCount + 1
termination_by t.size
decreasing_by exact (Step.of_step h).size_lt

theorem stepCount_of_normal {t : Term} (h : t.step = none) : t.stepCount = 0 := by
  unfold stepCount
  split
  · rfl
  · next t' hs => rw [h] at hs; cases hs

theorem stepCount_of_step {t t' : Term} (h : t.step = some t') :
    t.stepCount = t'.stepCount + 1 := by
  rw [stepCount]
  split
  · next hs => rw [h] at hs; cases hs
  · next u hs => rw [h] at hs; cases hs; rfl

end Term

/-- What is counted from the end of a run is what is left to do. -/
theorem Run.stepCount_eq_add {n : Nat} {t u : Term} (h : Run n t u) :
    t.stepCount = u.stepCount + n := by
  induction h with
  | nil t => rfl
  | cons first _ ih => rw [Term.stepCount_of_step first, ih]; rfl

/-- The run to the normal form has as many steps as are counted. -/
theorem Run.stepCount_eq {n : Nat} {t u : Term} (h : Run n t u) (hu : u.step = none) :
    t.stepCount = n := by
  rw [h.stepCount_eq_add, Term.stepCount_of_normal hu, Nat.zero_add]

namespace Term

/-- A run of as many steps as are counted leads to the normal form. -/
theorem exists_run_stepCount (t : Term) : ∃ u, Run t.stepCount t u ∧ u.step = none := by
  induction t using stepInduction with
  | normal t h =>
    rw [stepCount_of_normal h]
    exact ⟨t, .nil t, h⟩
  | step t t' h ih =>
    obtain ⟨u, hr, hu⟩ := ih
    rw [stepCount_of_step h]
    exact ⟨u, .cons h hr, hu⟩

/-- Fewer steps are counted than the term has nodes. -/
theorem stepCount_lt_size (t : Term) : t.stepCount < t.size := by
  obtain ⟨u, hr, _⟩ := t.exists_run_stepCount
  have hlength := hr.add_measure_le Step.size_lt
  have hpos := u.size_pos
  omega

/-- A term needs more steps to its normal form than the bound allows. -/
def overruns (t : Term) (maxSteps : Int) : Bool := max maxSteps 0 < (t.stepCount : Int)

theorem overruns_iff {t : Term} {maxSteps : Int} :
    t.overruns maxSteps = true ↔ maxSteps.toNat < t.stepCount := by
  rw [overruns, decide_eq_true_iff]
  omega

theorem overruns_eq_false_iff_le {t : Term} {maxSteps : Int} :
    t.overruns maxSteps = false ↔ t.stepCount ≤ maxSteps.toNat := by
  rw [← Bool.not_eq_true, overruns_iff, Nat.not_lt]

theorem overruns_of_stepCount_le {t : Term} {maxSteps : Int}
    (h : (t.stepCount : Int) ≤ maxSteps) : t.overruns maxSteps = false := by
  rw [overruns_eq_false_iff_le]
  omega

/-- The bound allows a term its steps if the normal form is no further away than that. -/
theorem overruns_eq_false_iff {t : Term} {maxSteps : Int} :
    t.overruns maxSteps = false ↔
      ∃ (n : Nat) (u : Term), Run n t u ∧ u.step = none ∧ (n : Int) ≤ max maxSteps 0 := by
  simp only [overruns, decide_eq_false_iff_not, Int.not_lt]
  constructor
  · intro hle
    obtain ⟨u, hr, hu⟩ := t.exists_run_stepCount
    exact ⟨t.stepCount, u, hr, hu, hle⟩
  · rintro ⟨n, u, hr, hu, hle⟩
    rw [hr.stepCount_eq hu]
    exact hle

end Term

end BoolNat
