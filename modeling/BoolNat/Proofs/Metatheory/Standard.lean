import BoolNat.Metatheory.Standard
import BoolNat.Proofs.Metatheory.Harness
import BoolNat.Proofs.Metatheory.Law
set_option autoImplicit false

/-! # What the standard harness reports

The standard harness checks the laws of the calculus, and since they hold, all it can report
is that a bound on steps was too small.  It reports each such term once under the law about
evaluation in one go, and the well-typed ones once more under soundness; everything else is
without violations (`Harness.run_standard`).
-/

namespace BoolNat

namespace Law

theorem mem_all (law : Law) : law ∈ all := by
  cases law <;> simp [all]

/-- Under its name a law has its own verdict and no other. -/
theorem filter_name (law : Law) (verdict : Law → Verdict) :
    (all.map fun l => (l.name, verdict l)).filter (·.1 = law.name) =
      [(law.name, verdict law)] := by
  cases law <;> simp [all, name]

end Law

theorem Term.exists_describe_eq_ok {t : Term} (h : t.isProper = true) :
    ∃ line, t.describe = .ok line := by
  rw [describe, typecheck_of_isProper h]
  exact ⟨_, rfl⟩

namespace Harness

variable {terms : List Term} (maxSteps maxCounterexamples : Int)

theorem judges_standard {t : Term} (h : t.isProper = true) :
    (standard maxSteps maxCounterexamples).Judges t where
  judge := by
    intro p hp
    obtain ⟨law, _, rfl⟩ := List.mem_map.mp hp
    exact ⟨_, Law.judge_property h maxSteps law⟩
  describe := Term.exists_describe_eq_ok h

theorem mem_names_standard (law : Law) :
    law.name ∈ (standard maxSteps maxCounterexamples).properties.map (·.name) := by
  simp only [standard, standardProperties, List.map_map]
  exact List.mem_map.mpr ⟨law, law.mem_all, rfl⟩

/-- The verdicts of the standard harness are those of the laws. -/
theorem verdicts_standard (h : ∀ t ∈ terms, t.isProper = true) :
    (standard maxSteps maxCounterexamples).verdicts terms =
      terms.flatMap fun t => Law.all.map fun law => (law.name, law.verdict maxSteps t) := by
  refine List.flatMap_congr fun t ht => ?_
  have hlaw : ∀ law : Law, (law.property maxSteps).verdict t = law.verdict maxSteps t :=
    fun law => Property.verdict_eq (Law.judge_property (h t ht) maxSteps law)
  simp only [standard, standardProperties, List.map_map, Function.comp_def, hlaw]
  rfl

/-- A law is violated as often as there are terms that break it. -/
theorem count_violated_standard (h : ∀ t ∈ terms, t.isProper = true) (law : Law) :
    ((((standard maxSteps maxCounterexamples).verdicts terms).filter
        (·.1 = law.name)).map (·.2)).count .violated =
      terms.countP fun t => law.applies t && law.fails maxSteps t := by
  have hname : ∀ t : Term, (Law.all.map fun l => (l.name, l.verdict maxSteps t)).filter
      (·.1 = law.name) = [(law.name, law.verdict maxSteps t)] :=
    fun t => Law.filter_name law (·.verdict maxSteps t)
  rw [verdicts_standard maxSteps maxCounterexamples h, List.filter_flatMap]
  simp only [hname, ← List.map_eq_flatMap, List.map_map, List.count_eq_countP, List.countP_map]
  refine List.countP_congr fun t _ => ?_
  simp [Law.verdict_eq_violated_iff]

/-- Some law is violated by some term exactly if the evaluation of some term is cut short. -/
theorem violations_standard_eq_zero_iff (h : ∀ t ∈ terms, t.isProper = true) :
    ((standard maxSteps maxCounterexamples).verdicts terms).countP (·.2 = .violated) = 0 ↔
      ∀ t ∈ terms, t.overruns maxSteps = false := by
  rw [verdicts_standard maxSteps maxCounterexamples h, List.countP_eq_zero]
  constructor
  · intro hnone t ht
    have hbig : (Law.bigStep.name, Law.bigStep.verdict maxSteps t) ∈
        terms.flatMap fun t => Law.all.map fun law => (law.name, law.verdict maxSteps t) :=
      List.mem_flatMap.mpr ⟨t, ht, List.mem_map.mpr ⟨.bigStep, Law.mem_all _, rfl⟩⟩
    have hne := hnone _ hbig
    simpa [Law.verdict_eq_violated_iff, Law.applies, Law.fails] using hne
  · intro hall v hv hviolated
    obtain ⟨t, ht, hv⟩ := List.mem_flatMap.mp hv
    obtain ⟨law, _, rfl⟩ := List.mem_map.mp hv
    have hfails := (Law.verdict_eq_violated_iff.mp (of_decide_eq_true hviolated)).2
    cases law <;> simp [Law.fails, hall t ht] at hfails

/-- The standard harness finds all to be well if no evaluation is cut short, and then it keeps
no counterexamples. -/
theorem exists_run_standard (h : ∀ t ∈ terms, t.isProper = true) :
    ∃ s, (standard maxSteps maxCounterexamples).run terms = .ok s ∧
      (s.report.isOk = true ↔ ∀ t ∈ terms, t.overruns maxSteps = false) ∧
      (s.report.isOk = true → s.report.counterexamples = #[]) := by
  let harness := standard maxSteps maxCounterexamples
  have hrun := harness.run_eq_ok fun t ht => judges_standard maxSteps maxCounterexamples (h t ht)
  have hzero := violations_standard_eq_zero_iff maxSteps maxCounterexamples h
  have hok : (terms.foldl harness.recordTerm harness.start).report.isOk = true ↔
      ∀ t ∈ terms, t.overruns maxSteps = false := by
    rw [Report.isOk_iff, harness.violations_run, hzero]
  refine ⟨_, hrun, hok, fun hall => ?_⟩
  have hnone : harness.failures terms = [] :=
    harness.failures_eq_nil_iff.mpr (hzero.mpr (hok.mp hall))
  refine Array.toList_inj.mp ((harness.counterexamples_run terms).trans ?_)
  rw [hnone, List.take_nil]

/-- For terms without foreign leaves the standard harness comes to an end.  Under its law of
evaluation in one go it reports as many violations as there are terms that need more steps
than the bound allows, under soundness as many as there are well-typed ones among them, and
under the other laws none.  So all is well exactly if every term reaches its normal form
within the bound. -/
theorem run_standard (h : ∀ t ∈ terms, t.isProper = true) :
    ∃ s, (standard maxSteps maxCounterexamples).run terms = .ok s ∧
      (∀ law : Law, (s.report.tallies.lookup law.name).map Tally.violations =
        match law with
        | .bigStep => some (terms.countP (·.overruns maxSteps))
        | .soundness => some (terms.countP fun t => t.isTyped && t.overruns maxSteps)
        | .determinism | .valueNormal | .progress | .preservation | .canonicalForms
        | .sizeDecreases | .constsBound => some 0) ∧
      (s.report.isOk = true ↔ ∀ t ∈ terms, ∃ (n : Nat) (u : Term),
        Run n t u ∧ u.step = none ∧ (n : Int) ≤ max maxSteps 0) := by
  have hrun := (standard maxSteps maxCounterexamples).run_eq_ok
    fun t ht => judges_standard maxSteps maxCounterexamples (h t ht)
  refine ⟨_, hrun, ?_, ?_⟩
  · intro law
    have hlookup := (standard maxSteps maxCounterexamples).lookup_run terms
      (mem_names_standard maxSteps maxCounterexamples law)
    have hcount := count_violated_standard maxSteps maxCounterexamples h law
    simp only [Progress.tell, hlookup, Option.map_some, Tally.ofVerdicts, hcount]
    cases law <;> simp [Law.applies, Law.fails]
  · have hviolations := (standard maxSteps maxCounterexamples).violations_run terms
    have hzero := violations_standard_eq_zero_iff maxSteps maxCounterexamples h
    rw [Report.isOk_iff]
    simp only [Progress.tell, hviolations, hzero, Term.overruns_eq_false_iff]

/-- Two terms need more than one step, and one of them is well typed. -/
theorem run_standard_cut_short :
    (∀ t ∈ [Term.isZero (.pred (.pred .zero)), .ite .tru (.pred .zero) .fls, .pred .zero],
        t.isProper = true) ∧
      ∃ s, (standard 1 0).run [Term.isZero (.pred (.pred .zero)), .ite .tru (.pred .zero) .fls,
          .pred .zero] = .ok s ∧
        (s.report.tallies.lookup "big-step").map Tally.violations = some 2 ∧
        (s.report.tallies.lookup "soundness").map Tally.violations = some 1 ∧
        s.report.isOk = false := by
  have h : ∀ t ∈ [Term.isZero (.pred (.pred .zero)), .ite .tru (.pred .zero) .fls,
      .pred .zero], t.isProper = true := by decide
  have hthree : (Term.isZero (.pred (.pred .zero))).stepCount = 3 :=
    Run.stepCount_eq (.cons rfl (.cons rfl (.cons rfl (.nil .tru)))) rfl
  have hlong : (Term.isZero (.pred (.pred .zero))).overruns 1 = true := by
    rw [Term.overruns, hthree]; rfl
  have huntyped : (Term.ite .tru (.pred .zero) .fls).overruns 1 = true := by
    have htwo : (Term.ite .tru (.pred .zero) .fls).stepCount = 2 :=
      Run.stepCount_eq (.cons rfl (.cons rfl (.nil .zero))) rfl
    rw [Term.overruns, htwo]; rfl
  have hshort : (Term.pred .zero).overruns 1 = false := by
    have hone : (Term.pred .zero).stepCount = 1 := Run.stepCount_eq (.cons rfl (.nil .zero)) rfl
    rw [Term.overruns, hone]; rfl
  obtain ⟨s, hrun, hviolations, hok⟩ := run_standard 1 0 h
  refine ⟨h, s, hrun, (hviolations .bigStep).trans ?_, (hviolations .soundness).trans ?_, ?_⟩
  · simp [hlong, huntyped, hshort]
  · have htyped : (Term.isZero (.pred (.pred .zero))).isTyped = true := rfl
    have hnone : (Term.ite .tru (.pred .zero) .fls).isTyped = false := rfl
    simp [hlong, hshort, htyped, hnone]
  · rw [Bool.eq_false_iff]
    intro hall
    obtain ⟨n, u, hr, hu, hle⟩ := hok.mp hall _ (List.mem_cons_self ..)
    have hn := hr.stepCount_eq hu
    omega

end Harness

end BoolNat
