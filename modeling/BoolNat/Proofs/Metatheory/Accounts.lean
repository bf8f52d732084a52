import BoolNat.Proofs.Metatheory.Standard
set_option autoImplicit false

/-! # The accounts of a harness

A harness tries its properties on the terms of a population, and its report is to account for
these trials: how many there were of every kind under every name, and which violations were
found first.  `Harness.Accounts` says what such a report has to hold, in terms of the premises
and the checks alone.  This leaves no choice: two reports that account for the same trials are
equal (`Harness.Accounts.unique`).

Any properties that answer are accounted for, whatever they say, also when several of them have
one name (`Harness.accounts_run`).  The limit on counterexamples bears on nothing but how many of
them are kept, and the entries need not be there at the start.
-/

namespace BoolNat

/-- The premise and the check of the property answer for the term. -/
structure Property.Answers (p : Property) (t : Term) : Prop where
  premise : ∃ applies, p.premise t = .ok applies
  check : ∃ holds, p.check t = .ok holds

theorem Property.exists_judge_of_answers {p : Property} {t : Term} (h : p.Answers t) :
    ∃ v, p.judge t = .ok v := by
  obtain ⟨applies, hpremise⟩ := h.premise
  obtain ⟨holds, hcheck⟩ := h.check
  rw [judge, hpremise, hcheck]
  cases applies with
  | false => exact ⟨_, rfl⟩
  | true => exact ⟨_, rfl⟩

theorem Term.describe_eq_ok_detail {t : Term} (h : t.isProper = true) :
    t.describe = .ok t.detail := by
  obtain ⟨line, hline⟩ := exists_describe_eq_ok h
  rw [detail, hline]
  rfl

namespace Trial

/-- The premise holds. -/
def isChecked (c : Trial) : Bool := c.property.premise c.term = .ok true

/-- The premise fails. -/
def isVacuous (c : Trial) : Bool := c.property.premise c.term = .ok false

/-- The premise holds, and the check fails. -/
def isViolated (c : Trial) : Bool :=
  c.property.premise c.term = .ok true ∧ c.property.check c.term = .ok false

/-- The property answers for the term. -/
def Answers (c : Trial) : Prop := c.property.Answers c.term

theorem isChecked_of_isViolated {c : Trial} (h : c.isViolated = true) : c.isChecked = true :=
  decide_eq_true (of_decide_eq_true h).1

/-- A trial that is answered is vacuous unless it is checked. -/
theorem isVacuous_iff {c : Trial} (h : c.Answers) : c.isVacuous = true ↔ ¬ c.isChecked = true := by
  obtain ⟨applies, hpremise⟩ := h.premise
  unfold isVacuous isChecked
  rw [hpremise]
  cases applies <;> simp

/-- The verdict tells what kind of trial it was. -/
theorem verdict_iff {c : Trial} (h : c.Answers) :
    (c.verdict ≠ .vacuous ↔ c.isChecked = true) ∧ (c.verdict = .vacuous ↔ c.isVacuous = true) ∧
      (c.verdict = .violated ↔ c.isViolated = true) := by
  obtain ⟨applies, hpremise⟩ := h.premise
  obtain ⟨holds, hcheck⟩ := h.check
  unfold isChecked isVacuous isViolated verdict Property.verdict Property.judge
  rw [hpremise, hcheck]
  cases applies <;> cases holds <;> decide

end Trial

namespace Tally

/-- How many of some trials were checked, vacuous and violated. -/
def ofTrials (trials : List Trial) : Tally where
  checked := trials.countP Trial.isChecked
  vacuous := trials.countP Trial.isVacuous
  violations := trials.countP Trial.isViolated

variable {trials : List Trial}

theorem ofVerdicts_map (h : ∀ c ∈ trials, c.Answers) :
    ofVerdicts (trials.map Trial.verdict) = ofTrials trials := by
  simp only [ofVerdicts, ofTrials, List.count_eq_countP, List.countP_map, mk.injEq]
  refine ⟨?_, ?_, ?_⟩
  · refine List.countP_congr fun c hc => ?_
    simpa using (Trial.verdict_iff (h c hc)).1
  · refine List.countP_congr fun c hc => ?_
    simpa using (Trial.verdict_iff (h c hc)).2.1
  · refine List.countP_congr fun c hc => ?_
    simpa using (Trial.verdict_iff (h c hc)).2.2

/-- Every trial is checked or vacuous. -/
theorem checked_add_vacuous_ofTrials (h : ∀ c ∈ trials, c.Answers) :
    (ofTrials trials).checked + (ofTrials trials).vacuous = trials.length := by
  have hvacuous : trials.countP Trial.isVacuous = trials.countP (¬ ·.isChecked = true) :=
    List.countP_congr fun c hc => by simpa using Trial.isVacuous_iff (h c hc)
  rw [List.length_eq_countP_add_countP Trial.isChecked, ← hvacuous]
  rfl

theorem violations_le_checked_ofTrials (trials : List Trial) :
    (ofTrials trials).violations ≤ (ofTrials trials).checked :=
  List.countP_mono_left fun _ _ => Trial.isChecked_of_isViolated

end Tally

namespace Harness

variable (h : Harness)

/-- The trials of the properties of one name. -/
def trialsOf (population : List Term) (name : String) : List Trial :=
  (h.trials population).filter (·.property.name = name)

/-- What a report has to hold after the properties have been tried on a population. -/
structure Accounts (population : List Term) (r : Report) : Prop where
  terms : r.terms = population.length
  /-- the names stand in the order in which they first occur, each with the tally of its trials -/
  tallies : r.tallies = (h.properties.map (·.name)).eraseDups.map fun name =>
    (name, .ofTrials (h.trialsOf population name))
  /-- the first violations are kept, as many as there is room for, each described -/
  counterexamples :
    (r.counterexamples.toList.map fun e => (e.property, e.term, Except.ok e.detail)) =
      (((h.trials population).filter Trial.isViolated).take h.maxCounterexamples.toNat).map
        fun c => (c.property.name, c.term, c.term.describe)

variable {h}

/-- The accounts determine the report. -/
theorem Accounts.unique {population : List Term} {r r' : Report} (hr : h.Accounts population r)
    (hr' : h.Accounts population r') : r = r' := by
  obtain ⟨terms, tallies, counterexamples⟩ := r
  obtain ⟨terms', tallies', counterexamples'⟩ := r'
  have hterms : terms = terms' := hr.terms.trans hr'.terms.symm
  have htallies : tallies = tallies' := hr.tallies.trans hr'.tallies.symm
  have hinjective : Function.Injective fun e : Counterexample =>
      (e.property, e.term, (Except.ok e.detail : Except ForeignLeaf String)) := by
    rintro ⟨property, term, detail⟩ ⟨property', term', detail'⟩ heq
    simpa using heq
  have hcounterexamples : counterexamples = counterexamples' := by
    have heq := hr.counterexamples.trans hr'.counterexamples.symm
    exact Array.toList_inj.mp (List.map_injective_iff.mpr hinjective heq)
  rw [hterms, htallies, hcounterexamples]

variable (h)

theorem length_trialsOf (population : List Term) (name : String) :
    (h.trialsOf population name).length =
      population.length * h.properties.countP (·.name = name) := by
  have hterm : ∀ t : Term, (h.properties.map (Trial.mk · t)).countP (·.property.name = name) =
      h.properties.countP (·.name = name) := by
    intro t
    rw [List.countP_map]
    rfl
  rw [trialsOf, ← List.countP_eq_length_filter, trials, List.countP_flatMap]
  simp only [Function.comp_def, hterm, List.map_const', List.sum_replicate_nat]

variable {h}

/-- Under every name each term was tried with every property of that name. -/
theorem Accounts.balance {population : List Term} {r : Report} (hr : h.Accounts population r)
    (htrials : ∀ c ∈ h.trials population, c.Answers) {entry : String × Tally}
    (hentry : entry ∈ r.tallies) :
    entry.2.checked + entry.2.vacuous =
        population.length * h.properties.countP (·.name = entry.1) ∧
      entry.2.violations ≤ entry.2.checked := by
  rw [hr.tallies] at hentry
  obtain ⟨name, _, rfl⟩ := List.mem_map.mp hentry
  have hof : ∀ c ∈ h.trialsOf population name, c.Answers :=
    fun c hc => htrials c (List.mem_filter.mp hc).1
  have hsum := Tally.checked_add_vacuous_ofTrials hof
  rw [length_trialsOf] at hsum
  exact ⟨hsum, Tally.violations_le_checked_ofTrials _⟩

/-- As many violations are kept as there is room for. -/
theorem Accounts.size_counterexamples {population : List Term} {r : Report}
    (hr : h.Accounts population r) :
    r.counterexamples.size =
      min h.maxCounterexamples.toNat ((h.trials population).countP Trial.isViolated) := by
  have hlength := congrArg List.length hr.counterexamples
  rwa [List.length_map, List.length_map, List.length_take, Array.length_toList,
    ← List.countP_eq_length_filter] at hlength

variable (h)

/-! ## The accounts of a run -/

variable {terms : List Term}

theorem judges_of_answers (hproper : ∀ t ∈ terms, t.isProper = true)
    (hanswers : ∀ p ∈ h.properties, ∀ t ∈ terms, p.Answers t) : ∀ t ∈ terms, h.Judges t := by
  intro t ht
  exact ⟨fun p hp => Property.exists_judge_of_answers (hanswers p hp t ht),
    Term.exists_describe_eq_ok (hproper t ht)⟩

theorem answers_of_mem_trials (hanswers : ∀ p ∈ h.properties, ∀ t ∈ terms, p.Answers t) :
    ∀ c ∈ h.trials terms, c.Answers := by
  intro c hc
  obtain ⟨t, ht, hc⟩ := List.mem_flatMap.mp hc
  obtain ⟨p, hp, rfl⟩ := List.mem_map.mp hc
  exact hanswers p hp t ht

/-- What is found are the violated trials, in the order in which they are made. -/
theorem failures_eq_map (htrials : ∀ c ∈ h.trials terms, c.Answers) :
    h.failures terms = ((h.trials terms).filter Trial.isViolated).map fun c =>
      ⟨c.property.name, c.term, c.term.detail⟩ := by
  rw [failures_eq]
  generalize h.trials terms = trials at htrials
  induction trials with
  | nil => rfl
  | cons c rest ih =>
    have hviolated := (Trial.verdict_iff (htrials c (List.mem_cons_self ..))).2.2
    have hrest := ih fun c hc => htrials c (List.mem_cons_of_mem _ hc)
    rw [List.flatMap_cons, hrest]
    simp only [hviolated, List.filter_cons]
    split <;> rfl

theorem term_mem_of_mem_trials {c : Trial} (hc : c ∈ h.trials terms) : c.term ∈ terms := by
  obtain ⟨t, ht, hc⟩ := List.mem_flatMap.mp hc
  obtain ⟨p, _, rfl⟩ := List.mem_map.mp hc
  exact ht

/-- The verdicts under a name are those of the trials of that name. -/
theorem ofVerdicts_filter (htrials : ∀ c ∈ h.trials terms, c.Answers) (name : String) :
    Tally.ofVerdicts (((h.verdicts terms).filter (·.1 = name)).map (·.2)) =
      .ofTrials (h.trialsOf terms name) := by
  have hof : ∀ c ∈ h.trialsOf terms name, c.Answers :=
    fun c hc => htrials c (List.mem_filter.mp hc).1
  rw [← Tally.ofVerdicts_map hof, verdicts_eq, List.filter_map, List.map_map]
  rfl

/-- From an empty report, with entries for some names or without, a run accounts for its trials
if it meets the names in the order of the properties. -/
theorem accounts_foldl_recordTerm (hproper : ∀ t ∈ terms, t.isProper = true)
    (htrials : ∀ c ∈ h.trials terms, c.Answers) {names : List String}
    (hnames : (names ++ (h.verdicts terms).map (·.1)).eraseDups =
      (h.properties.map (·.name)).eraseDups) :
    h.Accounts terms
      (terms.foldl h.recordTerm ⟨{ Report.empty with tallies := .ofNames names }, #[]⟩).report where
  terms := by
    rw [terms_foldl_recordTerm]
    exact Nat.zero_add _
  tallies := by
    rw [tallies_foldl_recordTerm, Tallies.addAll_ofNames, hnames]
    simp only [ofVerdicts_filter h htrials]
  counterexamples := by
    have hstart : Progress.Keeps h.maxCounterexamples
        ⟨{ Report.empty with tallies := .ofNames names }, #[]⟩ [] := by
      simp [Progress.Keeps, Report.empty]
    rw [h.keeps_foldl_recordTerm terms hstart, List.nil_append, failures_eq_map h htrials,
      ← List.map_take, List.map_map]
    refine List.map_congr_left fun c hc => ?_
    have htrial : c ∈ h.trials terms := (List.mem_filter.mp (List.mem_of_mem_take hc)).1
    have hdescribe := Term.describe_eq_ok_detail (hproper _ (h.term_mem_of_mem_trials htrial))
    rw [hdescribe]
    rfl

/-- The names under which verdicts are reached are those of the properties. -/
theorem names_verdicts (terms : List Term) :
    (h.verdicts terms).map (·.1) = terms.flatMap fun _ => h.properties.map (·.name) := by
  simp [verdicts, List.map_flatMap, Function.comp_def]

theorem accounts_foldl_start (hproper : ∀ t ∈ terms, t.isProper = true)
    (htrials : ∀ c ∈ h.trials terms, c.Answers) :
    h.Accounts terms (terms.foldl h.recordTerm h.start).report := by
  refine h.accounts_foldl_recordTerm hproper htrials (Tallies.eraseDups_append_of_subset ?_)
  intro name hname
  rw [names_verdicts] at hname
  obtain ⟨_, _, hname⟩ := List.mem_flatMap.mp hname
  exact hname

/-- The first term brings up every name, and in the order of the properties. -/
theorem accounts_foldl_empty (hproper : ∀ t ∈ terms, t.isProper = true)
    (htrials : ∀ c ∈ h.trials terms, c.Answers) (hterms : terms ≠ []) :
    h.Accounts terms (terms.foldl h.recordTerm ⟨.empty, #[]⟩).report := by
  have hnames : ([] ++ (h.verdicts terms).map Prod.fst).eraseDups =
      (h.properties.map (·.name)).eraseDups := by
    obtain ⟨t, rest, rfl⟩ := List.exists_cons_of_ne_nil hterms
    rw [List.nil_append, names_verdicts, List.flatMap_cons]
    refine Tallies.eraseDups_append_of_subset fun name hname => ?_
    obtain ⟨_, _, hname⟩ := List.mem_flatMap.mp hname
    exact hname
  exact h.accounts_foldl_recordTerm hproper htrials hnames

theorem violations_eq_countP (htrials : ∀ c ∈ h.trials terms, c.Answers) :
    (terms.foldl h.recordTerm h.start).report.violations =
      (h.trials terms).countP Trial.isViolated := by
  rw [violations_run, verdicts_eq, List.countP_map]
  refine List.countP_congr fun c hc => ?_
  simpa using (Trial.verdict_iff (htrials c hc)).2.2

/-- As long as the properties answer for every term, a run comes to an end and its report accounts
for all trials, whatever the properties say, whatever they are called and whatever the limit is.
Under every name the checked and the vacuous trials are all there are, and no more are violated
than are checked.  The violations are kept as far as there is room, but told one and all, and then
the totals.  Checking the terms one after the other from a report without entries comes to the
same report, if there are any terms. -/
theorem accounts_run (hproper : ∀ t ∈ terms, t.isProper = true)
    (hanswers : ∀ p ∈ h.properties, ∀ t ∈ terms, p.Answers t) :
    ∃ s, h.run terms = .ok s ∧ h.Accounts terms s.report ∧
      (∀ entry ∈ s.report.tallies,
        entry.2.checked + entry.2.vacuous =
            terms.length * h.properties.countP (·.name = entry.1) ∧
          entry.2.violations ≤ entry.2.checked) ∧
      s.report.counterexamples.size =
        min h.maxCounterexamples.toNat ((h.trials terms).countP Trial.isViolated) ∧
      s.events.toList =
        (((h.trials terms).filter Trial.isViolated).map fun c =>
          .violation c.property.name c.term) ++
          [.done terms.length ((h.trials terms).countP Trial.isViolated)] ∧
      (terms ≠ [] →
        ∃ s', terms.foldlM h.checkTerm ⟨.empty, #[]⟩ = .ok s' ∧ s'.report = s.report) := by
  have hjudges := h.judges_of_answers hproper hanswers
  have htrials := h.answers_of_mem_trials hanswers
  have haccounts := h.accounts_foldl_start hproper htrials
  refine ⟨_, h.run_eq_ok hjudges, haccounts, fun entry => haccounts.balance htrials,
    haccounts.size_counterexamples, ?_, ?_⟩
  · have htold := h.events_foldl_recordTerm terms h.start
    rw [failures_eq_map h htrials, List.map_map] at htold
    have hdone := h.violations_eq_countP htrials
    simp only [Progress.tell, Array.toList_push, htold, haccounts.terms, hdone]
    rfl
  · intro hterms
    have hfold := foldlM_eq_ok (fun s t ht => h.checkTerm_eq_ok (hjudges t ht) s) ⟨.empty, #[]⟩
    exact ⟨_, hfold, (h.accounts_foldl_empty hproper htrials hterms).unique haccounts⟩

/-- Three properties, of which two have one name, and room for one counterexample. -/
def sharedName : Harness where
  properties :=
    [⟨"value", fun t => .ok t.isValue, fun _ => .ok true⟩,
      ⟨"number", fun t => .ok t.isNumeric, fun t => .ok t.isValue⟩,
      ⟨"value", fun t => .ok t.isBoolean, fun t => .ok t.isValue⟩]
  maxCounterexamples := 1

/-- Zero is no truth value and its predecessor no value, but only the first violation is kept. -/
theorem accounts_run_sharedName :
    (∀ t ∈ [Term.zero, .pred .zero], t.isProper = true) ∧
      (∀ p ∈ sharedName.properties, ∀ t ∈ [Term.zero, .pred .zero], p.Answers t) ∧
      ∃ s, sharedName.run [.zero, .pred .zero] = .ok s ∧
        s.report.tallies = [("value", ⟨3, 1, 2⟩), ("number", ⟨1, 1, 0⟩)] ∧
        s.report.counterexamples.size = 1 ∧
        s.events.toList =
          [.violation "value" .zero, .violation "value" (.pred .zero), .done 2 2] := by
  have hproper : ∀ t ∈ [Term.zero, .pred .zero], t.isProper = true := by decide
  have hanswers : ∀ p ∈ sharedName.properties, ∀ t ∈ [Term.zero, .pred .zero], p.Answers t := by
    intro p hp t _
    simp only [sharedName, List.mem_cons, List.not_mem_nil, or_false] at hp
    rcases hp with rfl | rfl | rfl <;> exact ⟨⟨_, rfl⟩, ⟨_, rfl⟩⟩
  obtain ⟨s, hrun, haccounts, _, hsize, hevents, _⟩ := sharedName.accounts_run hproper hanswers
  refine ⟨hproper, hanswers, s, hrun, haccounts.tallies.trans ?_, hsize.trans ?_,
    hevents.trans ?_⟩
  · decide
  · decide
  · decide

end Harness

end BoolNat
