import BoolNat.Metatheory.Harness
import BoolNat.Proofs.Metatheory.Tally
set_option autoImplicit false

/-! # Runs of the harness

Where no property meets a foreign leaf, a run of the harness comes to an end, and what it
keeps is a fold over the population: for each term, and for each property in turn, one verdict
is recorded (`Harness.run_eq_ok`).  So what beginning with a term and recording a verdict keep,
a run keeps (`Harness.runInduction`).  The report then says of every name how often which
verdict was reached under it (`Harness.lookup_run`), how many violations there were altogether
(`Harness.violations_run`), and which were the first ones (`Harness.counterexamples_run`); all
of them have been told (`Harness.events_foldl_recordTerm`).
-/

namespace BoolNat

/-- The verdict on a term where the property meets no foreign leaf. -/
def Property.verdict (p : Property) (t : Term) : Verdict := (p.judge t).toOption.getD .vacuous

theorem Property.verdict_eq {p : Property} {t : Term} {v : Verdict} (h : p.judge t = .ok v) :
    p.verdict t = v := by
  rw [verdict, h]; rfl

/-- One property, tried on one term. -/
structure Trial where
  property : Property
  term : Term

/-- What comes of a trial. -/
def Trial.verdict (c : Trial) : Verdict := c.property.verdict c.term

/-- The line about a term where it has no foreign leaf. -/
def Term.detail (t : Term) : String := t.describe.toOption.getD ""

/-- Every property reaches a verdict on the term, and the term can be described. -/
structure Harness.Judges (h : Harness) (t : Term) : Prop where
  judge : ∀ p ∈ h.properties, ∃ v, p.judge t = .ok v
  describe : ∃ line, t.describe = .ok line

namespace Progress

/-- Record the verdict of a property on a term: count it, and if it is a violation, tell it
and keep it while there is room. -/
def record (limit : Int) (t : Term) (s : Progress) (name : String) (verdict : Verdict) :
    Progress :=
  let s := { s with report := s.report.count name verdict }
  match verdict with
  | .violated =>
    let s := s.tell (.violation name t)
    if s.report.counterexamples.size < limit then s.keep ⟨name, t, t.detail⟩ else s
  | .vacuous | .upheld => s

/-- The verdict is counted under the name of the property. -/
theorem tallies_record (limit : Int) (t : Term) (s : Progress) (name : String)
    (verdict : Verdict) :
    (s.record limit t name verdict).report.tallies =
      s.report.tallies.update (·.add verdict) name := by
  cases verdict with
  | vacuous | upheld => rfl
  | violated =>
    unfold record
    simp only
    split <;> rfl

theorem terms_record (limit : Int) (t : Term) (s : Progress) (name : String)
    (verdict : Verdict) : (s.record limit t name verdict).report.terms = s.report.terms := by
  cases verdict with
  | vacuous | upheld => rfl
  | violated =>
    unfold record
    simp only
    split <;> rfl

/-- A violation is told, whether there is room for it or not. -/
theorem events_record (limit : Int) (t : Term) (s : Progress) (name : String)
    (verdict : Verdict) :
    (s.record limit t name verdict).events.toList =
      s.events.toList ++ if verdict = .violated then [.violation name t] else [] := by
  cases verdict with
  | vacuous | upheld => simp [record]
  | violated =>
    rw [if_pos rfl, ← Array.toList_push]
    unfold record
    simp only
    split <;> rfl

/-- A violation is kept while there is room. -/
theorem counterexamples_record (limit : Int) (t : Term) (s : Progress) (name : String) :
    (s.record limit t name .violated).report.counterexamples =
      if s.report.counterexamples.size < limit then
        s.report.counterexamples.push ⟨name, t, t.detail⟩
      else s.report.counterexamples :=
  apply_ite (fun s : Progress => s.report.counterexamples) _ _ _

/-- The counterexamples kept so far are the first ones of those found, as many as there is room
for. -/
def Keeps (limit : Int) (s : Progress) (found : List Counterexample) : Prop :=
  s.report.counterexamples.toList = found.take limit.toNat

/-- A verdict adds to what is found if it is a violation. -/
theorem Keeps.record {limit : Int} {s : Progress} {found : List Counterexample}
    (h : s.Keeps limit found) (t : Term) (name : String) (verdict : Verdict) :
    (s.record limit t name verdict).Keeps limit
      (found ++ if verdict = .violated then [⟨name, t, t.detail⟩] else []) := by
  cases verdict with
  | vacuous | upheld =>
    rw [if_neg (by decide), List.append_nil]
    exact h
  | violated =>
    unfold Keeps at h ⊢
    have hsize : s.report.counterexamples.size = min limit.toNat found.length := by
      rw [← Array.length_toList, h, List.length_take]
    rw [if_pos rfl, counterexamples_record]
    by_cases hroom : found.length < limit.toNat
    · have hall : found.take limit.toNat = found := List.take_of_length_le (by omega)
      rw [if_pos (by omega), Array.toList_push, h, hall, List.take_of_length_le]
      rw [List.length_append, List.length_singleton]
      exact hroom
    · rw [if_neg (by omega), List.take_append_of_le_length (by omega)]
      exact h

/-- Begin with the next term. -/
def next (s : Progress) : Progress :=
  { s with report := { s.report with terms := s.report.terms + 1 } }

end Progress

/-- A fold whose steps all succeed is the fold of what they lead to. -/
theorem foldlM_eq_ok {ε σ α : Type} {f : σ → α → Except ε σ} {g : σ → α → σ} {xs : List α}
    (h : ∀ s, ∀ x ∈ xs, f s x = .ok (g s x)) (s : σ) :
    xs.foldlM f s = .ok (xs.foldl g s) := by
  induction xs generalizing s with
  | nil => rfl
  | cons x rest ih =>
    have hfirst := h s x (List.mem_cons_self ..)
    have hrest := ih (fun s y hy => h s y (List.mem_cons_of_mem _ hy)) (g s x)
    rw [List.foldlM_cons, hfirst, List.foldl_cons, ← hrest]
    rfl

namespace Harness

variable (h : Harness)

/-- Record the verdicts of all properties on a term. -/
def recordTerm (s : Progress) (t : Term) : Progress :=
  h.properties.foldl (fun s p => s.record h.maxCounterexamples t p.name (p.verdict t)) s.next

theorem checkProperty_eq_ok {t : Term} {p : Property} {v : Verdict} (hjudge : p.judge t = .ok v)
    (hdescribe : ∃ line, t.describe = .ok line) (s : Progress) :
    h.checkProperty t s p = .ok (s.record h.maxCounterexamples t p.name (p.verdict t)) := by
  obtain ⟨line, hline⟩ := hdescribe
  have hdetail : t.detail = line := by rw [Term.detail, hline]; rfl
  rw [checkProperty, hjudge, Property.verdict_eq hjudge]
  cases v with
  | vacuous | upheld => rfl
  | violated =>
    simp only [recordViolation, Progress.record, hline, hdetail]
    split <;> rfl

theorem checkTerm_eq_ok {t : Term} (hjudges : h.Judges t) (s : Progress) :
    h.checkTerm s t = .ok (h.recordTerm s t) := by
  have heach : ∀ s, ∀ p ∈ h.properties, h.checkProperty t s p =
      .ok (s.record h.maxCounterexamples t p.name (p.verdict t)) := by
    intro s p hp
    obtain ⟨v, hv⟩ := hjudges.judge p hp
    exact h.checkProperty_eq_ok hv hjudges.describe s
  exact foldlM_eq_ok heach s.next

/-- A run over terms that every property can judge comes to an end, and tells the totals. -/
theorem run_eq_ok {terms : List Term} (hjudges : ∀ t ∈ terms, h.Judges t) :
    h.run terms = .ok (let s := terms.foldl h.recordTerm h.start
      s.tell (.done s.report.terms s.report.violations)) := by
  have hfold := foldlM_eq_ok (fun s t ht => h.checkTerm_eq_ok (hjudges t ht) s) h.start
  rw [run, hfold]; rfl

/-! ## What a run keeps -/

/-- The trials of a run in the order in which they are made. -/
def trials (terms : List Term) : List Trial :=
  terms.flatMap fun t => h.properties.map (⟨·, t⟩)

/-- Induction along a run.  The motive speaks of how many terms have been begun with, of the
trials made so far, and of what is known by then. -/
@[elab_as_elim]
theorem runInduction {motive : Nat → List Trial → Progress → Prop}
    (next : ∀ begun made s, motive begun made s → motive (begun + 1) made s.next)
    (record : ∀ begun made s (c : Trial), motive begun made s →
      motive begun (made ++ [c])
        (s.record h.maxCounterexamples c.term c.property.name c.verdict))
    {s : Progress} (start : motive 0 [] s) (terms : List Term) :
    motive terms.length (h.trials terms) (terms.foldl h.recordTerm s) := by
  have hterm : ∀ begun made s t, motive begun made s →
      motive (begun + 1) (made ++ h.properties.map (⟨·, t⟩)) (h.recordTerm s t) := by
    intro begun made s t hs
    have hnext := next begun made s hs
    rw [recordTerm]
    generalize s.next = s at hnext
    clear hs
    induction h.properties generalizing made s with
    | nil => simpa using hnext
    | cons p rest ih =>
      have hrest := ih (made ++ [⟨p, t⟩]) _ (record (begun + 1) made s ⟨p, t⟩ hnext)
      rw [List.append_assoc] at hrest
      exact hrest
  suffices hall : ∀ begun made s, motive begun made s →
      motive (begun + terms.length) (made ++ h.trials terms) (terms.foldl h.recordTerm s) by
    simpa using hall 0 [] s start
  intro begun made s hs
  induction terms generalizing begun made s with
  | nil => simpa [trials] using hs
  | cons t rest ih =>
    have hrest := ih _ _ _ (hterm begun made s t hs)
    rw [List.append_assoc] at hrest
    rwa [List.length_cons, Nat.add_comm rest.length, ← Nat.add_assoc]

/-- The verdicts on a population in the order in which they are reached, each under the name
of its property. -/
def verdicts (terms : List Term) : List (String × Verdict) :=
  terms.flatMap fun t => h.properties.map fun p => (p.name, p.verdict t)

theorem verdicts_eq (terms : List Term) :
    h.verdicts terms = (h.trials terms).map fun c => (c.property.name, c.verdict) := by
  simp [verdicts, trials, Trial.verdict, List.map_flatMap, Function.comp_def]

theorem terms_foldl_recordTerm (terms : List Term) (s : Progress) :
    (terms.foldl h.recordTerm s).report.terms = s.report.terms + terms.length := by
  refine h.runInduction (motive := fun begun _ s' =>
    s'.report.terms = s.report.terms + begun) ?_ ?_ rfl terms
  · intro begun made s' hs'
    exact congrArg (· + 1) hs'
  · intro begun made s' c hs'
    rw [Progress.terms_record, hs']

/-- The tallies after some terms are those before with the verdicts counted. -/
theorem tallies_foldl_recordTerm (terms : List Term) (s : Progress) :
    (terms.foldl h.recordTerm s).report.tallies =
      s.report.tallies.addAll (h.verdicts terms) := by
  rw [verdicts_eq]
  refine h.runInduction (motive := fun _ made s' => s'.report.tallies =
    s.report.tallies.addAll (made.map fun c => (c.property.name, c.verdict))) ?_ ?_ rfl terms
  · intro begun made s' hs'
    exact hs'
  · intro begun made s' c hs'
    rw [Progress.tallies_record, hs']
    simp [Tallies.addAll]

/-- After a run, the entry of a property's name is the tally of the verdicts under it. -/
theorem lookup_run (terms : List Term) {name : String}
    (hname : name ∈ h.properties.map (·.name)) :
    (terms.foldl h.recordTerm h.start).report.tallies.lookup name =
      some (.ofVerdicts (((h.verdicts terms).filter (·.1 = name)).map (·.2))) := by
  have hlisted : name ∈ (h.properties.map (·.name) ++ (h.verdicts terms).map (·.1)).eraseDups :=
    List.mem_eraseDups.mpr (List.mem_append_left _ hname)
  have hstart : h.start.report.tallies = .ofNames (h.properties.map (·.name)) := rfl
  rw [tallies_foldl_recordTerm, hstart, Tallies.addAll_ofNames]
  exact List.lookup_graph _ hlisted

/-- After a run, the violations are those among the verdicts. -/
theorem violations_run (terms : List Term) :
    (terms.foldl h.recordTerm h.start).report.violations =
      (h.verdicts terms).countP (·.2 = .violated) := by
  have hstart : h.start.report.tallies.violations = 0 := Tallies.violations_ofNames _
  show (terms.foldl h.recordTerm h.start).report.tallies.violations = _
  rw [tallies_foldl_recordTerm, Tallies.violations_addAll, hstart, Nat.zero_add]

/-! ## Violations that are told and kept -/

/-- The violations on a population in the order in which they are found. -/
def failures (terms : List Term) : List Counterexample :=
  terms.flatMap fun t => h.properties.flatMap fun p =>
    if p.verdict t = .violated then [⟨p.name, t, t.detail⟩] else []

theorem failures_eq (terms : List Term) :
    h.failures terms = (h.trials terms).flatMap fun c =>
      if c.verdict = .violated then [⟨c.property.name, c.term, c.term.detail⟩] else [] := by
  rw [failures, trials, List.flatMap_assoc]
  simp only [List.flatMap_map]
  rfl

/-- There are none exactly if no verdict is a violation. -/
theorem failures_eq_nil_iff {terms : List Term} :
    h.failures terms = [] ↔ (h.verdicts terms).countP (·.2 = .violated) = 0 := by
  have hfailures : h.failures terms = [] ↔
      ∀ t ∈ terms, ∀ p ∈ h.properties, p.verdict t ≠ .violated := by
    simp [failures]
  rw [hfailures, List.countP_eq_zero]
  constructor
  · intro hnone entry hentry
    obtain ⟨t, ht, hentry⟩ := List.mem_flatMap.mp hentry
    obtain ⟨p, hp, rfl⟩ := List.mem_map.mp hentry
    simpa using hnone t ht p hp
  · intro hnone t ht p hp
    simpa using hnone (p.name, p.verdict t)
      (List.mem_flatMap.mpr ⟨t, ht, List.mem_map.mpr ⟨p, hp, rfl⟩⟩)

theorem keeps_foldl_recordTerm (terms : List Term) {s : Progress}
    {found : List Counterexample} (hs : s.Keeps h.maxCounterexamples found) :
    (terms.foldl h.recordTerm s).Keeps h.maxCounterexamples (found ++ h.failures terms) := by
  rw [failures_eq]
  refine h.runInduction (motive := fun _ made s' => s'.Keeps h.maxCounterexamples
    (found ++ made.flatMap fun c =>
      if c.verdict = .violated then [⟨c.property.name, c.term, c.term.detail⟩] else []))
    ?_ ?_ (by simpa using hs) terms
  · intro begun made s' hs'
    exact hs'
  · intro begun made s' c hs'
    rw [List.flatMap_append, List.flatMap_singleton, ← List.append_assoc]
    exact hs'.record c.term c.property.name c.verdict

/-- All violations are told in the order in which they are found. -/
theorem events_foldl_recordTerm (terms : List Term) (s : Progress) :
    (terms.foldl h.recordTerm s).events.toList =
      s.events.toList ++ (h.failures terms).map fun e => .violation e.property e.term := by
  rw [failures_eq, List.map_flatMap]
  refine h.runInduction (motive := fun _ made s' => s'.events.toList =
    s.events.toList ++ made.flatMap fun c => (if c.verdict = .violated then
      [(⟨c.property.name, c.term, c.term.detail⟩ : Counterexample)] else []).map
        fun e => .violation e.property e.term) ?_ ?_ ?_ terms
  · intro begun made s' hs'
    exact hs'
  · intro begun made s' c hs'
    rw [Progress.events_record, hs', List.flatMap_append, List.flatMap_singleton,
      List.append_assoc]
    congr 2
    split <;> rfl
  · rw [List.flatMap_nil, List.append_nil]

/-- After a run, the counterexamples are the first of the violations. -/
theorem counterexamples_run (terms : List Term) :
    (terms.foldl h.recordTerm h.start).report.counterexamples.toList =
      (h.failures terms).take h.maxCounterexamples.toNat := by
  have hstart : h.start.Keeps h.maxCounterexamples [] := by
    simp [Progress.Keeps, start, Report.empty]
  exact h.keeps_foldl_recordTerm terms hstart

end Harness

end BoolNat
