import BoolNat.Metatheory.Report
import Mathlib.Data.List.Basic
import Mathlib.Data.List.Induction
import Mathlib.Data.List.Nodup
set_option autoImplicit false

/-! # Counting verdicts

Verdicts are counted one after the other, each under the name of its property.  In the end the
names stand in the order in which they first came up, and the entry of a name says how often
that name got which verdict (`Tallies.addAll_ofNames`).  It makes no difference whether entries
at zero were made for the names beforehand, apart from names that never come up.  The violations
of all entries are the violations among all verdicts, whatever their names
(`Tallies.violations_addAll`).
-/

namespace BoolNat

namespace Tally

/-- The tally of some verdicts. -/
def ofVerdicts (verdicts : List Verdict) : Tally where
  checked := verdicts.countP (· ≠ .vacuous)
  vacuous := verdicts.count .vacuous
  violations := verdicts.count .violated

/-- Verdicts counted one after the other add up to their tally. -/
theorem foldl_add_zero (verdicts : List Verdict) :
    verdicts.foldl add zero = ofVerdicts verdicts := by
  suffices h : ∀ tally : Tally, verdicts.foldl add tally =
      ⟨tally.checked + verdicts.countP (· ≠ .vacuous), tally.vacuous + verdicts.count .vacuous,
        tally.violations + verdicts.count .violated⟩ by
    rw [h]
    simp [zero, ofVerdicts]
  intro tally
  induction verdicts generalizing tally with
  | nil => rfl
  | cons verdict rest ih =>
    rw [List.foldl_cons, ih]
    cases verdict <;> simp [add] <;> omega

end Tally

namespace Tallies

/-- Count some verdicts, each under its name. -/
def addAll (tallies : Tallies) (verdicts : List (String × Verdict)) : Tallies :=
  verdicts.foldl (fun tallies v => tallies.update (·.add v.2) v.1) tallies

/-- The violations of all entries. -/
def violations (tallies : Tallies) : Nat :=
  tallies.foldr (fun entry n => entry.2.violations + n) 0

/-! ## The entries in the order of their names -/

theorem eraseDups_concat (names : List String) (name : String) :
    (names ++ [name]).eraseDups =
      if name ∈ names then names.eraseDups else names.eraseDups ++ [name] := by
  rw [List.eraseDups_append]
  by_cases h : name ∈ names <;> simp [List.removeAll, List.eraseDups_cons, h]

theorem nodup_eraseDups (names : List String) : names.eraseDups.Nodup := by
  induction names using List.reverseRecOn with
  | nil => exact List.nodup_nil
  | append_singleton names name ih =>
    rw [eraseDups_concat]
    split
    · exact ih
    · next hnew =>
      rw [← List.mem_eraseDups] at hnew
      rw [← List.concat_eq_append]
      exact ih.concat hnew

/-- Names that were met before add nothing. -/
theorem eraseDups_append_of_subset {names more : List String} (h : ∀ name ∈ more, name ∈ names) :
    (names ++ more).eraseDups = names.eraseDups := by
  have hnone : more.removeAll names = [] := by
    simpa [List.removeAll] using h
  rw [List.eraseDups_append, hnone, List.eraseDups_nil, List.append_nil]

/-- A change to one of some entries, which are listed by their names, or to a new one. -/
theorem update_map (change : Tally → Tally) (name : String) {names : List String}
    (hnodup : names.Nodup) {entry : String → Tally} (hnew : name ∉ names → entry name = .zero) :
    update change name (names.map fun key => (key, entry key)) =
      (if name ∈ names then names else names ++ [name]).map fun key =>
        (key, if name = key then change (entry key) else entry key) := by
  induction names with
  | nil => simp [update, hnew]
  | cons first rest ih =>
    obtain ⟨hfirst, hrest⟩ := List.nodup_cons.mp hnodup
    by_cases heq : first = name
    · subst heq
      have hothers : rest.map (fun key => (key, entry key)) = rest.map fun key =>
          (key, if first = key then change (entry key) else entry key) := by
        refine List.map_congr_left fun key hkey => ?_
        rw [if_neg]
        rintro rfl
        exact hfirst hkey
      simp [update, hothers]
    · have hmem : name ∈ first :: rest ↔ name ∈ rest := by
        simp [Ne.symm heq]
      have hchanged := ih hrest fun h => hnew fun h' => h (hmem.mp h')
      simp only [List.map_cons, update, if_neg heq, hchanged, hmem]
      split <;> simp [Ne.symm heq]

/-- The tallies after some changes, each to the entry of its name. -/
def ofChanges (changes : List (String × (Tally → Tally))) : Tallies :=
  changes.foldl (fun tallies change => update change.2 change.1 tallies) []

/-- What some changes, each to the entry of its name, make of the entry of a name. -/
def entryAfter (changes : List (String × (Tally → Tally))) (name : String) : Tally :=
  changes.foldl (fun tally change => if change.1 = name then change.2 tally else tally) .zero

theorem entryAfter_of_not_mem {changes : List (String × (Tally → Tally))} {name : String}
    (h : name ∉ changes.map (·.1)) : entryAfter changes name = .zero := by
  refine List.foldlRecOn (motive := (· = Tally.zero)) changes _ rfl ?_
  intro tally htally change hchange
  have hother : change.1 ≠ name := fun heq => h (heq ▸ List.mem_map_of_mem hchange)
  rw [if_neg hother, htally]

/-- The names stand in the order in which they were first met, each once, and every entry is
what the changes to it have made of it. -/
theorem ofChanges_eq (changes : List (String × (Tally → Tally))) :
    ofChanges changes =
      (changes.map (·.1)).eraseDups.map fun name => (name, entryAfter changes name) := by
  induction changes using List.reverseRecOn with
  | nil => rfl
  | append_singleton changes change ih =>
    have hlast : ofChanges (changes ++ [change]) = update change.2 change.1 (ofChanges changes) :=
      List.foldl_append
    have hnew : change.1 ∉ (changes.map (·.1)).eraseDups →
        entryAfter changes change.1 = .zero := by
      rw [List.mem_eraseDups]
      exact entryAfter_of_not_mem
    rw [hlast, ih, update_map change.2 change.1 (nodup_eraseDups _) hnew, List.map_append,
      List.map_singleton, eraseDups_concat]
    simp only [List.mem_eraseDups, entryAfter, List.foldl_append, List.foldl_cons, List.foldl_nil]

/-- The entry of a name counts the verdicts under that name, whether there was an entry for it
at the start or not. -/
theorem addAll_ofNames (names : List String) (verdicts : List (String × Verdict)) :
    (ofNames names).addAll verdicts =
      (names ++ verdicts.map (·.1)).eraseDups.map fun name =>
        (name, .ofVerdicts ((verdicts.filter (·.1 = name)).map (·.2))) := by
  let changes : List (String × (Tally → Tally)) :=
    names.map (·, id) ++ verdicts.map fun v => (v.1, (·.add v.2))
  have hchanges : (ofNames names).addAll verdicts = ofChanges changes := by
    simp [changes, ofNames, addAll, ofChanges, List.foldl_map]
  have hnames : changes.map (·.1) = names ++ verdicts.map (·.1) := by
    simp [changes, Function.comp_def]
  have hentry : ∀ name, entryAfter changes name =
      .ofVerdicts ((verdicts.filter (·.1 = name)).map (·.2)) := by
    intro name
    rw [← Tally.foldl_add_zero, List.foldl_map, List.foldl_filter]
    simp [entryAfter, changes, List.foldl_map]
  simp only [hchanges, ofChanges_eq, hnames, hentry]

/-! ## The violations of all entries -/

/-- A change that adds some violations to the entry of a name adds them to the total. -/
theorem violations_update {change : Tally → Tally} {more : Nat}
    (h : ∀ tally, (change tally).violations = tally.violations + more) (name : String)
    (tallies : Tallies) :
    (update change name tallies).violations = tallies.violations + more := by
  induction tallies with
  | nil => simp [update, violations, h, Tally.zero]
  | cons entry rest ih =>
    obtain ⟨first, tally⟩ := entry
    unfold violations at ih ⊢
    by_cases hfirst : first = name
    · simp only [update, if_pos hfirst, List.foldr_cons, h]
      omega
    · simp only [update, if_neg hfirst, List.foldr_cons, ih]
      omega

theorem violations_ofNames (names : List String) : (ofNames names).violations = 0 := by
  suffices h : ∀ tallies : Tallies,
      (names.foldl (fun tallies name => update id name tallies) tallies).violations =
        tallies.violations from h []
  intro tallies
  induction names generalizing tallies with
  | nil => rfl
  | cons first rest ih =>
    have hid : ∀ tally : Tally, (id tally).violations = tally.violations + 0 := fun _ => rfl
    rw [List.foldl_cons, ih, violations_update hid, Nat.add_zero]

/-- The violations of all entries are those among the verdicts. -/
theorem violations_addAll (tallies : Tallies) (verdicts : List (String × Verdict)) :
    (tallies.addAll verdicts).violations =
      tallies.violations + verdicts.countP (·.2 = .violated) := by
  induction verdicts generalizing tallies with
  | nil => rfl
  | cons v rest ih =>
    have hcons : tallies.addAll (v :: rest) = (tallies.update (·.add v.2) v.1).addAll rest := rfl
    have hadd : ∀ tally : Tally, (tally.add v.2).violations =
        tally.violations + if v.2 = .violated then 1 else 0 := by
      intro tally
      cases v.2 <;> rfl
    rw [hcons, ih, violations_update hadd, List.countP_cons]
    simp only [decide_eq_true_eq]
    omega

end Tallies

end BoolNat
