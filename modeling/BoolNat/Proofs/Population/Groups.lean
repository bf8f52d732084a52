import BoolNat.Population.Enumerate
import Mathlib.Data.List.Nodup
set_option autoImplicit false

/-! # What a population is put together from

A population lists terms of the calculus.  It is exhaustive for a property if it holds every
term with the property, once, and nothing else (`Enumerates`).

Populations are put together from smaller ones: a list is mapped to the terms with one of its
members as a part, lists are put one after the other, and groups are collected over a list of
keys.  Each of these keeps exhaustiveness as long as the property of a term tells which part of
the list it is in.  The three groups every population is made of are exhaustive for the shape of
their terms: the constants, the operators over the terms of a population, and the conditionals
over the terms of three (`Enumerates.constants`, `Enumerates.operations`,
`Enumerates.conditionals`).
-/

namespace BoolNat.Population

/-- The list holds every term of the calculus that has the property, once, and nothing else. -/
structure Enumerates (terms : List Term) (p : Term → Prop) : Prop where
  nodup : terms.Nodup
  mem_iff : ∀ t, t ∈ terms ↔ t.isProper = true ∧ p t

namespace Enumerates

variable {terms : List Term} {p q r : Term → Prop}

/-- The property only matters for terms of the calculus. -/
theorem congr (h : Enumerates terms p) (hpq : ∀ t : Term, t.isProper = true → (p t ↔ q t)) :
    Enumerates terms q := by
  refine ⟨h.nodup, fun t => ?_⟩
  rw [h.mem_iff]
  exact and_congr_right (hpq t)

/-- There is nothing to list exactly if no term of the calculus has the property. -/
theorem eq_nil_iff (h : Enumerates terms p) :
    terms = [] ↔ ∀ t : Term, t.isProper = true → ¬ p t := by
  simp only [List.eq_nil_iff_forall_not_mem, h.mem_iff, not_and]

theorem nil (h : ∀ t : Term, ¬ p t) : Enumerates [] p := by
  refine ⟨List.nodup_nil, fun t => ?_⟩
  exact iff_of_false List.not_mem_nil fun ht => h t ht.2

/-! ## Putting lists together -/

/-- The terms that are built in one way from the members of a list. -/
theorem map (h : Enumerates terms p) {build : Term → Term} (hinj : Function.Injective build)
    (hproper : ∀ t, (build t).isProper = t.isProper) :
    Enumerates (terms.map build) (fun t => ∃ u, build u = t ∧ p u) := by
  refine ⟨h.nodup.map hinj, fun t => ?_⟩
  rw [List.mem_map]
  constructor
  · rintro ⟨u, hu, rfl⟩
    obtain ⟨hup, hpu⟩ := (h.mem_iff u).mp hu
    exact ⟨(hproper u).trans hup, u, rfl, hpu⟩
  · rintro ⟨hup, u, rfl, hpu⟩
    exact ⟨u, (h.mem_iff u).mpr ⟨(hproper u).symm.trans hup, hpu⟩, rfl⟩

/-- Two lists whose properties exclude each other, one after the other. -/
theorem append {terms' : List Term} (h : Enumerates terms p) (h' : Enumerates terms' q)
    (hexclude : ∀ t, p t → ¬ q t) : Enumerates (terms ++ terms') (fun t => p t ∨ q t) := by
  refine ⟨h.nodup.append h'.nodup ?_, fun t => ?_⟩
  · intro t ht ht'
    exact hexclude t ((h.mem_iff t).mp ht).2 ((h'.mem_iff t).mp ht').2
  · rw [List.mem_append, h.mem_iff, h'.mem_iff, and_or_left]

/-- Groups over keys, where the property of a term tells the key of its group. -/
theorem flatMap {α : Type} {keys : List α} {group : α → List Term} {p : α → Term → Prop}
    (hkeys : keys.Nodup) (h : ∀ k ∈ keys, Enumerates (group k) (p k))
    (hunique : ∀ k k' t, p k t → p k' t → k = k') :
    Enumerates (keys.flatMap group) (fun t => ∃ k ∈ keys, p k t) := by
  have hmem : ∀ k ∈ keys, ∀ t ∈ group k, p k t := by
    intro k hk t ht
    exact (((h k hk).mem_iff t).mp ht).2
  refine ⟨List.nodup_flatMap.mpr ⟨fun k hk => (h k hk).nodup, ?_⟩, fun t => ?_⟩
  · refine hkeys.pairwise_of_forall_ne ?_
    intro k hk k' hk' hne t ht ht'
    exact hne (hunique k k' t (hmem k hk t ht) (hmem k' hk' t ht'))
  · rw [List.mem_flatMap]
    constructor
    · rintro ⟨k, hk, ht⟩
      obtain ⟨htp, hpt⟩ := ((h k hk).mem_iff t).mp ht
      exact ⟨htp, k, hk, hpt⟩
    · rintro ⟨htp, k, hk, hpt⟩
      exact ⟨k, hk, ((h k hk).mem_iff t).mpr ⟨htp, hpt⟩⟩

/-! ## The three groups -/

theorem constants : Enumerates constants (fun t => t.children = []) := by
  refine ⟨by decide, fun t => ?_⟩
  cases t <;> simp [Population.constants, Term.isProper, Term.children]

theorem operations (h : Enumerates terms p) :
    Enumerates (operations terms) (fun t => ∃ op u, Operator.apply op u = t ∧ p u) := by
  have hgroup : ∀ op ∈ Operator.all, Enumerates (terms.map op.apply)
      (fun t => ∃ u, op.apply u = t ∧ p u) := by
    intro op _
    exact h.map (fun _ _ heq => (Operator.apply_inj.mp heq).2) (Term.isProper_apply op)
  have hunique : ∀ (op op' : Operator) (t : Term), (∃ u, op.apply u = t ∧ p u) →
      (∃ u, op'.apply u = t ∧ p u) → op = op' := by
    rintro op op' t ⟨u, rfl, _⟩ ⟨u', heq, _⟩
    exact (Operator.apply_inj.mp heq).1.symm
  refine (Enumerates.flatMap (by decide) hgroup hunique).congr fun t _ => ?_
  exact exists_congr fun op => and_iff_right op.mem_all

theorem conditionals {cs ts es : List Term} (hcs : Enumerates cs p) (hts : Enumerates ts q)
    (hes : Enumerates es r) :
    Enumerates (conditionals cs ts es)
      (fun t => ∃ c u e, Term.ite c u e = t ∧ p c ∧ q u ∧ r e) := by
  have hsame : ∀ c ∈ cs, ∀ u ∈ ts, Enumerates (es.map (.ite c u))
      (fun t => ∃ e, Term.ite c u e = t ∧ r e) := by
    intro c hc u hu
    refine hes.map (fun _ _ heq => (Term.ite.inj heq).2.2) fun e => ?_
    rw [Term.isProper, ((hcs.mem_iff c).mp hc).1, ((hts.mem_iff u).mp hu).1]
    rfl
  have hcondition : ∀ c ∈ cs, Enumerates (ts.flatMap fun u => es.map (.ite c u))
      (fun t => ∃ u ∈ ts, ∃ e, Term.ite c u e = t ∧ r e) := by
    intro c hc
    refine Enumerates.flatMap hts.nodup (hsame c hc) ?_
    rintro u u' t ⟨e, rfl, _⟩ ⟨e', heq, _⟩
    exact (Term.ite.inj heq).2.1.symm
  have hunique : ∀ c c' t, (∃ u ∈ ts, ∃ e, Term.ite c u e = t ∧ r e) →
      (∃ u ∈ ts, ∃ e, Term.ite c' u e = t ∧ r e) → c = c' := by
    rintro c c' t ⟨u, _, e, rfl, _⟩ ⟨u', _, e', heq, _⟩
    exact (Term.ite.inj heq).1.symm
  refine (Enumerates.flatMap hcs.nodup hcondition hunique).congr fun t htp => ?_
  constructor
  · rintro ⟨c, hc, u, hu, e, rfl, he⟩
    exact ⟨c, u, e, rfl, ((hcs.mem_iff c).mp hc).2, ((hts.mem_iff u).mp hu).2, he⟩
  · rintro ⟨c, u, e, rfl, hc, hu, he⟩
    obtain ⟨hcp, hup, _⟩ := Term.isProper_ite.mp htp
    exact ⟨c, (hcs.mem_iff c).mpr ⟨hcp, hc⟩, u, (hts.mem_iff u).mpr ⟨hup, hu⟩, e, rfl, he⟩

end Enumerates

/-- No term is in both of the last two groups. -/
theorem not_conditional_of_operation {p : Term → Prop} {q : Term → Term → Term → Prop} {t : Term}
    (h : ∃ op u, Operator.apply op u = t ∧ p u) : ¬ ∃ c u e, Term.ite c u e = t ∧ q c u e := by
  obtain ⟨op, u, rfl, _⟩ := h
  rintro ⟨c, u', e, heq, _⟩
  exact op.apply_ne_ite u c u' e heq.symm

/-! ## How many there are -/

theorem length_operations (terms : List Term) :
    (operations terms).length = 3 * terms.length := by
  simp only [operations, Operator.all, List.flatMap_cons, List.flatMap_nil, List.length_append,
    List.length_map, List.length_nil]
  omega

theorem length_conditionals (cs ts es : List Term) :
    (conditionals cs ts es).length = cs.length * (ts.length * es.length) := by
  simp [conditionals, List.length_flatMap]

end BoolNat.Population
