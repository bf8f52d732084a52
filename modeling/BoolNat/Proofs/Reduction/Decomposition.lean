import BoolNat.Proofs.Reduction.Step
import Mathlib.Logic.ExistsUnique
set_option autoImplicit false

/-! # Unique decomposition

A term that is no value is an evaluation context around one term that evaluation works at,
its *site*: a redex, which is contracted next, or a fault, which blocks evaluation.  There is
only one way to see it so (`Context.plug_inj_of_isSite`), because the part of a site that is
evaluated first is a value, whereas a context that is more than its hole puts a term there
that is none.

With existence (`Term.exists_plug_focus`, `Term.isSite_focus`) this describes the step by
contexts alone: a value, a context around a redex and a context around a fault are the three
situations a term can be in, and they exclude each other (`unique_decomposition`).
-/

namespace BoolNat

namespace Term

/-- Evaluation works at this term: it is contracted next, or it blocks evaluation. -/
def isSite (t : Term) : Bool := t.isRedex || t.isFault

theorem isSite_iff {t : Term} : t.isSite = true ↔ t.isRedex = true ∨ t.isFault = true := by
  simp [isSite]

theorem isRedex_iff {r : Term} : r.isRedex = true ↔ ∃ r', r.contract? = some r' :=
  Option.isSome_iff_exists

/-- A fault is a conditional over a numeral, an operator over a truth value, or a foreign
leaf. -/
theorem isFault_iff {w : Term} :
    w.isFault = true ↔ (∃ c t e : Term, w = .ite c t e ∧ c.isNumeric = true) ∨
      (∃ (op : Operator) (t : Term), w = op.apply t ∧ t.isBoolean = true) ∨
        ∃ leaf : Foreign, w = .foreign leaf := by
  constructor
  · intro h
    cases w with
    | tru | fls | zero => cases h
    | foreign leaf => exact .inr (.inr ⟨leaf, rfl⟩)
    | ite c t e => exact .inl ⟨c, t, e, rfl, h⟩
    | succ t => exact .inr (.inl ⟨.succ, t, rfl, h⟩)
    | pred t => exact .inr (.inl ⟨.pred, t, rfl, h⟩)
    | isZero t => exact .inr (.inl ⟨.isZero, t, rfl, h⟩)
  · rintro (⟨c, t, e, rfl, h⟩ | ⟨op, t, rfl, h⟩ | ⟨leaf, rfl⟩)
    · exact h
    · cases op <;> exact h
    · rfl

/-- A redex is no fault, since it steps. -/
theorem isFault_of_isRedex {r : Term} (h : r.isRedex = true) : r.isFault = false := by
  obtain ⟨r', hr⟩ := isRedex_iff.mp h
  cases hf : r.isFault with
  | false => rfl
  | true =>
    have hstep := step_of_contract hr
    rw [step_of_isFault hf] at hstep
    cases hstep

/-- A site is no value. -/
theorem isValue_of_isSite {t : Term} (h : t.isSite = true) : t.isValue = false := by
  rcases isSite_iff.mp h with hr | hf
  · obtain ⟨r', hr⟩ := isRedex_iff.mp hr
    exact isValue_of_step (step_of_contract hr)
  · exact (isStuck_iff.mp (isStuck_of_isFault hf)).2

/-- A conditional is a site if its condition is a value: a truth value makes it a redex, a
numeral makes it a fault. -/
theorem isSite_ite (c t e : Term) : (ite c t e).isSite = c.isValue := by
  rw [isSite, isRedex_ite]; rfl

/-- A predecessor or a test for zero is a site if its operand is a value, the other way
round. -/
theorem isSite_apply_of_ne {op : Operator} (h : op ≠ .succ) (t : Term) :
    (op.apply t).isSite = t.isValue := by
  have hfault : (op.apply t).isFault = t.isBoolean := by cases op <;> rfl
  rw [isSite, isRedex_apply h, hfault, isValue, Bool.or_comm]

/-- A successor is never contracted. -/
theorem isSite_succ (t : Term) : (succ t).isSite = t.isBoolean := rfl

/-- The operand of a site is a value. -/
theorem isValue_of_isSite_apply {op : Operator} {t : Term} (h : (op.apply t).isSite = true) :
    t.isValue = true := by
  by_cases hop : op = .succ
  · subst hop
    have hb : t.isBoolean = true := h
    simp [isValue, hb]
  · rwa [isSite_apply_of_ne hop] at h

/-- An operator over a value is a site, unless it makes the value a larger numeral. -/
theorem isSite_apply {op : Operator} {t : Term} (h : t.isValue = true)
    (hv : (op.apply t).isValue = false) : (op.apply t).isSite = true := by
  by_cases hop : op = .succ
  · subst hop
    have hn : t.isNumeric = false := hv
    simpa [isSite_succ, Operator.apply, isValue, hn] using h
  · rwa [isSite_apply_of_ne hop]

end Term

/-! ## At most one decomposition -/

namespace Context

/-- What stands in the hole of a value is a value. -/
theorem isValue_of_plug (E : Context) {t : Term} (h : (E.plug t).isValue = true) :
    t.isValue = true := by
  induction E with
  | hole => exact h
  | condition inner t e ih => cases h
  | operand op inner ih =>
    cases op with
    | succ => exact ih (Term.isValue_of_isNumeric h)
    | pred | isZero => cases h

/-- The context of a site inside a site is the hole: whatever else it were, the site outside
would have to evaluate a term that is no value first. -/
theorem eq_hole_of_isSite {E : Context} {u : Term} (hu : u.isSite = true)
    (h : (E.plug u).isSite = true) : E = .hole := by
  have absurd_value : ∀ inner : Context, (inner.plug u).isValue ≠ true := by
    intro inner hv
    have hvalue := inner.isValue_of_plug hv
    rw [Term.isValue_of_isSite hu] at hvalue
    cases hvalue
  cases E with
  | hole => rfl
  | condition inner t e => exact (absurd_value inner (Term.isSite_ite _ t e ▸ h)).elim
  | operand op inner => exact (absurd_value inner (Term.isValue_of_isSite_apply h)).elim

/-- A term is a context around a site in one way at most. -/
theorem plug_inj_of_isSite {E E' : Context} {u u' : Term} (hu : u.isSite = true)
    (hu' : u'.isSite = true) (h : E.plug u = E'.plug u') : E = E' ∧ u = u' := by
  induction E generalizing E' with
  | hole =>
    have hE' : E' = .hole := eq_hole_of_isSite hu' (h ▸ hu)
    subst hE'
    exact ⟨rfl, h⟩
  | condition inner t e ih =>
    cases E' with
    | hole =>
      have hE := eq_hole_of_isSite (E := .condition inner t e) hu (h ▸ hu')
      cases hE
    | condition inner' t' e' =>
      injection h with hc ht he
      obtain ⟨rfl, rfl⟩ := ih hc
      rw [ht, he]
      exact ⟨rfl, rfl⟩
    | operand op inner' => cases op <;> cases h
  | operand op inner ih =>
    cases E' with
    | hole =>
      have hE := eq_hole_of_isSite (E := .operand op inner) hu (h ▸ hu')
      cases hE
    | condition inner' t' e' => cases op <;> cases h
    | operand op' inner' =>
      obtain ⟨rfl, ht⟩ := Operator.apply_inj.mp h
      obtain ⟨rfl, rfl⟩ := ih ht
      exact ⟨rfl, rfl⟩

end Context

/-! ## The decomposition at the focus -/

namespace Term

theorem focus_apply (op : Operator) (t : Term) :
    (op.apply t).focus = if t.isValue then op.apply t else t.focus := by
  cases op <;> rfl

/-- A term is some context around its focus. -/
theorem exists_plug_focus (t : Term) : ∃ E : Context, E.plug t.focus = t := by
  induction t using operatorInduction with
  | tru | fls | zero | foreign => exact ⟨.hole, rfl⟩
  | apply op t ih =>
    rw [focus_apply]
    split
    · exact ⟨.hole, rfl⟩
    · obtain ⟨E, hE⟩ := ih
      exact ⟨.operand op E, by rw [Context.plug, hE]⟩
  | ite c t e ih =>
    rw [focus]
    split
    · exact ⟨.hole, rfl⟩
    · obtain ⟨E, hE⟩ := ih
      exact ⟨.condition E t e, by rw [Context.plug, hE]⟩

/-- The focus of a term that is no value is a site. -/
theorem isSite_focus {t : Term} (h : t.isValue = false) : t.focus.isSite = true := by
  induction t using operatorInduction with
  | tru | fls | zero => cases h
  | foreign => rfl
  | apply op t ih =>
    rw [focus_apply]
    split
    · next hv => exact isSite_apply hv h
    · next hv => exact ih (Bool.eq_false_iff.mpr hv)
  | ite c t e ih =>
    rw [focus]
    split
    · next hv => rwa [isSite_ite]
    · next hv => exact ih (Bool.eq_false_iff.mpr hv)

/-! ## What the decomposition says about the step -/

/-- A redex in an evaluation context is contracted there. -/
theorem step_plug_of_contract {r r' : Term} (E : Context) (h : r.contract? = some r') :
    (E.plug r).step = some (E.plug r') :=
  ((Step.of_step (step_of_contract h)).plug E).step_eq

/-- The focus of a stuck term is a fault. -/
theorem isFault_focus_of_isStuck {t : Term} (h : t.isStuck = true) : t.focus.isFault = true := by
  obtain ⟨hstep, hv⟩ := isStuck_iff.mp h
  obtain ⟨E, hE⟩ := t.exists_plug_focus
  rcases isSite_iff.mp (isSite_focus hv) with hr | hf
  · obtain ⟨r', hr⟩ := isRedex_iff.mp hr
    have hsome := step_plug_of_contract E hr
    rw [hE, hstep] at hsome
    cases hsome
  · exact hf

/-- A term is stuck exactly if it is an evaluation context around a fault. -/
theorem isStuck_iff_exists_fault {t : Term} :
    t.isStuck = true ↔ ∃ (E : Context) (w : Term), w.isFault = true ∧ t = E.plug w := by
  constructor
  · intro h
    obtain ⟨E, hE⟩ := t.exists_plug_focus
    exact ⟨E, t.focus, isFault_focus_of_isStuck h, hE.symm⟩
  · rintro ⟨E, w, hw, rfl⟩
    exact isStuck_plug E (isStuck_of_isFault hw)

/-- What steps is an evaluation context around the redex that the step contracts. -/
theorem exists_redex_of_step {t t' : Term} (h : t.step = some t') :
    ∃ (E : Context) (r r' : Term), r.contract? = some r' ∧ t = E.plug r ∧ t' = E.plug r' := by
  obtain ⟨E, hE⟩ := t.exists_plug_focus
  rcases isSite_iff.mp (isSite_focus (isValue_of_step h)) with hr | hf
  · obtain ⟨r', hr'⟩ := isRedex_iff.mp hr
    have hstep := step_plug_of_contract E hr'
    rw [hE, h] at hstep
    exact ⟨E, t.focus, r', hr', hE.symm, Option.some.inj hstep⟩
  · have hstuck := isStuck_iff_exists_fault.mpr ⟨E, t.focus, hf, hE.symm⟩
    rw [(isStuck_iff.mp hstuck).1] at h
    cases h

theorem contract?_ite_ofBool (b : Bool) (t e : Term) :
    (ite (ofBool b) t e).contract? = some (bif b then t else e) := by
  cases b <;> rfl

/-- A conditional is contracted to one of its branches. -/
theorem contract?_ite_cases {c t e r : Term} (h : (ite c t e).contract? = some r) :
    r = t ∨ r = e := by
  cases c with
  | tru => exact .inl (Option.some.inj h).symm
  | fls => exact .inr (Option.some.inj h).symm
  | _ => cases h

/-- A redex is a conditional over a truth value, which picks a branch, or an operator. -/
theorem contract?_cases {r r' : Term} (h : r.contract? = some r') :
    (∃ (b : Bool) (t e : Term), r = .ite (.ofBool b) t e ∧ r' = bif b then t else e) ∨
      ∃ (op : Operator) (t : Term), r = op.apply t := by
  cases r with
  | ite c t e =>
    refine .inl ?_
    cases c with
    | tru => exact ⟨true, t, e, rfl, (Option.some.inj h).symm⟩
    | fls => exact ⟨false, t, e, rfl, (Option.some.inj h).symm⟩
    | _ => cases h
  | succ t => exact .inr ⟨.succ, t, rfl⟩
  | pred t => exact .inr ⟨.pred, t, rfl⟩
  | isZero t => exact .inr ⟨.isZero, t, rfl⟩
  | tru | fls | zero | foreign => cases h

/-- An operator that can be contracted is one over a numeral. -/
theorem isNumeric_of_contract_apply {op : Operator} {t r' : Term}
    (h : (op.apply t).contract? = some r') : t.isNumeric = true := by
  have hredex : (op.apply t).isRedex = true := isRedex_iff.mpr ⟨r', h⟩
  by_cases hop : op = .succ
  · subst hop
    cases h
  · rwa [isRedex_apply hop] at hredex

/-- The pair of an evaluation context and a term of the given kind makes up `t`. -/
def Decomposes (t : Term) (kind : Term → Bool) (p : Context × Term) : Prop :=
  kind p.2 = true ∧ p.1.plug p.2 = t

/-- A value is no context around a site. -/
theorem not_decomposes_of_isValue {t : Term} (h : t.isValue = true) {kind : Term → Bool}
    (hkind : ∀ u, kind u = true → u.isSite = true) (p : Context × Term) :
    ¬ t.Decomposes kind p := by
  rintro ⟨hk, rfl⟩
  have hv := p.1.isValue_of_plug h
  rw [isValue_of_isSite (hkind _ hk)] at hv
  cases hv

/-- A decomposition at a site is the only one, and no other kind of site has one. -/
theorem Decomposes.unique {t : Term} {kind kind' : Term → Bool}
    (hkind : ∀ u, kind u = true → u.isSite = true)
    (hkind' : ∀ u, kind' u = true → u.isSite = true) {p p' : Context × Term}
    (h : t.Decomposes kind p) (h' : t.Decomposes kind' p') : p = p' := by
  obtain ⟨hk, hp⟩ := h
  obtain ⟨hk', hp'⟩ := h'
  have heq := Context.plug_inj_of_isSite (hkind _ hk) (hkind' _ hk') (hp.trans hp'.symm)
  exact Prod.ext heq.1 heq.2

theorem isSite_of_isRedex (u : Term) (h : u.isRedex = true) : u.isSite = true :=
  isSite_iff.mpr (.inl h)

theorem isSite_of_isFault (u : Term) (h : u.isFault = true) : u.isSite = true :=
  isSite_iff.mpr (.inr h)

/-- No term is both a context around a redex and a context around a fault. -/
theorem Decomposes.not_redex_and_fault {t : Term} {p p' : Context × Term}
    (hr : t.Decomposes isRedex p) (hf : t.Decomposes isFault p') : False := by
  have hp := hr.unique isSite_of_isRedex isSite_of_isFault hf
  have hfault := hf.1
  rw [← hp, isFault_of_isRedex hr.1] at hfault
  cases hfault

end Term

/-- A term is a value, or an evaluation context around a redex, which is contracted by the
step, or an evaluation context around a fault, and does not step.  It is only one of the
three, and context, redex and fault are determined by it; the stuck terms are those of the
third kind. -/
theorem unique_decomposition (t : Term) :
    ((t.isValue = true ∧ (∀ p, ¬ t.Decomposes Term.isRedex p) ∧
          ∀ p, ¬ t.Decomposes Term.isFault p) ∨
        (t.isValue = false ∧ (∃! p, t.Decomposes Term.isRedex p) ∧
          (∀ p, ¬ t.Decomposes Term.isFault p) ∧
          ∀ (E : Context) (r r' : Term), E.plug r = t → r.contract? = some r' →
            t.step = some (E.plug r')) ∨
        (t.isValue = false ∧ (∀ p, ¬ t.Decomposes Term.isRedex p) ∧
          (∃! p, t.Decomposes Term.isFault p) ∧ t.step = none)) ∧
      (t.isStuck = true ↔ ∃ (E : Context) (w : Term), w.isFault = true ∧ t = E.plug w) := by
  refine ⟨?_, Term.isStuck_iff_exists_fault⟩
  cases hv : t.isValue with
  | true =>
    refine .inl ⟨rfl, ?_, ?_⟩
    · exact Term.not_decomposes_of_isValue hv Term.isSite_of_isRedex
    · exact Term.not_decomposes_of_isValue hv Term.isSite_of_isFault
  | false =>
    refine .inr ?_
    obtain ⟨E, hE⟩ := t.exists_plug_focus
    rcases Term.isSite_iff.mp (Term.isSite_focus hv) with hr | hf
    · have hdec : t.Decomposes Term.isRedex (E, t.focus) := ⟨hr, hE⟩
      refine .inl ⟨rfl, ⟨(E, t.focus), hdec, ?_⟩, ?_, ?_⟩
      · intro p hp
        exact hp.unique Term.isSite_of_isRedex Term.isSite_of_isRedex hdec
      · intro p hp
        exact hdec.not_redex_and_fault hp
      · rintro E' r r' rfl hcontract
        exact Term.step_plug_of_contract E' hcontract
    · have hdec : t.Decomposes Term.isFault (E, t.focus) := ⟨hf, hE⟩
      have hstuck := Term.isStuck_iff_exists_fault.mpr ⟨E, t.focus, hf, hE.symm⟩
      refine .inr ⟨rfl, ?_, ⟨(E, t.focus), hdec, ?_⟩, (Term.isStuck_iff.mp hstuck).1⟩
      · intro p hp
        exact hp.not_redex_and_fault hdec
      · intro p hp
        exact hp.unique Term.isSite_of_isFault Term.isSite_of_isFault hdec

end BoolNat
