import BoolNat.Proofs.Reduction.Sequence
import BoolNat.Reduction.BigStep
set_option autoImplicit false

/-! # Evaluation in one go and step by step

`Term.bigStep` finds a value exactly when stepping ends there, and finds nothing exactly
when stepping gets stuck (`bigStep_eq_iff`); that is, it finds the normal form if this is a
value (`Term.bigStep_eq_normalForm`).  Nothing is assumed about the term: a branch
that is dropped may be ill typed, and a foreign leaf is one of the ways to get stuck.

The invariant of the induction is `EndsWith`: what the evaluator answers for a part is a
value that the part reaches, or no answer and a stuck term that it reaches.  That the
answers are values is what makes the predecessor of an unexamined successor right.
-/

namespace BoolNat

/-- Stepping from `t` ends at the value, if one is given, and at a stuck term otherwise. -/
def EndsWith (t : Term) : Option Term → Prop
  | some v => v.isValue = true ∧ Reaches t v
  | none => ∃ w, Reaches t w ∧ w.isStuck = true

namespace EndsWith

theorem of_isValue {v : Term} (h : v.isValue = true) : EndsWith v (some v) := ⟨h, .refl v⟩

theorem of_isFault {w : Term} (h : w.isFault = true) : EndsWith w none :=
  ⟨w, .refl w, Term.isStuck_of_isFault h⟩

/-- What is reached on the way ends in the same place. -/
theorem of_reaches {t u : Term} {answer : Option Term} (h : Reaches t u)
    (hu : EndsWith u answer) : EndsWith t answer := by
  cases answer with
  | some v => exact ⟨hu.1, h.trans hu.2⟩
  | none =>
    obtain ⟨w, hw, hs⟩ := hu
    exact ⟨w, h.trans hw, hs⟩

/-- In an evaluation context, what gets stuck gets the whole stuck, and what has a value
is run to it. -/
theorem plug {t : Term} {answer : Option Term} (E : Context) (h : EndsWith t answer) :
    (answer = none ∧ EndsWith (E.plug t) none) ∨
      ∃ v, answer = some v ∧ v.isValue = true ∧ Reaches (E.plug t) (E.plug v) := by
  cases answer with
  | none =>
    obtain ⟨w, hw, hs⟩ := h
    exact .inl ⟨rfl, E.plug w, hw.plug E, Term.isStuck_plug E hs⟩
  | some v =>
    obtain ⟨hv, hr⟩ := h
    exact .inr ⟨v, rfl, hv, hr.plug E⟩

/-- Stepping ends in one place only, since a stuck term is no value. -/
theorem unique {t : Term} {answer answer' : Option Term} (h : EndsWith t answer)
    (h' : EndsWith t answer') : answer = answer' := by
  have clash : ∀ v w : Term, v.isValue = true → Reaches t v → Reaches t w →
      w.isStuck = true → False := by
    intro v w hv hr hw hs
    obtain ⟨hn, hnv⟩ := Term.isStuck_iff.mp hs
    rw [hw.normal_unique hn hr (Term.step_of_isValue hv), hv] at hnv
    cases hnv
  cases answer with
  | none =>
    obtain ⟨w, hw, hs⟩ := h
    cases answer' with
    | none => rfl
    | some v => exact (clash v w h'.1 h'.2 hw hs).elim
  | some v =>
    obtain ⟨hv, hr⟩ := h
    cases answer' with
    | none =>
      obtain ⟨w, hw, hs⟩ := h'
      exact (clash v w hv hr hw hs).elim
    | some v' =>
      rw [hr.normal_unique (Term.step_of_isValue hv) h'.2 (Term.step_of_isValue h'.1)]

end EndsWith

/-- The invariant holds of every answer, by induction on the term.  Once the part that is
needed first has a value, the kind of the value says which rule comes next or that there
is none. -/
theorem endsWith_bigStep (t : Term) : EndsWith t t.bigStep := by
  induction t with
  | tru | fls | zero => exact .of_isValue rfl
  | foreign => exact .of_isFault rfl
  | ite c t e ihc iht ihe =>
    rw [Term.bigStep]
    obtain ⟨hb, hs⟩ | ⟨v, hb, hv, hr⟩ := ihc.plug (.condition .hole t e)
    · rw [hb]; exact hs
    · rw [hb]
      refine .of_reaches hr ?_
      cases v with
      | tru => exact .of_reaches (.of_step rfl) iht
      | fls => exact .of_reaches (.of_step rfl) ihe
      | zero | succ => exact .of_isFault hv
      | _ => cases hv
  | succ t ih =>
    rw [Term.bigStep]
    cases hn : t.isNumeric with
    | true => exact .of_isValue hn
    | false =>
      obtain ⟨hb, hs⟩ | ⟨v, hb, hv, hr⟩ := ih.plug (.operand .succ .hole)
      · rw [hb]; exact hs
      · rw [hb]
        refine .of_reaches hr ?_
        cases v with
        | tru | fls => exact .of_isFault rfl
        | zero => exact .of_isValue rfl
        | succ n =>
          have hnum : n.succ.isNumeric = true := hv
          simp only [hnum, if_true]
          exact .of_isValue hv
        | _ => cases hv
  | pred t ih =>
    rw [Term.bigStep]
    obtain ⟨hb, hs⟩ | ⟨v, hb, hv, hr⟩ := ih.plug (.operand .pred .hole)
    · rw [hb]; exact hs
    · rw [hb]
      refine .of_reaches hr ?_
      cases v with
      | tru | fls => exact .of_isFault rfl
      | zero => exact .of_reaches (.of_step rfl) (.of_isValue rfl)
      | succ n =>
        have first := (Step.predSucc (n := n) hv).step_eq
        exact .of_reaches (.of_step first) (.of_isValue (Term.isValue_of_isNumeric hv))
      | _ => cases hv
  | isZero t ih =>
    rw [Term.bigStep]
    obtain ⟨hb, hs⟩ | ⟨v, hb, hv, hr⟩ := ih.plug (.operand .isZero .hole)
    · rw [hb]; exact hs
    · rw [hb]
      refine .of_reaches hr ?_
      cases v with
      | tru | fls => exact .of_isFault rfl
      | zero => exact .of_reaches (.of_step rfl) (.of_isValue rfl)
      | succ n =>
        have first := (Step.isZeroSucc (n := n) hv).step_eq
        exact .of_reaches (.of_step first) (.of_isValue rfl)
      | _ => cases hv

/-- The answer is the place where stepping ends. -/
theorem bigStep_eq_iff {t : Term} {answer : Option Term} :
    t.bigStep = answer ↔ EndsWith t answer := by
  constructor
  · rintro rfl
    exact endsWith_bigStep t
  · exact (endsWith_bigStep t).unique

/-- The answer is the normal form if that is a value, and none otherwise. -/
theorem Term.bigStep_eq_normalForm (t : Term) :
    t.bigStep = if t.normalForm.isValue then some t.normalForm else none := by
  rw [bigStep_eq_iff]
  split
  · next hv => exact ⟨hv, t.reaches_normalForm⟩
  · next hv =>
    have hstuck := isStuck_iff.mpr ⟨t.step_normalForm, Bool.eq_false_iff.mpr hv⟩
    exact ⟨t.normalForm, t.reaches_normalForm, hstuck⟩

/-- Evaluation in one go finds the value that stepping reaches, and finds nothing exactly
when stepping gets stuck. -/
theorem bigStep_iff_reaches (t : Term) :
    (∀ v, t.bigStep = some v ↔ v.isValue = true ∧ Reaches t v) ∧
      (t.bigStep = none ↔ ∃ w, Reaches t w ∧ w.isStuck = true) :=
  ⟨fun _ => bigStep_eq_iff, bigStep_eq_iff⟩

end BoolNat
