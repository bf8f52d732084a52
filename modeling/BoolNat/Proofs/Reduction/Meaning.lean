import BoolNat.Proofs.Reduction.BigStep
import BoolNat.Proofs.Reduction.Sequence
import BoolNat.Proofs.Typing.Infer
import BoolNat.Reduction.Meaning
set_option autoImplicit false

/-! # Evaluation computes the meaning

Every meaning has one value that stands for it: the numeral of a number, the constant of a truth
value.  Evaluation in one go finds the value that stands for the meaning of a term, and finds
nothing if the term means nothing (`Term.bigStep_eq_meaning`), by an induction in which the two
functions consult the same parts.  Since evaluation in one go ends where stepping ends, the same
is true of the normal form: a term means something exactly if it normalizes to the value that
stands for it (`Term.meaning_eq_some_iff`), and means nothing exactly if its normal form is stuck
(`Term.meaning_eq_none_iff`).
-/

namespace BoolNat

namespace Meaning

/-- The value that stands for a meaning. -/
def toValue : Meaning → Term
  | .bool b => .ofBool b
  | .nat n => .numeral n

/-- The type of the terms that mean something of this kind. -/
def kind : Meaning → Ty
  | .bool _ => .bool
  | .nat _ => .nat

theorem isValue_toValue (d : Meaning) : d.toValue.isValue = true := by
  cases d with
  | bool b => cases b <;> rfl
  | nat n => exact Term.isValue_of_isNumeric (Term.isNumeric_numeral n)

end Meaning

namespace Term

theorem meaning_numeral (n : Nat) : (numeral n).meaning = some (.nat n) := by
  induction n with
  | zero => rfl
  | succ n ih => rw [numeral_succ, meaning, ih]; rfl

/-- A value means what it stands for. -/
theorem meaning_toValue (d : Meaning) : d.toValue.meaning = some d := by
  cases d with
  | bool b => cases b <;> rfl
  | nat n => exact meaning_numeral n

end Term

theorem Meaning.toValue_injective : Function.Injective Meaning.toValue := by
  intro d d' h
  have hmeaning := congrArg Term.meaning h
  rw [Term.meaning_toValue, Term.meaning_toValue] at hmeaning
  exact Option.some.inj hmeaning

namespace Term

/-- A successor has a value if its operand has a numeral as its value. -/
theorem bigStep_succ (t : Term) :
    (succ t).bigStep = t.bigStep.bind fun v => if v.isNumeric then some (.succ v) else none := by
  rw [bigStep]
  split
  · next hn =>
    have hself : t.bigStep = some t := bigStep_eq_iff.mpr (.of_isValue (isValue_of_isNumeric hn))
    rw [hself, Option.bind_some, if_pos hn]
  · cases t.bigStep <;> rfl

/-- Evaluation in one go finds the value of the meaning. -/
theorem bigStep_eq_meaning (t : Term) : t.bigStep = t.meaning.map Meaning.toValue := by
  induction t with
  | tru | fls | zero | foreign => rfl
  | ite c t e ihc iht ihe =>
    rw [bigStep, meaning, ihc]
    rcases c.meaning with _ | ⟨_ | _⟩ | n
    · rfl
    · exact ihe
    · exact iht
    · cases n <;> rfl
  | succ t ih =>
    rw [bigStep_succ, meaning, ih]
    rcases t.meaning with _ | ⟨_ | _⟩ | n
    · rfl
    · rfl
    · rfl
    · exact if_pos (isNumeric_numeral n)
  | pred t ih | isZero t ih =>
    rw [bigStep, meaning, ih]
    rcases t.meaning with _ | ⟨_ | _⟩ | n
    · rfl
    · rfl
    · rfl
    · cases n <;> rfl

variable {t : Term} {maxSteps : Int}

/-- A term means something exactly if it normalizes to the value that stands for it. -/
theorem meaning_eq_some_iff (h : (t.stepCount : Int) ≤ maxSteps) {d : Meaning} :
    t.meaning = some d ↔ t.normalize maxSteps = .ok d.toValue := by
  have hvalue := d.isValue_toValue
  calc t.meaning = some d
      ↔ t.meaning.map Meaning.toValue = some d.toValue := by
        rw [← Option.map_some, (Option.map_injective Meaning.toValue_injective).eq_iff]
    _ ↔ EndsWith t (some d.toValue) := by rw [← bigStep_eq_meaning, bigStep_eq_iff]
    _ ↔ Reaches t d.toValue ∧ d.toValue.step = none :=
        ⟨fun hr => ⟨hr.2, step_of_isValue hvalue⟩, fun hr => ⟨hvalue, hr.1⟩⟩
    _ ↔ t.normalize maxSteps = .ok d.toValue := (normalize_eq_ok_iff h).symm

/-- A term means nothing exactly if its normal form is stuck. -/
theorem meaning_eq_none_iff (h : (t.stepCount : Int) ≤ maxSteps) :
    t.meaning = none ↔ ∃ w, t.normalize maxSteps = .ok w ∧ w.isStuck = true := by
  calc t.meaning = none
      ↔ EndsWith t none := by rw [← bigStep_eq_iff, bigStep_eq_meaning, Option.map_eq_none_iff]
    _ ↔ ∃ w, t.normalize maxSteps = .ok w ∧ w.isStuck = true := by
        refine exists_congr fun w => and_congr_left fun hw => ?_
        rw [normalize_eq_ok_iff h, and_iff_left (isStuck_iff.mp hw).1]

end Term

/-- A term with a type means something of that type. -/
theorem HasType.exists_meaning {t : Term} {ty : Ty} (h : HasType t ty) :
    ∃ d, t.meaning = some d ∧ d.kind = ty := by
  induction h with
  | tru => exact ⟨.bool true, rfl, rfl⟩
  | fls => exact ⟨.bool false, rfl, rfl⟩
  | zero => exact ⟨.nat 0, rfl, rfl⟩
  | succ _ ih | pred _ ih | isZero _ ih =>
    obtain ⟨_ | n, hd, hkind⟩ := ih
    · cases hkind
    · rw [Term.meaning, hd]; exact ⟨_, rfl, rfl⟩
  | ite _ _ _ ihc iht ihe =>
    obtain ⟨⟨_ | _⟩ | _, hd, hkind⟩ := ihc
    · rw [Term.meaning, hd]; exact ihe
    · rw [Term.meaning, hd]; exact iht
    · cases hkind

/-- Normalizing a term under a bound that allows its steps computes what the term means: a number
exactly if the normal form is its numeral, and is read back as it; a truth value exactly if the
normal form is its constant; nothing exactly if the normal form is stuck.  A term with a type
means something of that type. -/
theorem normalize_computes_meaning {t : Term} {maxSteps : Int}
    (h : (t.stepCount : Int) ≤ maxSteps) :
    (∀ n : Nat,
        (t.meaning = some (.nat n) ↔
          ∃ v, t.normalize maxSteps = .ok v ∧ v.toNat? = some n) ∧
        (t.meaning = some (.nat n) ↔ ∃ v, Term.ofInt n = .ok v ∧ t.normalize maxSteps = .ok v)) ∧
      (∀ b : Bool, t.meaning = some (.bool b) ↔ t.normalize maxSteps = .ok (.ofBool b)) ∧
      (t.meaning = none ↔ ∃ w, t.normalize maxSteps = .ok w ∧ w.isStuck = true) ∧
      ∀ ty, t.typecheck = .ok (some ty) → ∃ d, t.meaning = some d ∧ d.kind = ty := by
  refine ⟨?_, ?_, Term.meaning_eq_none_iff h, ?_⟩
  · intro n
    rw [Term.meaning_eq_some_iff h, Term.ofInt_natCast]
    refine ⟨?_, ?_⟩
    · simp only [Term.toNat?_eq_some_iff, exists_eq_right]
      rfl
    · simp only [Except.ok.injEq, exists_eq_left']
      rfl
  · intro b
    exact Term.meaning_eq_some_iff h
  · intro ty hty
    exact (Term.typecheck_eq_some_iff.mp hty).exists_meaning

/-- A conditional that never looks at its ill-typed branch takes four steps to the numeral of
what it means; a test for zero takes one step and means a truth value. -/
theorem normalize_computes_meaning_ite :
    (Term.ite (.isZero (.pred (.succ .zero))) (.pred (.succ (.succ .zero)))
        (.succ .tru)).normalize 4 = .ok (.succ .zero) ∧
      ∃ d, (Term.isZero .zero).meaning = some d ∧ d.kind = .bool := by
  have hr : Run 4 (.ite (.isZero (.pred (.succ .zero))) (.pred (.succ (.succ .zero)))
      (.succ .tru)) (.succ .zero) :=
    .cons rfl (.cons rfl (.cons rfl (.cons rfl (.nil _))))
  have hfour : ((Term.ite (.isZero (.pred (.succ .zero))) (.pred (.succ (.succ .zero)))
      (.succ .tru)).stepCount : Int) ≤ 4 := by rw [hr.stepCount_eq rfl]; decide
  have hone : ((Term.isZero .zero).stepCount : Int) ≤ 1 := by
    rw [(Run.cons rfl (.nil .tru)).stepCount_eq rfl]; decide
  refine ⟨?_, (normalize_computes_meaning hone).2.2.2 .bool rfl⟩
  obtain ⟨v, hv, hn⟩ := ((normalize_computes_meaning hfour).1 1).2.mp rfl
  cases hv
  exact hn

end BoolNat
