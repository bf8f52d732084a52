import BoolNat.Proofs.Reduction.Sequence
import BoolNat.Proofs.Typing.Infer
set_option autoImplicit false

/-! # Type soundness

A term with a type is a value or steps (`HasType.progress`), and what it steps to has that
type again (`HasType.preservation`).  Along a run both facts add up: every term on it has
the type of the first one (`HasType.of_reaches`), and the normal form at its end is a value
(`HasType.isValue_of_normal`).  The checker's types are those of the rules, and a bound of
one step less than there are nodes is enough to get to the end, so both facts hold of what
the checker and the bounded drivers answer.
-/

namespace BoolNat

namespace HasType

/-- A value of type Bool is a truth value. -/
theorem isBoolean_of_isValue {v : Term} (h : HasType v .bool) (hv : v.isValue = true) :
    v.isBoolean = true := by
  cases h with
  | tru | fls => rfl
  | isZero | ite => cases hv

/-- A value of type Nat is a numeral. -/
theorem isNumeric_of_isValue {v : Term} (h : HasType v .nat) (hv : v.isValue = true) :
    v.isNumeric = true := by
  cases h with
  | zero => rfl
  | succ => exact hv
  | pred | ite => cases hv

/-- An operator that is not applied to a numeral steps as its operand does. -/
theorem progress_operand {t : Term} (h : HasType t .nat)
    (ih : t.isValue = true ∨ ∃ t', Step t t') :
    t.isNumeric = true ∨ ∃ t', Step t t' := by
  rcases ih with hv | hs
  · exact .inl (h.isNumeric_of_isValue hv)
  · exact .inr hs

/-- A term with a type is a value or steps. -/
theorem progress {t : Term} {ty : Ty} (h : HasType t ty) :
    t.isValue = true ∨ ∃ t', Step t t' := by
  induction h with
  | tru | fls | zero => exact .inl rfl
  | succ operand ih =>
    rcases operand.progress_operand ih with hn | ⟨t', hs⟩
    · exact .inl hn
    · exact .inr ⟨_, .succOperand hs⟩
  | @pred t operand ih =>
    rcases operand.progress_operand ih with hn | ⟨t', hs⟩
    · cases t with
      | zero => exact .inr ⟨_, .predZero⟩
      | succ n => exact .inr ⟨_, .predSucc hn⟩
      | _ => cases hn
    · exact .inr ⟨_, .predOperand hs⟩
  | @isZero t operand ih =>
    rcases operand.progress_operand ih with hn | ⟨t', hs⟩
    · cases t with
      | zero => exact .inr ⟨_, .isZeroZero⟩
      | succ n => exact .inr ⟨_, .isZeroSucc hn⟩
      | _ => cases hn
    · exact .inr ⟨_, .isZeroOperand hs⟩
  | @ite c t e _ condition _ _ ih _ _ =>
    rcases ih with hv | ⟨c', hs⟩
    · have hb := condition.isBoolean_of_isValue hv
      cases c with
      | tru => exact .inr ⟨_, .ifTrue t e⟩
      | fls => exact .inr ⟨_, .ifFalse t e⟩
      | _ => cases hb
    · exact .inr ⟨_, .ifCondition t e hs⟩

/-- A step keeps the type, by induction on the rule that allows it. -/
theorem preservation {t t' : Term} {ty : Ty} (h : HasType t ty) (hs : Step t t') :
    HasType t' ty := by
  induction hs generalizing ty with
  | ifTrue => cases h with | ite _ thenBranch _ => exact thenBranch
  | ifFalse => cases h with | ite _ _ elseBranch => exact elseBranch
  | ifCondition t e _ ih =>
    cases h with
    | ite condition thenBranch elseBranch => exact .ite (ih condition) thenBranch elseBranch
  | succOperand _ ih => cases h with | succ operand => exact .succ (ih operand)
  | predZero => cases h with | pred operand => exact operand
  | predSucc => cases h with | pred operand => cases operand with | succ inner => exact inner
  | predOperand _ ih => cases h with | pred operand => exact .pred (ih operand)
  | isZeroZero => cases h with | isZero => exact .tru
  | isZeroSucc => cases h with | isZero => exact .fls
  | isZeroOperand _ ih => cases h with | isZero operand => exact .isZero (ih operand)

/-- A run keeps the type. -/
theorem of_reaches {t u : Term} {ty : Ty} (h : HasType t ty) (hr : Reaches t u) :
    HasType u ty := by
  obtain ⟨n, hr⟩ := hr
  induction hr with
  | nil => exact h
  | cons first _ ih => exact ih (h.preservation (.of_step first))

/-- A normal form with a type is a value. -/
theorem isValue_of_normal {u : Term} {ty : Ty} (h : HasType u ty) (hu : u.step = none) :
    u.isValue = true := by
  rcases h.progress with hv | ⟨u', hs⟩
  · exact hv
  · rw [hs.step_eq] at hu; cases hu

end HasType

/-- A term with a type, given one step less than it has nodes, is normalized to a value
of that type; and wherever its evaluation is, it has arrived at a value or goes on. -/
theorem normalize_of_typecheck {t : Term} {ty : Ty} {maxSteps : Int}
    (ht : t.typecheck = .ok (some ty)) (hm : (t.size : Int) - 1 ≤ maxSteps) :
    (∃ v, t.normalize maxSteps = .ok v ∧ v.isValue = true ∧
        v.typecheck = .ok (some ty) ∧ (ty = .bool → v.isBoolean = true) ∧
        (ty = .nat → v.isNumeric = true)) ∧
      ∀ u, Reaches t u → u.isValue = true ∨ ∃ u', u.step = some u' := by
  have htyped := Term.typecheck_eq_some_iff.mp ht
  constructor
  · obtain ⟨v, hok, hr, hnormal⟩ := Term.exists_normalize_eq_ok hm
    have hv := htyped.of_reaches hr
    have hvalue := hv.isValue_of_normal hnormal
    refine ⟨v, hok, hvalue, Term.typecheck_eq_some_iff.mpr hv, ?_, ?_⟩
    · rintro rfl; exact hv.isBoolean_of_isValue hvalue
    · rintro rfl; exact hv.isNumeric_of_isValue hvalue
  · intro u hr
    rcases (htyped.of_reaches hr).progress with hv | ⟨u', hs⟩
    · exact .inl hv
    · exact .inr ⟨u', hs.step_eq⟩

/-- The test of the predecessor of the predecessor of zero needs every step of its bound. -/
theorem normalize_isZero_pred_pred :
    (Term.isZero (.pred (.pred .zero))).typecheck = .ok (some .bool) ∧
      ((Term.isZero (.pred (.pred .zero))).size : Int) - 1 ≤ 3 ∧
      (∃ v, (Term.isZero (.pred (.pred .zero))).normalize 3 = .ok v ∧ v.isValue = true ∧
          v.typecheck = .ok (some .bool) ∧ (Ty.bool = .bool → v.isBoolean = true) ∧
          (Ty.bool = .nat → v.isNumeric = true)) ∧
      ∀ u, Reaches (.isZero (.pred (.pred .zero))) u →
        u.isValue = true ∨ ∃ u', u.step = some u' :=
  have hm : ((Term.isZero (.pred (.pred .zero))).size : Int) - 1 ≤ 3 := by
    rw [Term.size_eq_nodes]; decide
  ⟨rfl, hm, normalize_of_typecheck rfl hm⟩

/-- Every term of a trace has the type of the first one, whether the bound allowed the
trace to be finished or not; so has the term at which a used-up bound is reported. -/
theorem typecheck_of_mem_trace {t : Term} {ty : Ty} (ht : t.typecheck = .ok (some ty))
    (maxSteps : Int) :
    (∀ u ∈ (t.multistep maxSteps).trace, u.typecheck = .ok (some ty)) ∧
      (t.multistep maxSteps).last.typecheck = .ok (some ty) ∧
      ∀ limit, t.normalize maxSteps = .error limit →
        limit.last.typecheck = .ok (some ty) := by
  have hmem : ∀ u ∈ (t.multistep maxSteps).trace, u.typecheck = .ok (some ty) := by
    intro u hu
    obtain ⟨n, _, hr⟩ := Term.mem_trace_multistep.mp hu
    exact Term.typecheck_eq_some_iff.mpr ((Term.typecheck_eq_some_iff.mp ht).of_reaches ⟨n, hr⟩)
  have hlast := hmem _ (Reduction.last_mem_trace _)
  refine ⟨hmem, hlast, fun limit h => ?_⟩
  rw [Term.last_of_normalize_eq_error h]
  exact hlast

/-- A conditional whose condition needs more steps than the bound allows. -/
theorem typecheck_of_mem_trace_exceeded :
    (Term.ite (.isZero (.pred (.succ .zero))) (.pred .zero) .zero).typecheck = .ok (some .nat) ∧
      ((Term.ite (.isZero (.pred (.succ .zero))) (.pred .zero) .zero).multistep 1).exceeded =
        true ∧
      (∀ u ∈ ((Term.ite (.isZero (.pred (.succ .zero))) (.pred .zero) .zero).multistep 1).trace,
        u.typecheck = .ok (some .nat)) ∧
      ((Term.ite (.isZero (.pred (.succ .zero))) (.pred .zero) .zero).multistep
        1).last.typecheck = .ok (some .nat) ∧
      ∀ limit, (Term.ite (.isZero (.pred (.succ .zero))) (.pred .zero) .zero).normalize 1 =
        .error limit → limit.last.typecheck = .ok (some .nat) :=
  ⟨rfl, rfl, typecheck_of_mem_trace rfl 1⟩

end BoolNat
