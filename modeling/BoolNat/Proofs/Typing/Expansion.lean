import BoolNat.Proofs.Reduction.Sequence
import BoolNat.Proofs.Typing.Blame
import BoolNat.Proofs.Typing.Place
import BoolNat.Proofs.Typing.Soundness
set_option autoImplicit false

/-! # Types against the direction of evaluation

A step keeps the type of a term, but it can also give a type to a term that had none.  Typing
does not look through an evaluation context: what matters is the type in the hole
(`typecheck_plug_congr`).  There a predecessor or a test for zero has the type of what it is
contracted to (`typecheck_of_contract_apply`), and only a conditional can drop what made the
term ill typed.  The checker then blames the branch that is dropped, or the conditional for
the difference between its branches (`BlamesBranch`, `blamesBranch_of_typeOf`).

So where there are no conditionals, types go both ways along a run, and having a type is the
same as having a value (`exists_typecheck_iff_normalize`).
-/

namespace BoolNat

namespace HasType

theorem apply {t : Term} (op : Operator) (h : HasType t .nat) :
    HasType (op.apply t) op.resultType :=
  hasType_apply_iff.mpr ⟨rfl, h⟩

/-- What stands in the hole of a term with a type has a type. -/
theorem of_plug (E : Context) {u : Term} {ty : Ty} (h : HasType (E.plug u) ty) :
    ∃ ty', HasType u ty' := by
  rw [← E.fill_place] at h
  exact HasType.of_fill E.place h

/-- A value has a type. -/
theorem exists_of_isValue {v : Term} (h : v.isValue = true) : ∃ ty, HasType v ty := by
  rcases (Bool.or_eq_true _ _).mp h with hb | hn
  · exact ⟨.bool, .of_isBoolean hb⟩
  · exact ⟨.nat, .of_isNumeric hn⟩

end HasType

/-- The step from the first term to the second picks a branch of a conditional, and the error is
that the branches of this conditional have different types, or it is the error of the branch that
is dropped and about a node in it. -/
inductive BlamesBranch : Term → Term → TypeError → Prop
  | mismatch (E : Context) (b : Bool) (u w : Term) {thenType elseType : Ty}
    (differ : thenType ≠ elseType) :
    BlamesBranch (E.plug (.ite (.ofBool b) u w)) (E.plug (bif b then u else w))
      (.branchTypeMismatch (.ite (.ofBool b) u w) thenType elseType)
  | dropped (E : Context) (b : Bool) (u w : Term) {err : TypeError}
    (error : (bif b then w else u).typeOf = .error (.typeError err))
    (node : err.term ∈ (bif b then w else u).subterms) :
    BlamesBranch (E.plug (.ite (.ofBool b) u w)) (E.plug (bif b then u else w)) err

theorem BlamesBranch.of_typeByNode (E : Context) {b : Bool} {u w : Term} {err : TypeError}
    (h : (bif b then w else u).typeByNode = .error (.typeError err)) :
    BlamesBranch (E.plug (.ite (.ofBool b) u w)) (E.plug (bif b then u else w)) err := by
  rw [← Term.typeOf_eq_typeByNode] at h
  exact .dropped E b u w h (Term.term_mem_subterms_of_typeOf h)

namespace Term

/-! ## Typing in an evaluation context -/

/-- What the checker answers for the hole is all that it takes from there. -/
theorem typecheck_plug_congr (E : Context) {u u' : Term} (h : u.typecheck = u'.typecheck) :
    (E.plug u).typecheck = (E.plug u').typecheck := by
  rw [← E.fill_place, ← E.fill_place]
  exact E.place.typecheck_fill_congr h

/-- A redex with a type has the type of what it is contracted to. -/
theorem typecheck_of_contract {r r' : Term} {ty : Ty} (hr : r.contract? = some r')
    (h : HasType r ty) : r.typecheck = r'.typecheck := by
  have hafter := h.preservation (Step.of_step (step_of_contract hr))
  rw [typecheck_eq_some_iff.mpr h, typecheck_eq_some_iff.mpr hafter]

/-- A redex that is no conditional is an operator over a numeral, so it has a type. -/
theorem typecheck_of_contract_apply {op : Operator} {t r' : Term}
    (h : (op.apply t).contract? = some r') : (op.apply t).typecheck = r'.typecheck :=
  typecheck_of_contract h (.apply op (.of_isNumeric (isNumeric_of_contract_apply h)))

theorem typecheck_plug_of_contract_apply (E : Context) {op : Operator} {t r' : Term}
    (h : (op.apply t).contract? = some r') :
    (E.plug (op.apply t)).typecheck = (E.plug r').typecheck :=
  typecheck_plug_congr E (typecheck_of_contract_apply h)

/-- If the branch that is picked has a type, the error of the conditional is one that the step
takes away. -/
theorem blamesBranch_of_typeOf (E : Context) {b : Bool} {u w : Term} {ty : Ty} {err : TypeError}
    (hpicked : HasType (bif b then u else w) ty)
    (h : (ite (ofBool b) u w).typeOf = .error (.typeError err)) :
    BlamesBranch (E.plug (ite (ofBool b) u w)) (E.plug (bif b then u else w)) err := by
  have hcondition : (ofBool b).typeByNode = .ok .bool := by cases b <;> rfl
  have hok := hpicked.typeByNode_eq
  rw [typeOf_eq_typeByNode, typeByNode, hcondition] at h
  simp only at h
  split at h
  · next r hu =>
    cases h
    cases b with
    | true => rw [cond_true, hu] at hok; cases hok
    | false => exact .of_typeByNode E hu
  · next r hu hw =>
    cases h
    cases b with
    | true => exact .of_typeByNode E hw
    | false => rw [cond_false, hw] at hok; cases hok
  · next thenType elseType hu hw =>
    split at h
    · cases h
    · next differ => cases h; exact .mismatch E b u w differ

/-- A conditional in an evaluation context that gets a type when it picks a branch is itself
the place of the type error. -/
theorem exists_typeOf_of_picked (E : Context) {b : Bool} {u w : Term} {ty : Ty}
    (hafter : (E.plug (bif b then u else w)).typecheck = .ok (some ty))
    (hbefore : (E.plug (ite (ofBool b) u w)).typecheck = .ok none) :
    ∃ err, (E.plug (ite (ofBool b) u w)).typeOf = .error (.typeError err) ∧
      (ite (ofBool b) u w).typeOf = .error (.typeError err) := by
  obtain ⟨err, herr⟩ := typecheck_eq_none_iff.mp hbefore
  refine ⟨err, herr, ?_⟩
  cases hredex : (ite (ofBool b) u w).typeOf with
  | error r => rw [← herr, typeOf_plug_of_error E hredex]
  | ok redexType =>
    -- With a type of its own the conditional could stand for the branch it picks.
    have hsame := typecheck_of_contract (contract?_ite_ofBool b u w) (typeOf_eq_ok_iff.mp hredex)
    rw [typecheck_plug_congr E hsame, hafter] at hbefore
    cases hbefore

/-- A step that gives a type to a term without one takes the blame away with a branch. -/
theorem exists_blamesBranch_of_step {t t' : Term} {ty : Ty} (hs : t.step = some t')
    (hafter : t'.typecheck = .ok (some ty)) (hbefore : t.typecheck = .ok none) :
    ∃ err, t.typeOf = .error (.typeError err) ∧ BlamesBranch t t' err := by
  obtain ⟨E, r, r', hr, rfl, rfl⟩ := exists_redex_of_step hs
  rcases contract?_cases hr with ⟨b, u, w, rfl, rfl⟩ | ⟨op, u, rfl⟩
  · obtain ⟨err, hwhole, hredex⟩ := exists_typeOf_of_picked E hafter hbefore
    obtain ⟨picked, hpicked⟩ := (typecheck_eq_some_iff.mp hafter).of_plug
    exact ⟨err, hwhole, blamesBranch_of_typeOf E hpicked hredex⟩
  · rw [typecheck_plug_of_contract_apply E hr, hafter] at hbefore
    cases hbefore

/-! ## Terms without conditionals -/

/-- No conditional occurs in the term. -/
def isConditionalFree : Term → Bool
  | .ite .. => false
  | .succ t | .pred t | .isZero t => t.isConditionalFree
  | .tru | .fls | .zero | .foreign _ => true

theorem isConditionalFree_apply (op : Operator) (t : Term) :
    (op.apply t).isConditionalFree = t.isConditionalFree := by
  cases op <;> rfl

theorem isConditionalFree_of_plug (E : Context) {u : Term}
    (h : (E.plug u).isConditionalFree = true) : u.isConditionalFree = true := by
  induction E with
  | hole => exact h
  | condition inner t e ih => cases h
  | operand op inner ih =>
    rw [Context.plug, isConditionalFree_apply] at h
    exact ih h

/-- A step brings no conditional into a term. -/
theorem isConditionalFree_of_step {t t' : Term} (hs : Step t t')
    (h : t.isConditionalFree = true) : t'.isConditionalFree = true := by
  induction hs with
  | ifTrue | ifFalse | ifCondition => cases h
  | predZero | isZeroZero | isZeroSucc => rfl
  | predSucc => exact h
  | succOperand _ ih | predOperand _ ih | isZeroOperand _ ih => exact ih h

/-- Without conditionals, a step changes nothing in what the checker answers. -/
theorem typecheck_of_step {t t' : Term} (hs : t.step = some t')
    (h : t.isConditionalFree = true) : t.typecheck = t'.typecheck := by
  obtain ⟨E, r, r', hr, rfl, rfl⟩ := exists_redex_of_step hs
  rcases contract?_cases hr with ⟨b, t, e, rfl, _⟩ | ⟨op, t, rfl⟩
  · have hfree := isConditionalFree_of_plug E h
    cases hfree
  · exact typecheck_plug_of_contract_apply E hr

end Term

/-- Without conditionals, neither does a run. -/
theorem Run.typecheck_eq {n : Nat} {t u : Term} (hr : Run n t u)
    (h : t.isConditionalFree = true) : t.typecheck = u.typecheck := by
  induction hr with
  | nil => rfl
  | cons first _ ih =>
    rw [Term.typecheck_of_step first h]
    exact ih (Term.isConditionalFree_of_step (.of_step first) h)

/-- A term without conditionals has a type exactly if it normalizes to a value. -/
theorem Term.exists_typecheck_iff_normalize {t : Term} (h : t.isConditionalFree = true)
    {maxSteps : Int} (hm : (t.stepCount : Int) ≤ maxSteps) :
    (∃ ty, t.typecheck = .ok (some ty)) ↔
      ∃ v, t.normalize maxSteps = .ok v ∧ v.isValue = true := by
  constructor
  · rintro ⟨ty, hty⟩
    obtain ⟨v, hr, hnormal⟩ := t.exists_run_stepCount
    have htyped := (Term.typecheck_eq_some_iff.mp hty).of_reaches ⟨_, hr⟩
    exact ⟨v, (Term.normalize_eq_ok_iff hm).mpr ⟨⟨_, hr⟩, hnormal⟩,
      htyped.isValue_of_normal hnormal⟩
  · rintro ⟨v, hok, hv⟩
    obtain ⟨⟨n, hr⟩, _⟩ := (Term.normalize_eq_ok_iff hm).mp hok
    obtain ⟨ty, hty⟩ := HasType.exists_of_isValue hv
    exact ⟨ty, (hr.typecheck_eq h).trans (Term.typecheck_eq_some_iff.mpr hty)⟩

/-- If a term without a type steps to one with a type, then the step picks a branch of a
conditional, and the checker blames the conditional for its branches or something in the branch
that is dropped.  Any other redex has the type of what it is contracted to.  So a term without
conditionals has a type exactly if it normalizes to a value. -/
theorem subject_expansion_or_blamesBranch (t : Term) :
    (∀ (t' : Term) (ty : Ty), t.step = some t' → t'.typecheck = .ok (some ty) →
        t.typecheck = .ok none →
        ∃ err, t.typeOf = .error (.typeError err) ∧ BlamesBranch t t' err) ∧
      (∀ (E : Context) (op : Operator) (u r' : Term), t = E.plug (op.apply u) →
        (op.apply u).contract? = some r' →
        t.step = some (E.plug r') ∧ t.typecheck = (E.plug r').typecheck) ∧
      (t.isConditionalFree = true → ∀ maxSteps : Int, (t.stepCount : Int) ≤ maxSteps →
        ((∃ ty, t.typecheck = .ok (some ty)) ↔
          ∃ v, t.normalize maxSteps = .ok v ∧ v.isValue = true)) := by
  refine ⟨?_, ?_, ?_⟩
  · intro t' ty hs hafter hbefore
    exact Term.exists_blamesBranch_of_step hs hafter hbefore
  · rintro E op u r' rfl hr
    exact ⟨Term.step_plug_of_contract E hr, Term.typecheck_plug_of_contract_apply E hr⟩
  · intro h maxSteps hm
    exact Term.exists_typecheck_iff_normalize h hm

/-- A truth value in place of a number, in the branch that is dropped; a predecessor beside a
foreign leaf, which is reported before and after; and a numeral under a test for zero. -/
theorem subject_expansion_or_blamesBranch_dropped :
    (∃ err, (Term.succ (.ite .tru .zero (.isZero .tru))).typeOf = .error (.typeError err) ∧
        BlamesBranch (.succ (.ite .tru .zero (.isZero .tru))) (.succ .zero) err) ∧
      ((Term.ite (.isZero (.pred .zero)) (.foreign (.string "x")) .zero).step =
          some (.ite (.isZero .zero) (.foreign (.string "x")) .zero) ∧
        (Term.ite (.isZero (.pred .zero)) (.foreign (.string "x")) .zero).typecheck =
          (Term.ite (.isZero .zero) (.foreign (.string "x")) .zero).typecheck) ∧
      ((∃ ty, (Term.isZero (.succ .zero)).typecheck = .ok (some ty)) ↔
        ∃ v, (Term.isZero (.succ .zero)).normalize 1 = .ok v ∧ v.isValue = true) := by
  have hstep : (Term.isZero (.succ .zero)).step = some .fls := rfl
  have hcount : ((Term.isZero (.succ .zero)).stepCount : Int) ≤ 1 := by
    rw [Term.stepCount_of_step hstep, Term.stepCount_of_normal rfl]; decide
  refine ⟨?_, ?_, ?_⟩
  · exact (subject_expansion_or_blamesBranch _).1 _ .nat rfl rfl rfl
  · exact (subject_expansion_or_blamesBranch _).2.1
      (.condition (.operand .isZero .hole) (.foreign (.string "x")) .zero) .pred .zero .zero rfl rfl
  · exact (subject_expansion_or_blamesBranch _).2.2 rfl 1 hcount

end BoolNat
