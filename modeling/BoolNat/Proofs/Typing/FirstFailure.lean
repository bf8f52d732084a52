import BoolNat.Proofs.Typing.Refusal
import BoolNat.Term.Place
set_option autoImplicit false

/-! # The node a type error blames

A type error names a node and says what is wrong with it.  That is so at the node itself, whatever
stands around it (`TypeError.Justified`).  Around it nothing is wrong as far as it was looked at:
on the way down to the node, a conditional is left for a branch when its condition is found to be a
truth value, and for its else branch when its then branch has a type besides (`Place.Passed`).

The two together determine what the checker reports (`Term.typeOf_eq_typeError_iff`), and there is
only one place that is reached in this way and holds a node at fault
(`typeOf_blames_first_failure`).
-/

namespace BoolNat

/-- What the error says about the node it names is so, and the rule of that node asks for something
else. -/
def TypeError.Justified : TypeError → Prop
  | .conditionNotBool node condition actual =>
    (∃ t e : Term, node = .ite condition t e) ∧ condition.typecheck = .ok (some actual) ∧
      actual = .nat
  | .branchTypeMismatch node thenType elseType =>
    ∃ c t e : Term, node = .ite c t e ∧ c.typecheck = .ok (some .bool) ∧
      t.typecheck = .ok (some thenType) ∧ e.typecheck = .ok (some elseType) ∧ thenType ≠ elseType
  | .operandNotNat node operand actual =>
    (∃ op : Operator, node = op.apply operand) ∧ operand.typecheck = .ok (some actual) ∧
      actual = .bool
  | .typeMismatch .. => False

/-- Whatever is to be looked at before the place is in order: the condition of a conditional that is
left for a branch is a truth value, and the then branch has a type where the else branch is
entered. -/
def Place.Passed : Place → Prop
  | .root => True
  | .operand _ inner | .condition inner _ _ => inner.Passed
  | .thenBranch c inner _ => c.typecheck = .ok (some .bool) ∧ inner.Passed
  | .elseBranch c t inner =>
    c.typecheck = .ok (some .bool) ∧ (∃ ty, t.typecheck = .ok (some ty)) ∧ inner.Passed

/-- What is reported for the node at a place is reported for the whole, if what is looked at before
is in order. -/
theorem Place.Passed.typeOf_fill {P : Place} (hP : P.Passed) {u : Term} {r : Rejection}
    (h : u.typeOf = .error r) : (P.fill u).typeOf = .error r := by
  rw [Term.typeOf_eq_error_iff] at h ⊢
  induction P with
  | root => exact h
  | operand op inner ih => exact .operand op (ih hP)
  | condition inner t e ih => exact .condition t e (ih hP)
  | thenBranch c inner e ih =>
    obtain ⟨hc, hinner⟩ := hP
    exact .thenBranch e (Term.typecheck_eq_some_iff.mp hc) (ih hinner)
  | elseBranch c t inner ih =>
    obtain ⟨hc, ⟨ty, ht⟩, hinner⟩ := hP
    exact .elseBranch (Term.typecheck_eq_some_iff.mp hc) (Term.typecheck_eq_some_iff.mp ht)
      (ih hinner)

/-- A justified error is the one that is reported for its node. -/
theorem TypeError.Justified.typeOf_term {err : TypeError} (h : err.Justified) :
    err.term.typeOf = .error (.typeError err) := by
  rw [Term.typeOf_eq_error_iff]
  cases err with
  | conditionNotBool node condition actual =>
    obtain ⟨⟨t, e, rfl⟩, hcondition, rfl⟩ := h
    exact .conditionNotBool t e (Term.typecheck_eq_some_iff.mp hcondition)
  | branchTypeMismatch node thenType elseType =>
    obtain ⟨c, t, e, rfl, hc, ht, he, differ⟩ := h
    exact .branchTypeMismatch (Term.typecheck_eq_some_iff.mp hc) (Term.typecheck_eq_some_iff.mp ht)
      (Term.typecheck_eq_some_iff.mp he) differ
  | operandNotNat node operand actual =>
    obtain ⟨⟨op, rfl⟩, hoperand, rfl⟩ := h
    exact .operandNotNat op (Term.typecheck_eq_some_iff.mp hoperand)
  | typeMismatch => cases h

/-- The way down to the failure is the place of the node that is blamed, and the failure itself
justifies the error. -/
theorem Refused.exists_place {t : Term} {err : TypeError} (h : Refused t (.typeError err)) :
    err.Justified ∧ ∃ P : Place, P.fill err.term = t ∧ P.Passed := by
  generalize hr : Rejection.typeError err = r at h
  induction h with
  | foreign => cases hr
  | operand op _ ih =>
    obtain ⟨hjustified, P, rfl, hP⟩ := ih hr
    exact ⟨hjustified, .operand op P, rfl, hP⟩
  | operandNotNat op operand =>
    cases hr
    exact ⟨⟨⟨op, rfl⟩, Term.typecheck_eq_some_iff.mpr operand, rfl⟩, .root, rfl, trivial⟩
  | condition t e _ ih =>
    obtain ⟨hjustified, P, rfl, hP⟩ := ih hr
    exact ⟨hjustified, .condition P t e, rfl, hP⟩
  | conditionNotBool t e condition =>
    cases hr
    exact ⟨⟨⟨t, e, rfl⟩, Term.typecheck_eq_some_iff.mpr condition, rfl⟩, .root, rfl, trivial⟩
  | @thenBranch c t e r condition _ ih =>
    obtain ⟨hjustified, P, rfl, hP⟩ := ih hr
    exact ⟨hjustified, .thenBranch c P e, rfl, Term.typecheck_eq_some_iff.mpr condition, hP⟩
  | @elseBranch c t e thenType r condition thenBranch _ ih =>
    obtain ⟨hjustified, P, rfl, hP⟩ := ih hr
    exact ⟨hjustified, .elseBranch c t P, rfl, Term.typecheck_eq_some_iff.mpr condition,
      ⟨thenType, Term.typecheck_eq_some_iff.mpr thenBranch⟩, hP⟩
  | @branchTypeMismatch c t e _ _ condition thenBranch elseBranch differ =>
    cases hr
    exact ⟨⟨c, t, e, rfl, Term.typecheck_eq_some_iff.mpr condition,
      Term.typecheck_eq_some_iff.mpr thenBranch, Term.typecheck_eq_some_iff.mpr elseBranch,
      differ⟩, .root, rfl, trivial⟩

namespace Term

/-- A type error is reported exactly if it is justified and its node stands at a place before which
everything is in order. -/
theorem typeOf_eq_typeError_iff {t : Term} {err : TypeError} :
    t.typeOf = .error (.typeError err) ↔
      err.Justified ∧ ∃ P : Place, P.fill err.term = t ∧ P.Passed := by
  constructor
  · intro h
    exact (typeOf_eq_error_iff.mp h).exists_place
  · rintro ⟨hjustified, P, rfl, hP⟩
    exact hP.typeOf_fill hjustified.typeOf_term

/-- The node that is blamed is a subterm. -/
theorem term_mem_subterms_of_typeOf {t : Term} {err : TypeError}
    (h : t.typeOf = .error (.typeError err)) : err.term ∈ t.subterms := by
  obtain ⟨-, P, hfill, -⟩ := typeOf_eq_typeError_iff.mp h
  exact mem_subterms_iff.mpr ⟨P, hfill⟩

/-- A term that is refused has no type. -/
theorem typecheck_ne_some_of_typeOf {t : Term} {r : Rejection} (h : t.typeOf = .error r) (ty : Ty) :
    t.typecheck ≠ .ok (some ty) := by
  intro hty
  rw [typecheck_eq_some_iff, ← typeOf_eq_ok_iff, h] at hty
  cases hty

end Term

/-- Of the places of a term that is refused in one and the same whole, one at most has everything in
order before it: where the ways to two places part, one goes into a part that the other finds to
have a type. -/
theorem Place.Passed.eq_of_fill_eq {P Q : Place} (hP : P.Passed) (hQ : Q.Passed) {u : Term}
    {r : Rejection} (hu : u.typeOf = .error r) (h : P.fill u = Q.fill u) : P = Q := by
  have hrefused : ∀ {R : Place}, R.Passed → ∀ ty, (R.fill u).typecheck ≠ .ok (some ty) :=
    fun hR => Term.typecheck_ne_some_of_typeOf (hR.typeOf_fill hu)
  induction P generalizing Q with
  | root => exact (eq_root_of_fill_eq h.symm).symm
  | operand op inner ih =>
    cases Q with
    | root => exact eq_root_of_fill_eq h
    | operand op' inner' =>
      obtain ⟨rfl, hfill⟩ := Operator.apply_inj.mp h
      rw [ih hP (Q := inner') hQ hfill]
    | condition | thenBranch | elseBranch => exact (Operator.apply_ne_ite _ _ _ _ _ h).elim
  | condition inner t e ih =>
    cases Q with
    | root => exact eq_root_of_fill_eq h
    | operand => exact (Operator.apply_ne_ite _ _ _ _ _ h.symm).elim
    | condition inner' t' e' =>
      obtain ⟨hfill, rfl, rfl⟩ := Term.ite.inj h
      rw [ih hP (Q := inner') hQ hfill]
    | thenBranch | elseBranch =>
      have hcondition := (Term.ite.inj h).1
      exact (hrefused (R := inner) hP _ (hcondition ▸ hQ.1)).elim
  | thenBranch c inner e ih =>
    cases Q with
    | root => exact eq_root_of_fill_eq h
    | operand => exact (Operator.apply_ne_ite _ _ _ _ _ h.symm).elim
    | condition inner' =>
      have hcondition := (Term.ite.inj h).1
      exact (hrefused (R := inner') hQ _ (hcondition ▸ hP.1)).elim
    | thenBranch c' inner' e' =>
      obtain ⟨rfl, hfill, rfl⟩ := Term.ite.inj h
      rw [ih hP.2 hQ.2 hfill]
    | elseBranch c' t' inner' =>
      obtain ⟨-, hthen, -⟩ := Term.ite.inj h
      obtain ⟨-, ⟨ty, ht⟩, -⟩ := hQ
      exact (hrefused hP.2 ty (hthen ▸ ht)).elim
  | elseBranch c t inner ih =>
    cases Q with
    | root => exact eq_root_of_fill_eq h
    | operand => exact (Operator.apply_ne_ite _ _ _ _ _ h.symm).elim
    | condition inner' =>
      have hcondition := (Term.ite.inj h).1
      exact (hrefused (R := inner') hQ _ (hcondition ▸ hP.1)).elim
    | thenBranch c' inner' e' =>
      obtain ⟨-, hthen, -⟩ := Term.ite.inj h
      obtain ⟨-, ⟨ty, ht⟩, -⟩ := hP
      exact (hrefused hQ.2 ty (hthen ▸ ht)).elim
    | elseBranch c' t' inner' =>
      obtain ⟨rfl, rfl, hfill⟩ := Term.ite.inj h
      rw [ih hP.2.2 hQ.2.2 hfill]

/-- A type error blames a subterm, which is refused for the same reason when it stands alone, and
what the error says about it is so.  The subterm stands at a place before which everything is in
order, and no other place with everything in order before it holds a node at fault. -/
theorem typeOf_blames_first_failure {t : Term} {err : TypeError}
    (h : t.typeOf = .error (.typeError err)) :
    err.term ∈ t.subterms ∧ err.term.typeOf = .error (.typeError err) ∧ err.Justified ∧
      ∃ P : Place, P.fill err.term = t ∧ P.Passed ∧
        ∀ (Q : Place) (other : TypeError), other.Justified → Q.fill other.term = t → Q.Passed →
          Q = P ∧ other = err := by
  obtain ⟨hjustified, P, hfill, hP⟩ := Term.typeOf_eq_typeError_iff.mp h
  refine ⟨Term.term_mem_subterms_of_typeOf h, hjustified.typeOf_term, hjustified, P, hfill, hP, ?_⟩
  intro Q other hother hQfill hQ
  have hreported := Term.typeOf_eq_typeError_iff.mpr ⟨hother, Q, hQfill, hQ⟩
  rw [h] at hreported
  cases hreported
  exact ⟨hQ.eq_of_fill_eq hP hjustified.typeOf_term (hQfill.trans hfill.symm), rfl⟩

/-- The successor of a truth value is blamed, and not the conditional over a number or the foreign
leaf that stand further to the right: its place is in the then branch of a conditional in the else
branch of another, below two operators. -/
theorem typeOf_blames_succ_tru :
    (Term.ite (.isZero .zero) .zero (.pred (.ite .fls (.isZero (.succ .tru))
        (.ite .zero (.foreign (.string "x")) .zero)))).typeOf =
        .error (.typeError (.operandNotNat (.succ .tru) .tru .bool)) ∧
      Term.succ .tru ∈ (Term.ite (.isZero .zero) .zero (.pred (.ite .fls (.isZero (.succ .tru))
        (.ite .zero (.foreign (.string "x")) .zero)))).subterms ∧
      ∀ (Q : Place) (other : TypeError), other.Justified → Q.fill other.term =
          .ite (.isZero .zero) .zero (.pred (.ite .fls (.isZero (.succ .tru))
            (.ite .zero (.foreign (.string "x")) .zero))) → Q.Passed →
        Q = .elseBranch (.isZero .zero) .zero (.operand .pred
            (.thenBranch .fls (.operand .isZero .root) (.ite .zero (.foreign (.string "x")) .zero))) ∧
          other = .operandNotNat (.succ .tru) .tru .bool := by
  have h : (Term.ite (.isZero .zero) .zero (.pred (.ite .fls (.isZero (.succ .tru))
      (.ite .zero (.foreign (.string "x")) .zero)))).typeOf =
      .error (.typeError (.operandNotNat (.succ .tru) .tru .bool)) := rfl
  obtain ⟨hmem, -, hjustified, P, -, -, hunique⟩ := typeOf_blames_first_failure h
  have hP := (hunique (.elseBranch (.isZero .zero) .zero (.operand .pred
    (.thenBranch .fls (.operand .isZero .root) (.ite .zero (.foreign (.string "x")) .zero)))) _
    hjustified rfl ⟨rfl, ⟨.nat, rfl⟩, rfl, trivial⟩).1
  refine ⟨h, hmem, ?_⟩
  rw [hP]
  exact hunique

end BoolNat
