import BoolNat.Proofs.Typing.Infer
import BoolNat.Term.Place
set_option autoImplicit false

/-! # Typing and places

The checker asks for the types of the parts of a term and for nothing else about them.  So whatever
stands at a place can be replaced by something with the same answer, and the answer for the whole
remains (`Place.typecheck_fill_congr`), whether or not it is a type.

A term with a type has one at every place (`HasType.of_fill`), hence for every subterm.  Together,
typing goes down to the subterms and comes back up through a replacement
(`typecheck_hereditary_and_compositional`).
-/

namespace BoolNat

/-- What the checker answers for a node is all that it takes from the place of the node. -/
theorem Place.typecheck_fill_congr (P : Place) {u u' : Term} (h : u.typecheck = u'.typecheck) :
    (P.fill u).typecheck = (P.fill u').typecheck := by
  induction P with
  | root => exact h
  | operand op inner ih => rw [fill, fill, Term.typecheck_apply, Term.typecheck_apply, ih]
  | condition inner t e ih | thenBranch c inner e ih | elseBranch c t inner ih =>
    rw [fill, fill, Term.typecheck_ite, Term.typecheck_ite, ih]

/-- What stands at a place of a term with a type has a type. -/
theorem HasType.of_fill (P : Place) {u : Term} {ty : Ty} (h : HasType (P.fill u) ty) :
    ∃ ty', HasType u ty' := by
  induction P generalizing ty with
  | root => exact ⟨ty, h⟩
  | operand op inner ih => exact ih (hasType_apply_iff.mp h).2
  | condition inner t e ih => exact ih (hasType_ite_iff.mp h).1
  | thenBranch c inner e ih => exact ih (hasType_ite_iff.mp h).2.1
  | elseBranch c t inner ih => exact ih (hasType_ite_iff.mp h).2.2

theorem Term.isWellTyped_of_hasType {t : Term} {ty : Ty} (h : HasType t ty) :
    t.isWellTyped = .ok true := by
  rw [isWellTyped, typecheck_eq_some_iff.mpr h]
  rfl

/-- Every subterm of a term with a type stands at a place of it, has a type and is no foreign leaf.
Whatever stands at a place can be replaced by any term for which the checker gives the same answer,
and the whole keeps its type. -/
theorem typecheck_hereditary_and_compositional {t : Term} {ty : Ty}
    (h : t.typecheck = .ok (some ty)) :
    (∀ u ∈ t.subterms, (∃ P : Place, P.fill u = t) ∧ u.isWellTyped = .ok true ∧
        ∀ leaf, u ≠ .foreign leaf) ∧
      ∀ (P : Place) (u u' : Term), P.fill u = t → u'.typecheck = u.typecheck →
        (P.fill u').typecheck = .ok (some ty) := by
  constructor
  · intro u hu
    obtain ⟨P, rfl⟩ := Term.mem_subterms_iff.mp hu
    obtain ⟨ty', hty'⟩ := HasType.of_fill P (Term.typecheck_eq_some_iff.mp h)
    refine ⟨⟨P, rfl⟩, Term.isWellTyped_of_hasType hty', ?_⟩
    rintro leaf rfl
    cases hty'
  · rintro P u u' rfl hsame
    rw [P.typecheck_fill_congr hsame, h]

/-- A conditional under two operators, which makes way for an operator over a conditional. -/
theorem typecheck_hereditary_and_compositional_operators :
    (Term.isZero (.pred (.ite .tru (.succ .zero) .zero))).typecheck = .ok (some .bool) ∧
      (Term.succ (.ite .fls .zero .zero)).typecheck =
        (Term.ite .tru (.succ .zero) .zero).typecheck ∧
      (Term.succ .zero).isWellTyped = .ok true ∧
      (Term.isZero (.pred (.succ (.ite .fls .zero .zero)))).typecheck = .ok (some .bool) := by
  have h : (Term.isZero (.pred (.ite .tru (.succ .zero) .zero))).typecheck = .ok (some .bool) := rfl
  obtain ⟨hsubterms, hreplace⟩ := typecheck_hereditary_and_compositional h
  have hoccurs : Term.succ .zero ∈
      (Term.isZero (.pred (.ite .tru (.succ .zero) .zero))).subterms := by
    exact Term.mem_subterms_iff.mpr
      ⟨.operand .isZero (.operand .pred (.thenBranch .tru .root .zero)), rfl⟩
  refine ⟨h, rfl, (hsubterms _ hoccurs).2.1, ?_⟩
  exact hreplace (.operand .isZero (.operand .pred .root)) (.ite .tru (.succ .zero) .zero)
    (.succ (.ite .fls .zero .zero)) rfl rfl

end BoolNat
