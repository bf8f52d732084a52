import BoolNat.Term.Measure
set_option autoImplicit false

/-! # Places

A place is where a node of a term stands: the term without the node and what is below it, with a
hole instead.  The hole may be anywhere, in a branch of a conditional too.

What stands at the places of a term are its subterms (`Term.mem_subterms_iff`), and a subterm that
occurs more than once stands at several places.
-/

namespace BoolNat

/-- A term with a hole anywhere, that is the way from the root down to a node. -/
inductive Place where
  | root
  | operand (op : Operator) (inner : Place)
  | condition (inner : Place) (t e : Term)
  | thenBranch (c : Term) (inner : Place) (e : Term)
  | elseBranch (c t : Term) (inner : Place)
  deriving DecidableEq, Repr, Inhabited

namespace Place

def fill : Place → Term → Term
  | .root, u => u
  | .operand op inner, u => op.apply (inner.fill u)
  | .condition inner t e, u => .ite (inner.fill u) t e
  | .thenBranch c inner e, u => .ite c (inner.fill u) e
  | .elseBranch c t inner, u => .ite c t (inner.fill u)

theorem mem_subterms_fill (P : Place) (u : Term) : u ∈ (P.fill u).subterms := by
  induction P with
  | root => exact u.self_mem_subterms
  | operand op inner ih => exact Term.mem_subterms_of_child (by simp [fill]) ih
  | condition inner t e ih => exact Term.mem_subterms_of_child (by simp [fill, Term.children]) ih
  | thenBranch c inner e ih => exact Term.mem_subterms_of_child (by simp [fill, Term.children]) ih
  | elseBranch c t inner ih => exact Term.mem_subterms_of_child (by simp [fill, Term.children]) ih

theorem size_le_size_fill (P : Place) (u : Term) : u.size ≤ (P.fill u).size := by
  induction P with
  | root => exact Nat.le_refl _
  | operand op inner ih => rw [fill, Term.size_apply]; omega
  | condition inner t e ih | thenBranch c inner e ih | elseBranch c t inner ih =>
    rw [fill, Term.size_ite]; omega

/-- What stands at the root and nowhere else: a term is no proper part of itself. -/
theorem eq_root_of_fill_eq {P : Place} {u : Term} (h : P.fill u = u) : P = .root := by
  have hsize := congrArg Term.size h
  cases P with
  | root => rfl
  | operand op inner =>
    have hinner := inner.size_le_size_fill u
    rw [fill, Term.size_apply] at hsize
    omega
  | condition inner | thenBranch _ inner | elseBranch _ _ inner =>
    have hinner := inner.size_le_size_fill u
    rw [fill, Term.size_ite] at hsize
    omega

end Place

/-- The subterms are what stands at the places of a term. -/
theorem Term.mem_subterms_iff {t u : Term} : u ∈ t.subterms ↔ ∃ P : Place, P.fill u = t := by
  constructor
  · intro h
    induction t using operatorInduction with
    | tru | fls | zero | foreign =>
      rw [subterms_eq] at h
      exact ⟨.root, List.mem_singleton.mp h⟩
    | apply op t ih =>
      rw [subterms_apply, List.mem_cons] at h
      rcases h with rfl | h
      · exact ⟨.root, rfl⟩
      · obtain ⟨P, rfl⟩ := ih h
        exact ⟨.operand op P, rfl⟩
    | ite c t e ihc iht ihe =>
      rw [subterms_ite, List.mem_cons, List.mem_append, List.mem_append] at h
      rcases h with rfl | h | h | h
      · exact ⟨.root, rfl⟩
      · obtain ⟨P, rfl⟩ := ihc h
        exact ⟨.condition P t e, rfl⟩
      · obtain ⟨P, rfl⟩ := iht h
        exact ⟨.thenBranch c P e, rfl⟩
      · obtain ⟨P, rfl⟩ := ihe h
        exact ⟨.elseBranch c t P, rfl⟩
  · rintro ⟨P, rfl⟩
    exact P.mem_subterms_fill u

end BoolNat
