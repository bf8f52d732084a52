import BoolNat.Proofs.Typing.Infer
set_option autoImplicit false

/-! # Why a term has no type

A term is refused a type where the rule of some node fails, and the reason is the first such
failure.  A node is looked at after its parts are found to have types, an operator after its
operand, and a conditional asks for its condition, for the then branch and for the else branch in
this order (`Refused`).

What the checker answers is determined by that: the type that the rules give, or the reason why
they give none (`Term.typeOf_by_rules`), no matter how many operators it has peeled off before it
looks at one.
-/

namespace BoolNat

/-- The term is refused a type for the reason.  In `operand`, `condition`, `thenBranch` and
`elseBranch` the failure lies further down; in the others it is that of the node itself. -/
inductive Refused : Term → Rejection → Prop
  | foreign (leaf : Foreign) : Refused (.foreign leaf) (.foreignLeaf leaf)
  | operand (op : Operator) {t : Term} {r : Rejection} (operand : Refused t r) :
    Refused (op.apply t) r
  | operandNotNat (op : Operator) {t : Term} (operand : HasType t .bool) :
    Refused (op.apply t) (.typeError (.operandNotNat (op.apply t) t .bool))
  | condition {c : Term} (t e : Term) {r : Rejection} (condition : Refused c r) :
    Refused (.ite c t e) r
  | conditionNotBool {c : Term} (t e : Term) (condition : HasType c .nat) :
    Refused (.ite c t e) (.typeError (.conditionNotBool (.ite c t e) c .nat))
  | thenBranch {c t : Term} (e : Term) {r : Rejection} (condition : HasType c .bool)
    (thenBranch : Refused t r) : Refused (.ite c t e) r
  | elseBranch {c t e : Term} {thenType : Ty} {r : Rejection} (condition : HasType c .bool)
    (thenBranch : HasType t thenType) (elseBranch : Refused e r) : Refused (.ite c t e) r
  | branchTypeMismatch {c t e : Term} {thenType elseType : Ty} (condition : HasType c .bool)
    (thenBranch : HasType t thenType) (elseBranch : HasType e elseType)
    (differ : thenType ≠ elseType) :
    Refused (.ite c t e) (.typeError (.branchTypeMismatch (.ite c t e) thenType elseType))

/-- The node-by-node checker meets the failure that is described, by induction on the
description. -/
theorem Refused.typeByNode_eq {t : Term} {r : Rejection} (h : Refused t r) :
    t.typeByNode = .error r := by
  induction h with
  | foreign => rfl
  | operand op _ ih =>
    rw [Term.typeByNode_apply, ih]
    rfl
  | operandNotNat op operand =>
    rw [Term.typeByNode_apply, operand.typeByNode_eq]
    rfl
  | condition t e _ ih => rw [Term.typeByNode, ih]
  | conditionNotBool t e condition => rw [Term.typeByNode, condition.typeByNode_eq]
  | thenBranch e condition _ ih => rw [Term.typeByNode, condition.typeByNode_eq, ih]
  | elseBranch condition thenBranch _ ih =>
    rw [Term.typeByNode, condition.typeByNode_eq, thenBranch.typeByNode_eq, ih]
  | branchTypeMismatch condition thenBranch elseBranch differ =>
    rw [Term.typeByNode, condition.typeByNode_eq, thenBranch.typeByNode_eq,
      elseBranch.typeByNode_eq]
    exact if_neg differ

namespace Term

/-- Every failure that the node-by-node checker meets is described, by induction on the term. -/
theorem refused_of_typeByNode {t : Term} {r : Rejection} (h : t.typeByNode = .error r) :
    Refused t r := by
  induction t using operatorInduction with
  | tru | fls | zero => cases h
  | foreign leaf =>
    cases h
    exact .foreign leaf
  | apply op t ih =>
    rw [typeByNode_apply] at h
    cases ht : t.typeByNode with
    | error found =>
      rw [ht] at h
      cases h
      exact .operand op (ih ht)
    | ok ty =>
      rw [ht] at h
      cases ty with
      | nat => cases h
      | bool =>
        cases h
        exact .operandNotNat op (hasType_of_typeByNode ht)
  | ite c t e ihc iht ihe =>
    rw [typeByNode] at h
    split at h
    · next hc =>
      cases h
      exact .condition t e (ihc hc)
    · next hc =>
      cases h
      exact .conditionNotBool t e (hasType_of_typeByNode hc)
    · next hc =>
      have condition := hasType_of_typeByNode hc
      split at h
      · next ht =>
        cases h
        exact .thenBranch e condition (iht ht)
      · next ht he =>
        cases h
        exact .elseBranch condition (hasType_of_typeByNode ht) (ihe he)
      · next ht he =>
        split at h
        · cases h
        · next differ =>
          cases h
          exact .branchTypeMismatch condition (hasType_of_typeByNode ht)
            (hasType_of_typeByNode he) differ

theorem typeOf_eq_error_iff {t : Term} {r : Rejection} :
    t.typeOf = .error r ↔ Refused t r := by
  rw [typeOf_eq_typeByNode]
  exact ⟨refused_of_typeByNode, Refused.typeByNode_eq⟩

/-- With its stack of operators the checker answers what it would answer by going into every
operand in turn: the type that the rules give, or the first failure of a rule with all that it
says about the node. -/
theorem typeOf_by_rules (t : Term) :
    t.typeOf = t.typeByNode ∧ (∀ ty, t.typeOf = .ok ty ↔ HasType t ty) ∧
      ∀ r, t.typeOf = .error r ↔ Refused t r :=
  ⟨t.typeOf_eq_typeByNode, fun _ => typeOf_eq_ok_iff, fun _ => typeOf_eq_error_iff⟩

end Term

end BoolNat
