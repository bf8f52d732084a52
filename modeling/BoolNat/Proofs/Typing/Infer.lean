import BoolNat.Typing.Rules
set_option autoImplicit false

/-! # The checker and the typing rules

The checker keeps the operators it has peeled off on a stack and types them once it knows
what is under them.  Whatever is on the stack, the outcome is that of the node-by-node
checker for the term, handed up through the stack (`typeUnder_eq_bind`); so the two
checkers agree (`typeOf_eq_typeByNode`), reasons for a refusal included.  The node-by-node
checker follows the typing rules, and a term gets a type exactly when the rules give it
that type (`typecheck_eq_some_iff`).
-/

namespace BoolNat

/-- The outcome for an operand, handed to the operator nearest to it and then to the
others. -/
theorem bind_typeOperators_cons (op : Operator) (operand : Term)
    (waiting : List PendingOperator) (outcome : Except Rejection Ty) :
    outcome.bind (typeOperators (⟨op, operand⟩ :: waiting)) =
      (Term.typeOperator op operand outcome).bind (typeOperators waiting) := by
  cases outcome with
  | error r => rfl
  | ok ty => cases ty <;> rfl

theorem bind_typeOperators_nil (outcome : Except Rejection Ty) :
    outcome.bind (typeOperators []) = outcome := by
  cases outcome <;> rfl

namespace Term

/-- Typing a term under waiting operators is typing it node by node and handing the
outcome to the operators. -/
theorem typeUnder_eq_bind (t : Term) (waiting : List PendingOperator) :
    t.typeUnder waiting = t.typeByNode.bind (typeOperators waiting) := by
  induction t generalizing waiting with
  | tru | fls | zero | foreign => rfl
  | succ t ih | pred t ih | isZero t ih =>
    rw [typeUnder, ih, bind_typeOperators_cons, typeByNode]
  | ite c t e ihc iht ihe =>
    -- The parts of a conditional are typed with nothing waiting around them.
    rw [typeUnder, typeByNode, ihc, iht, ihe]
    simp only [bind_typeOperators_nil]
    cases c.typeByNode with
    | error r => rfl
    | ok condition =>
      cases condition with
      | nat => rfl
      | bool =>
        cases t.typeByNode with
        | error r => rfl
        | ok thenType =>
          cases e.typeByNode with
          | error r => rfl
          | ok elseType => cases thenType <;> cases elseType <;> rfl

theorem typeOf_eq_typeByNode (t : Term) : t.typeOf = t.typeByNode := by
  rw [typeOf, typeUnder_eq_bind, bind_typeOperators_nil]

end Term

/-- Every type the rules give is found. -/
theorem HasType.typeByNode_eq {t : Term} {ty : Ty} (h : HasType t ty) :
    t.typeByNode = .ok ty := by
  induction h with
  | tru | fls | zero => rfl
  | succ _ ih | pred _ ih | isZero _ ih => rw [Term.typeByNode, ih]; rfl
  | ite _ _ _ ihc iht ihe => rw [Term.typeByNode, ihc, iht, ihe]; exact if_pos rfl

namespace Term

theorem typeOperator_eq_ok_iff {op : Operator} {operand : Term}
    {outcome : Except Rejection Ty} {ty : Ty} :
    typeOperator op operand outcome = .ok ty ↔ outcome = .ok .nat ∧ op.resultType = ty := by
  cases outcome with
  | error r => simp [typeOperator]
  | ok found => cases found <;> simp [typeOperator]

/-- Every type that is found is given by the rules. -/
theorem hasType_of_typeByNode {t : Term} {ty : Ty} (h : t.typeByNode = .ok ty) :
    HasType t ty := by
  induction t generalizing ty with
  | tru => cases h; exact .tru
  | fls => cases h; exact .fls
  | zero => cases h; exact .zero
  | succ t ih =>
    obtain ⟨ht, rfl⟩ := typeOperator_eq_ok_iff.mp h
    exact .succ (ih ht)
  | pred t ih =>
    obtain ⟨ht, rfl⟩ := typeOperator_eq_ok_iff.mp h
    exact .pred (ih ht)
  | isZero t ih =>
    obtain ⟨ht, rfl⟩ := typeOperator_eq_ok_iff.mp h
    exact .isZero (ih ht)
  | ite c t e ihc iht ihe =>
    unfold typeByNode at h
    split at h
    · cases h
    · cases h
    · rename_i hc
      split at h
      · cases h
      · cases h
      · rename_i thenType elseType ht he
        split at h
        · rename_i heq
          cases h
          exact .ite (ihc hc) (iht ht) (ihe (heq ▸ he))
        · cases h
  | foreign => cases h

theorem typeOf_eq_ok_iff {t : Term} {ty : Ty} : t.typeOf = .ok ty ↔ HasType t ty := by
  rw [typeOf_eq_typeByNode]
  exact ⟨hasType_of_typeByNode, HasType.typeByNode_eq⟩

/-- The checker gives a term the types that the rules give it. -/
theorem typecheck_eq_some_iff {t : Term} {ty : Ty} :
    t.typecheck = .ok (some ty) ↔ HasType t ty := by
  rw [← typeOf_eq_ok_iff, typecheck, typeOrError]
  cases t.typeOf with
  | ok found => simp [Except.map, Except.toOption]
  | error r => cases r <;> simp [Except.map, Except.toOption]

/-! ## Rows of the answer

Once the reason of a type error is dropped, the answer for a term depends on the answers for
its parts alone. -/

/-- The answer an outcome leads to. -/
def answer : Except Rejection Ty → Except ForeignLeaf (Option Ty)
  | .ok ty => .ok (some ty)
  | .error (.typeError _) => .ok none
  | .error (.foreignLeaf leaf) => .error (.reached leaf)

theorem typecheck_eq_answer (t : Term) : t.typecheck = answer t.typeByNode := by
  rw [typecheck, typeOrError, typeOf_eq_typeByNode]
  cases t.typeByNode with
  | ok ty => rfl
  | error r => cases r <;> rfl

/-- The answer is that there is no type when a type error is found. -/
theorem typecheck_eq_none_iff {t : Term} :
    t.typecheck = .ok none ↔ ∃ e, t.typeOf = .error (.typeError e) := by
  rw [typecheck_eq_answer, typeOf_eq_typeByNode]
  cases t.typeByNode with
  | ok ty => simp [answer]
  | error r => cases r <;> simp [answer]

theorem typecheck_apply (op : Operator) (t : Term) :
    (op.apply t).typecheck = t.typecheck.map fun ty =>
      if ty = some .nat then some op.resultType else none := by
  rw [typecheck_eq_answer, typecheck_eq_answer, typeByNode_apply]
  cases t.typeByNode with
  | ok ty => cases ty <;> rfl
  | error r => cases r <;> rfl

theorem typecheck_ite (c t e : Term) :
    (ite c t e).typecheck =
      match c.typecheck with
      | .error r => .error r
      | .ok (some .bool) =>
        match t.typecheck with
        | .ok (some thenType) => e.typecheck.map fun elseType =>
          if elseType = some thenType then some thenType else none
        | other => other
      | .ok _ => .ok none := by
  rw [typecheck_eq_answer, typecheck_eq_answer, typecheck_eq_answer, typecheck_eq_answer,
    typeByNode]
  cases c.typeByNode with
  | error r => cases r <;> rfl
  | ok condition =>
    cases condition with
    | nat => rfl
    | bool =>
      cases t.typeByNode with
      | error r => cases r <;> rfl
      | ok thenType =>
        cases e.typeByNode with
        | error r => cases r <;> rfl
        | ok elseType => cases thenType <;> cases elseType <;> rfl

/-! ## Terms without foreign leaves

Only a foreign leaf can keep the checker from an answer, and it is reported only where one
occurs. -/

theorem typeByNode_ne_foreignLeaf {t : Term} (h : t.isProper = true) (leaf : Foreign) :
    t.typeByNode ≠ .error (.foreignLeaf leaf) := by
  induction t using operatorInduction with
  | tru | fls | zero => simp [typeByNode]
  | foreign => cases h
  | apply op t ih =>
    rw [isProper_apply] at h
    have ht := ih h
    rw [typeByNode_apply]
    cases hty : t.typeByNode with
    | error r => rw [hty] at ht; exact ht
    | ok ty => cases ty <;> simp [typeOperator]
  | ite c t e ihc iht ihe =>
    simp only [isProper, Bool.and_eq_true] at h
    have hc := ihc h.1.1
    have ht := iht h.1.2
    have he := ihe h.2
    rw [typeByNode]
    cases hcond : c.typeByNode with
    | error r => rw [hcond] at hc; exact hc
    | ok condition =>
      cases condition with
      | nat => simp
      | bool =>
        cases hthen : t.typeByNode with
        | error r => rw [hthen] at ht; exact ht
        | ok thenType =>
          cases helse : e.typeByNode with
          | error r => rw [helse] at he; exact he
          | ok elseType => cases thenType <;> cases elseType <;> simp

/-- The term has a type. -/
def isTyped (t : Term) : Bool := t.typeOf.toOption.isSome

theorem isTyped_iff {t : Term} : t.isTyped = true ↔ ∃ ty, HasType t ty := by
  simp only [← typeOf_eq_ok_iff, isTyped]
  cases t.typeOf <;> simp [Except.toOption]

/-- What the checker answers for a term of the calculus. -/
theorem typecheck_of_isProper {t : Term} (h : t.isProper = true) :
    t.typecheck = .ok t.typeOf.toOption := by
  have hne : ∀ leaf, t.typeOf ≠ .error (.foreignLeaf leaf) := fun leaf =>
    t.typeOf_eq_typeByNode ▸ typeByNode_ne_foreignLeaf h leaf
  rw [typecheck, typeOrError]
  cases hty : t.typeOf with
  | ok ty => rfl
  | error r =>
    cases r with
    | typeError e => rfl
    | foreignLeaf leaf => exact (hne leaf hty).elim

theorem isWellTyped_of_isProper {t : Term} (h : t.isProper = true) :
    t.isWellTyped = .ok t.isTyped := by
  rw [isWellTyped, typecheck_of_isProper h]; rfl

end Term

end BoolNat
