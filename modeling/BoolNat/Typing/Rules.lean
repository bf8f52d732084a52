import BoolNat.Term.Value
import BoolNat.Typing.Infer
set_option autoImplicit false

/-! # The typing rules

The rules of the type system, one for each shape of term, as a relation; and the
checker that reads them off node by node, going into the operand of every operator
before it looks at the operator itself.  There is no rule for a foreign leaf.
-/

namespace BoolNat

inductive HasType : Term → Ty → Prop
  | tru : HasType .tru .bool
  | fls : HasType .fls .bool
  | zero : HasType .zero .nat
  | succ {t : Term} (operand : HasType t .nat) : HasType (.succ t) .nat
  | pred {t : Term} (operand : HasType t .nat) : HasType (.pred t) .nat
  | isZero {t : Term} (operand : HasType t .nat) : HasType (.isZero t) .bool
  | ite {c t e : Term} {ty : Ty} (condition : HasType c .bool) (thenBranch : HasType t ty)
      (elseBranch : HasType e ty) : HasType (.ite c t e) ty

/-- A term has at most one type. -/
theorem HasType.unique {t : Term} {ty ty' : Ty} (h : HasType t ty) (h' : HasType t ty') :
    ty = ty' := by
  induction h generalizing ty' with
  | tru | fls | zero => cases h'; rfl
  | succ | pred | isZero => cases h'; rfl
  | ite _ _ _ _ ih _ => cases h' with | ite _ ht _ => exact ih ht

/-- An operator has the type of its result, and its operand is a number. -/
theorem hasType_apply_iff {op : Operator} {t : Term} {ty : Ty} :
    HasType (op.apply t) ty ↔ op.resultType = ty ∧ HasType t .nat := by
  constructor
  · intro h
    cases op with
    | succ => cases h with | succ operand => exact ⟨rfl, operand⟩
    | pred => cases h with | pred operand => exact ⟨rfl, operand⟩
    | isZero => cases h with | isZero operand => exact ⟨rfl, operand⟩
  · intro h
    obtain ⟨rfl, operand⟩ := h
    cases op with
    | succ => exact .succ operand
    | pred => exact .pred operand
    | isZero => exact .isZero operand

theorem hasType_ite_iff {c t e : Term} {ty : Ty} :
    HasType (.ite c t e) ty ↔ HasType c .bool ∧ HasType t ty ∧ HasType e ty := by
  constructor
  · intro h
    cases h with
    | ite condition thenBranch elseBranch => exact ⟨condition, thenBranch, elseBranch⟩
  · intro h
    exact .ite h.1 h.2.1 h.2.2

/-- No rule gives a type to a foreign leaf, nor to what has one in it. -/
theorem HasType.isProper {t : Term} {ty : Ty} (h : HasType t ty) : t.isProper = true := by
  induction h with
  | tru | fls | zero => rfl
  | succ _ ih | pred _ ih | isZero _ ih => exact ih
  | ite _ _ _ ihc iht ihe => exact Term.isProper_ite.mpr ⟨ihc, iht, ihe⟩

theorem HasType.of_isBoolean {v : Term} (h : v.isBoolean = true) : HasType v .bool := by
  cases v with
  | tru => exact .tru
  | fls => exact .fls
  | _ => cases h

theorem HasType.of_isNumeric {v : Term} (h : v.isNumeric = true) : HasType v .nat := by
  induction v with
  | zero => exact .zero
  | succ n ih => exact .succ (ih h)
  | _ => cases h

namespace Term

/-- Apply the rule of the operator at a node to the outcome for its operand. -/
def typeOperator (op : Operator) (operand : Term) : Except Rejection Ty → Except Rejection Ty
  | .error r => .error r
  | .ok .nat => .ok op.resultType
  | .ok .bool => .error (.typeError (.operandNotNat (op.apply operand) operand .bool))

/-- The type of a term, or the first reason why it has none, node by node. -/
def typeByNode : Term → Except Rejection Ty
  | .tru | .fls => .ok .bool
  | .zero => .ok .nat
  | .succ t => typeOperator .succ t t.typeByNode
  | .pred t => typeOperator .pred t t.typeByNode
  | .isZero t => typeOperator .isZero t t.typeByNode
  | .ite c t e =>
    match c.typeByNode with
    | .error r => .error r
    | .ok .nat => .error (.typeError (.conditionNotBool (.ite c t e) c .nat))
    | .ok .bool =>
      match t.typeByNode, e.typeByNode with
      | .error r, _ => .error r
      | .ok _, .error r => .error r
      | .ok thenType, .ok elseType =>
        if thenType = elseType then .ok thenType
        else .error (.typeError (.branchTypeMismatch (.ite c t e) thenType elseType))
  | .foreign leaf => .error (.foreignLeaf leaf)

theorem typeByNode_apply (op : Operator) (t : Term) :
    (op.apply t).typeByNode = typeOperator op t t.typeByNode := by
  cases op <;> rfl

end Term

end BoolNat
