import BoolNat.Term.Text
import BoolNat.Typing.Ty
set_option autoImplicit false

/-! # Typing errors

A type error carries the node whose rule failed and what that rule found.  A
foreign leaf is not a type error: it is reported as a fault of its own, and it
is the only one.
-/

namespace BoolNat

/-- Why a term of the calculus does not have a type, or not the expected one. -/
inductive TypeError where
  /-- the condition of the conditional `term` is not a truth value -/
  | conditionNotBool (term condition : Term) (actual : Ty)
  /-- the branches of the conditional `term` have different types -/
  | branchTypeMismatch (term : Term) (thenType elseType : Ty)
  /-- the operand of the operator at `term` is not a number -/
  | operandNotNat (term operand : Term) (actual : Ty)
  /-- the term is well typed, but not at the type that was expected -/
  | typeMismatch (term : Term) (expected : Option TypeName) (actual : Ty)
  deriving DecidableEq, Repr, Inhabited

namespace TypeError

def term : TypeError → Term
  | .conditionNotBool t _ _ => t
  | .branchTypeMismatch t _ _ => t
  | .operandNotNat t _ _ => t
  | .typeMismatch t _ _ => t

def message : TypeError → String
  | .conditionNotBool _ condition actual =>
    "Condition " ++ condition.text ++ " has type " ++ actual.name ++ ", expected Bool"
  | .branchTypeMismatch _ thenType elseType =>
    "Branches of conditional disagree: then is " ++ thenType.name ++
      ", else is " ++ elseType.name
  | .operandNotNat _ operand actual =>
    "Operand " ++ operand.text ++ " has type " ++ actual.name ++ ", expected Nat"
  | .typeMismatch _ expected actual =>
    "Expected type " ++ TypeName.textOrNone expected ++ ", but got " ++ actual.name

end TypeError

/-- The checker reached a foreign leaf. -/
inductive ForeignLeaf where
  | reached (leaf : Foreign)
  deriving DecidableEq, Repr, Inhabited

def ForeignLeaf.message : ForeignLeaf → String
  | .reached leaf => "Not an arithmetic term: " ++ leaf.shown

/-- Why the checker gave no type: a type error, or a foreign leaf on its way. -/
inductive Rejection where
  | typeError (e : TypeError)
  | foreignLeaf (leaf : Foreign)
  deriving DecidableEq, Repr, Inhabited

end BoolNat
