import BoolNat.Typing.Error
set_option autoImplicit false

/-! # The type checker

One rule per shape.  A conditional is checked condition first, then its
branches from left to right.  A run of operators is peeled off and kept, nearest
the operand first, until something else is found; once that has a type, the
operators are typed one after the other from the inside out.  So a numeral of any
depth is typed by a loop.

`Term.typeOf` answers with a type or the reason why there is none;
`typeOrError`, `typecheck` and `isWellTyped` forget more and more of the reason,
but a foreign leaf that was reached is reported by all of them.
-/

namespace BoolNat

/-- An operator waiting for the type of its operand. -/
structure PendingOperator where
  op : Operator
  operand : Term
  deriving DecidableEq, Repr, Inhabited

def PendingOperator.node (p : PendingOperator) : Term := p.op.apply p.operand

/-- The type an operator gives to its node. -/
def Operator.resultType : Operator → Ty
  | .succ | .pred => .nat
  | .isZero => .bool

/-- Type the waiting operators, nearest the operand first, from the operand's type. -/
def typeOperators : List PendingOperator → Ty → Except Rejection Ty
  | [], ty => .ok ty
  | p :: outer, ty =>
    if ty = .nat then typeOperators outer p.op.resultType
    else .error (.typeError (.operandNotNat p.node p.operand ty))

namespace Term

/-- The type of a term under the operators `waiting` around it. -/
def typeUnder : Term → List PendingOperator → Except Rejection Ty
  | .tru, waiting | .fls, waiting => typeOperators waiting .bool
  | .zero, waiting => typeOperators waiting .nat
  | .succ t, waiting => t.typeUnder (⟨.succ, t⟩ :: waiting)
  | .pred t, waiting => t.typeUnder (⟨.pred, t⟩ :: waiting)
  | .isZero t, waiting => t.typeUnder (⟨.isZero, t⟩ :: waiting)
  | .ite c t e, waiting =>
    match c.typeUnder [] with
    | .error r => .error r
    | .ok .nat => .error (.typeError (.conditionNotBool (.ite c t e) c .nat))
    | .ok .bool =>
      match t.typeUnder [] with
      | .error r => .error r
      | .ok thenType =>
        match e.typeUnder [] with
        | .error r => .error r
        | .ok elseType =>
          if thenType = elseType then typeOperators waiting thenType
          else .error (.typeError (.branchTypeMismatch (.ite c t e) thenType elseType))
  | .foreign leaf, _ => .error (.foreignLeaf leaf)

/-- The type of a term, or the first reason why it has none. -/
def typeOf (t : Term) : Except Rejection Ty := t.typeUnder []

/-- The type of a term or its type error, unless a foreign leaf is reached. -/
def typeOrError (t : Term) : Except ForeignLeaf (Except TypeError Ty) :=
  match t.typeOf with
  | .ok ty => .ok (.ok ty)
  | .error (.typeError e) => .ok (.error e)
  | .error (.foreignLeaf leaf) => .error (.reached leaf)

/-- The type of a term if it has one, unless a foreign leaf is reached. -/
def typecheck (t : Term) : Except ForeignLeaf (Option Ty) :=
  t.typeOrError.map Except.toOption

def isWellTyped (t : Term) : Except ForeignLeaf Bool :=
  t.typecheck.map Option.isSome

/-- Check a term against an expected type, which may be a name of no type or may
be missing.  The errors of the term itself come first. -/
def check (t : Term) (expected : Option TypeName) : Except Rejection Unit :=
  match t.typeOf with
  | .error r => .error r
  | .ok actual =>
    if expected = some (.known actual) then .ok ()
    else .error (.typeError (.typeMismatch t expected actual))

end Term

end BoolNat
