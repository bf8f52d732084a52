import BoolNat.Term.Value
set_option autoImplicit false

/-! # The rules of evaluation, one by one

The step relation as a table of ten rules, each of which says on its own what it
derives for a term.  The rules know no order of precedence: collecting what all of
them derive gives the whole relation, and that it relates a term to at most one
other is a theorem about the table, not a matter of how it is searched.

The four rules for a part of a term (`E-If`, `E-Succ`, `E-Pred`, `E-Iszero`) need
to know where that part, the term's focus, may step to.
-/

namespace BoolNat

inductive Rule where
  | ifTrue
  | ifFalse
  | ifCondition
  | succOperand
  | predZero
  | predSucc
  | predOperand
  | isZeroZero
  | isZeroSucc
  | isZeroOperand
  deriving DecidableEq, Repr, Inhabited

namespace Rule

def all : List Rule :=
  [.ifTrue, .ifFalse, .ifCondition, .succOperand, .predZero, .predSucc, .predOperand,
    .isZeroZero, .isZeroSucc, .isZeroOperand]

theorem mem_all (rule : Rule) : rule ∈ all := by
  cases rule <;> simp [all]

def name : Rule → String
  | .ifTrue => "E-IfTrue"
  | .ifFalse => "E-IfFalse"
  | .ifCondition => "E-If"
  | .succOperand => "E-Succ"
  | .predZero => "E-PredZero"
  | .predSucc => "E-PredSucc"
  | .predOperand => "E-Pred"
  | .isZeroZero => "E-IszeroZero"
  | .isZeroSucc => "E-IszeroSucc"
  | .isZeroOperand => "E-Iszero"

/-- What a rule derives for a term whose focus steps to the terms `inner`. -/
def conclude : Rule → Term → List Term → List Term
  | .ifTrue, .ite .tru t _, _ => [t]
  | .ifFalse, .ite .fls _ e, _ => [e]
  | .ifCondition, .ite _ t e, inner => inner.map (.ite · t e)
  | .succOperand, .succ t, inner => if t.isNumeric then [] else inner.map .succ
  | .predZero, .pred .zero, _ => [.zero]
  | .predSucc, .pred (.succ n), _ => if n.isNumeric then [n] else []
  | .predOperand, .pred _, inner => inner.map .pred
  | .isZeroZero, .isZero .zero, _ => [.tru]
  | .isZeroSucc, .isZero (.succ n), _ => if n.isNumeric then [.fls] else []
  | .isZeroOperand, .isZero _, inner => inner.map .isZero
  | _, _, _ => []

/-- What every rule of the table derives, in the order of the table. -/
def deriveAll (t : Term) (inner : List Term) : List (Rule × Term) :=
  all.flatMap fun rule => (rule.conclude t inner).map (rule, ·)

end Rule

namespace Term

/-- Every term the rules relate a term to, in the order of the table. -/
def successors : Term → List Term
  | .succ t => ((Rule.deriveAll (.succ t) t.successors)).map (·.2)
  | .pred t => ((Rule.deriveAll (.pred t) t.successors)).map (·.2)
  | .isZero t => ((Rule.deriveAll (.isZero t) t.successors)).map (·.2)
  | .ite c t e => ((Rule.deriveAll (.ite c t e) c.successors)).map (·.2)
  | .tru | .fls | .zero | .foreign _ => []

/-- Where the focus of a term may step to: the condition of a conditional, the
operand of an operator. -/
def focusSuccessors : Term → List Term
  | .succ t | .pred t | .isZero t => t.successors
  | .ite c _ _ => c.successors
  | .tru | .fls | .zero | .foreign _ => []

/-- Every rule that derives something for a term, with what it derives. -/
def derivations (t : Term) : List (Rule × Term) :=
  Rule.deriveAll t t.focusSuccessors

/-- The successors are what the derivations derive. -/
theorem successors_eq_derivations (t : Term) : t.successors = t.derivations.map (·.2) := by
  cases t with
  | succ t | pred t | isZero t | ite c t e => rfl
  | tru | fls | zero | foreign =>
    simp [derivations, focusSuccessors, successors, Rule.deriveAll, Rule.all, Rule.conclude]

end Term

end BoolNat
