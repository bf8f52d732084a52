set_option autoImplicit false

/-! # Terms

The terms of the calculus of booleans and naturals: three constants, three
operators of one argument, and a conditional.  A leaf that is none of these can
still reach every function of the library, so there is a constructor for it,
`foreign`; what each function answers for it is part of that function's rule.

Nothing here evaluates or types a term.  `Term.children` is the one place that
says which subterms a shape has and in which order; walks, measures and
enumerations are built on it.
-/

namespace BoolNat

/-- Something that is no term of the calculus.  It has nothing to do with the calculus but
brings its own text, and another one for errors. -/
structure Foreign where
  text : String
  shown : String
  deriving DecidableEq, Repr, Inhabited

/-- A string in the place of a term, with nothing in it to escape. -/
def Foreign.string (text : String) : Foreign := ⟨text, "'" ++ text ++ "'"⟩

/-- A term of the calculus, or a foreign leaf standing where one should be. -/
inductive Term where
  | tru
  | fls
  | zero
  | succ (t : Term)
  | pred (t : Term)
  | isZero (t : Term)
  | ite (c t e : Term)
  /-- a leaf that is no term of the calculus -/
  | foreign (leaf : Foreign)
  deriving DecidableEq, Repr, Inhabited

namespace Term

/-- The immediate subterms, left to right. -/
def children : Term → List Term
  | .succ t | .pred t | .isZero t => [t]
  | .ite c t e => [c, t, e]
  | .tru | .fls | .zero | .foreign _ => []

/-- No foreign leaf occurs: the term belongs to the calculus. -/
def isProper : Term → Bool
  | .tru | .fls | .zero => true
  | .succ t | .pred t | .isZero t => t.isProper
  | .ite c t e => c.isProper && t.isProper && e.isProper
  | .foreign _ => false

def ofBool : Bool → Term
  | true => .tru
  | false => .fls

end Term

inductive Operator where
  | succ
  | pred
  | isZero
  deriving DecidableEq, Repr, Inhabited

namespace Operator

/-- The operators, in the order in which populations list them. -/
def all : List Operator := [.succ, .pred, .isZero]

/-- The operator put in front of a term. -/
def apply : Operator → Term → Term
  | .succ => .succ
  | .pred => .pred
  | .isZero => .isZero

@[simp] theorem children_apply (op : Operator) (t : Term) : (op.apply t).children = [t] := by
  cases op <;> rfl

theorem apply_inj {op op' : Operator} {t t' : Term} :
    op.apply t = op'.apply t' ↔ op = op' ∧ t = t' := by
  cases op <;> cases op' <;> simp [apply]

theorem apply_ne_ite (op : Operator) (u c t e : Term) : op.apply u ≠ .ite c t e := by
  cases op <;> exact Term.noConfusion

theorem mem_all (op : Operator) : op ∈ all := by
  cases op <;> simp [all]

end Operator

namespace Term

theorem isProper_apply (op : Operator) (t : Term) : (op.apply t).isProper = t.isProper := by
  cases op <;> rfl

theorem isProper_ite {c t e : Term} :
    (ite c t e).isProper = true ↔ c.isProper = true ∧ t.isProper = true ∧ e.isProper = true := by
  simp [isProper, and_assoc]

end Term

/-- Induction on a term with one case for the three operators. -/
@[elab_as_elim]
theorem Term.operatorInduction {motive : Term → Prop} (tru : motive .tru) (fls : motive .fls)
    (zero : motive .zero) (foreign : ∀ leaf : Foreign, motive (.foreign leaf))
    (apply : ∀ (op : Operator) (t : Term), motive t → motive (op.apply t))
    (ite : ∀ c t e : Term, motive c → motive t → motive e → motive (.ite c t e)) (t : Term) :
    motive t := by
  induction t with
  | tru => exact tru
  | fls => exact fls
  | zero => exact zero
  | foreign leaf => exact foreign leaf
  | succ t ih => exact apply .succ t ih
  | pred t ih => exact apply .pred t ih
  | isZero t ih => exact apply .isZero t ih
  | ite c t e ihc iht ihe => exact ite c t e ihc iht ihe

end BoolNat
