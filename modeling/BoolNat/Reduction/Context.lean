import BoolNat.Reduction.Step
set_option autoImplicit false

/-! # Where evaluation happens

Evaluation works at one place of a term: below the conditions of conditionals and the
operands of operators.  An evaluation context is a term with a hole at such a place.
What stands in the hole and can be contracted at once is a redex; what stands there and
blocks evaluation for good is a fault, which is a conditional over a number, an operator
over a truth value, or a foreign leaf.

`Term.focus` follows conditions and operands down to the first node whose own condition
or operand is a value, or to a leaf: the place where evaluation works or is blocked.
-/

namespace BoolNat

/-- A term with a hole where evaluation works. -/
inductive Context where
  | hole
  | condition (inner : Context) (t e : Term)
  | operand (op : Operator) (inner : Context)
  deriving DecidableEq, Repr, Inhabited

def Context.plug : Context → Term → Term
  | .hole, t => t
  | .condition inner t e, u => .ite (inner.plug u) t e
  | .operand op inner, u => op.apply (inner.plug u)

namespace Term

/-- What a redex is contracted to; nothing for any other term. -/
def contract? : Term → Option Term
  | .ite .tru t _ => some t
  | .ite .fls _ e => some e
  | .pred .zero => some .zero
  | .pred (.succ n) => if n.isNumeric then some n else none
  | .isZero .zero => some .tru
  | .isZero (.succ n) => if n.isNumeric then some .fls else none
  | _ => none

def isRedex (t : Term) : Bool := t.contract?.isSome

/-- A term that blocks evaluation: a value of the wrong kind is where a value is
needed, or a foreign leaf. -/
def isFault : Term → Bool
  | .ite c _ _ => c.isNumeric
  | .succ t | .pred t | .isZero t => t.isBoolean
  | .foreign _ => true
  | .tru | .fls | .zero => false

/-- The first node below the conditions and operands of a term whose own condition or
operand is a value, or a leaf. -/
def focus : Term → Term
  | .ite c t e => if c.isValue then .ite c t e else c.focus
  | .succ t => if t.isValue then .succ t else t.focus
  | .pred t => if t.isValue then .pred t else t.focus
  | .isZero t => if t.isValue then .isZero t else t.focus
  | leaf => leaf

theorem isRedex_ite (c t e : Term) : (ite c t e).isRedex = c.isBoolean := by
  cases c <;> rfl

/-- Every operator but the successor is contracted over a numeral. -/
theorem isRedex_apply {op : Operator} (h : op ≠ .succ) (t : Term) :
    (op.apply t).isRedex = t.isNumeric := by
  cases op with
  | succ => exact absurd rfl h
  | pred | isZero =>
    cases t with
    | succ n => cases hn : n.isNumeric <;> simp [Operator.apply, isRedex, contract?, isNumeric, hn]
    | _ => rfl

/-- A redex steps to what it is contracted to. -/
theorem step_of_contract {r r' : Term} (h : r.contract? = some r') : r.step = some r' := by
  unfold contract? at h
  split at h
  case h_4 | h_6 =>
    simp only [Option.ite_none_right_eq_some] at h
    rw [← h.2]
    exact if_pos h.1
  case h_7 => cases h
  all_goals exact h

/-- A fault does not step. -/
theorem step_of_isFault {w : Term} (h : w.isFault = true) : w.step = none := by
  cases w with
  | tru | fls | zero => cases h
  | foreign => rfl
  | ite c t e =>
    have hc : c.isNumeric = true := h
    have hb : c.isBoolean = false := by cases c <;> first | rfl | cases hc
    rw [step_ite t e hb, step_of_isNumeric hc]; rfl
  | succ t | pred t | isZero t =>
    cases t with
    | tru | fls => rfl
    | _ => cases h

end Term

end BoolNat
